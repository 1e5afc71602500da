import SourceAtlas.Decimal.Binary64
import SourceAtlas.Text.Basic

/-!
# Shortest decimal text

The text of a floating point number: the fewest digits that read back as the number, and of those
the nearest to it.

* `Shortest.readsBack`: a decimal number lies in the interval that rounds to `m · 2 ^ q`;
* `Shortest.digits`: the digits and the place of the point;
* `Binary64.text`: positional from `1e-4` up to `1e16`, with at least one decimal, and with an
  exponent of at least two digits elsewhere.
-/

namespace SourceAtlas

namespace Shortest

/-- `n · 10 ^ k`, compared with `m · 2 ^ q`, both as whole numbers on a common scale. -/
def scale (n : Nat) (k : Int) (m : Nat) (q : Int) : Nat × Nat :=
  (n * pow10 k.toNat * pow2 (-q).toNat, m * pow2 q.toNat * pow10 (-k).toNat)

/-- `n · 10 ^ k` lies between the neighbours' midpoints of `m · 2 ^ q`, ends included for even
`m`. -/
def readsBack (m : Nat) (q : Int) (n : Nat) (k : Int) : Bool :=
  -- in quarters of a unit in the last place
  let low := if m = pow2 52 ∧ -1074 < q then 4 * m - 1 else 4 * m - 2
  let high := 4 * m + 2
  let (x, l) := scale n k low (q - 2)
  let (y, h) := scale n k high (q - 2)
  if m % 2 = 0 then l ≤ x && y ≤ h else l < x && y < h

/-- The distance of `n · 10 ^ k` from `m · 2 ^ q` on the common scale. -/
def distance (m : Nat) (q : Int) (n : Nat) (k : Int) : Nat :=
  let (x, y) := scale n k m q
  max x y - min x y

/-- The largest `n` with `n · 10 ^ k ≤ m · 2 ^ q`. -/
def floorAt (m : Nat) (q k : Int) : Nat :=
  let num := m * pow2 q.toNat * pow10 (-k).toNat
  num / (pow2 (-q).toNat * pow10 k.toNat)

/-- The point of the grid of step `10 ^ k` that reads back as `m · 2 ^ q`: the nearer neighbour. -/
def onGrid? (m : Nat) (q k : Int) : Option Nat :=
  let n := floorAt m q k
  match readsBack m q n k, readsBack m q (n + 1) k with
  | true, true =>
    let a := distance m q n k
    let b := distance m q (n + 1) k
    some (if a < b ∨ (a = b ∧ n % 2 = 0) then n else n + 1)
  | true, false => some n
  | false, true => some (n + 1)
  | false, false => none

/-- The exponent of the leading decimal digit of `m · 2 ^ q`, for positive `m`. -/
def leadingPlace (m : Nat) (q : Int) : Int :=
  if 0 ≤ q then (Nat.toDigits 10 (m * pow2 q.toNat)).length - 1
  else
    -- scaled by `10 ^ 400` the value is at least one
    ((Nat.toDigits 10 (m * pow10 400 / pow2 (-q).toNat)).length : Int) - 401

/-- The first grid with a point that reads back, from `tried` digits on. -/
def search (m : Nat) (q lead : Int) : Nat → Nat → Nat × Int
  | _, 0 => (floorAt m q (lead - 16), lead - 16)
  | tried, fuel + 1 =>
    let k := lead - tried
    match onGrid? m q k with
    | some n => (n, k)
    | none => search m q lead (tried + 1) fuel

/-- The digits of `m · 2 ^ q` without zeros at the end, and the count of them before the point. -/
def digits (m : Nat) (q : Int) : List Char × Int :=
  let (n, k) := search m q (leadingPlace m q) 0 17
  let ds := Nat.toDigits 10 n
  let kept := (ds.reverse.dropWhile fun c => c = '0').reverse
  (kept, ds.length + k)

end Shortest

namespace Binary64

/-- The exponent part of a number whose first digit stands at place `e`. -/
def exponentText (e : Int) : Text :=
  let ds := Nat.toDigits 10 e.natAbs
  let padded := if ds.length < 2 then '0' :: ds else ds
  (if e < 0 then "e-" else "e+") ++ padded.map Point.ofChar

/-- Digits with the point after the first `point` of them. -/
def positional (ds : List Char) (point : Int) : Text :=
  let t := ds.map Point.ofChar
  let zeros (n : Int) : Text := List.replicate n.toNat '0'
  if point ≤ 0 then "0." ++ zeros (-point) ++ t
  else if (ds.length : Int) ≤ point then t ++ zeros (point - ds.length) ++ ".0"
  else t.take point.toNat ++ "." ++ t.drop point.toNat

/-- The shortest decimal text that reads back as the number. -/
def text : Binary64 → Text
  | nan => "nan"
  | infinite negative => if negative then "-inf" else "inf"
  | finite negative m q _ =>
    let sign : Text := if negative then "-" else []
    if m = 0 then sign ++ "0.0"
    else
      let (ds, point) := Shortest.digits m q
      if -4 < point ∧ point ≤ 16 then sign ++ positional ds point
      else
        let t := ds.map Point.ofChar
        let mantissa : Text := if t.length ≤ 1 then t else t.take 1 ++ "." ++ t.drop 1
        sign ++ mantissa ++ exponentText (point - 1)

end Binary64

end SourceAtlas
