/-!
# Binary floating point numbers

The numbers of the 64-bit binary format as significand and exponent, and the reading of a decimal
number as the nearest one.

* `Binary64`: not a number, the two infinities, and `± m · 2 ^ q`;
* `Binary64.ofParts`: the number of a significand and an exponent, infinite beyond the largest one;
* `Binary64.ofDecimal`: the number nearest to `d · 10 ^ e`; of two equally near ones the even one;
* `Binary64.integer?`, `Binary64.truncated?`: the value, if it is whole, and without its decimals.
-/

namespace SourceAtlas

/-- A power of two. -/
def pow2 (n : Nat) : Nat := Nat.pow 2 n

/-- A power of ten. -/
def pow10 (n : Nat) : Nat := Nat.pow 10 n

/-- A significand and an exponent of the format: the significand lies below `2 ^ 53`, and from
`2 ^ 52` on unless the exponent is the least one. Each number has one such form. -/
structure Binary64.Fits (significand : Nat) (exponent : Int) : Prop where
  lt : significand < pow2 53
  normal : pow2 52 ≤ significand ∨ exponent = -1074
  least : -1074 ≤ exponent
  greatest : exponent ≤ 971

/-- A 64-bit binary floating point number. A finite one is `± significand · 2 ^ exponent`. -/
inductive Binary64 where
  | nan
  | infinite (negative : Bool)
  | finite (negative : Bool) (significand : Nat) (exponent : Int)
      (fits : Binary64.Fits significand exponent)
deriving DecidableEq

namespace Binary64

instance : Inhabited Binary64 := ⟨nan⟩

instance (m : Nat) (q : Int) : Decidable (Fits m q) :=
  decidable_of_iff (m < pow2 53 ∧ (pow2 52 ≤ m ∨ q = -1074) ∧ -1074 ≤ q ∧ q ≤ 971)
    ⟨fun ⟨a, b, c, d⟩ => ⟨a, b, c, d⟩, fun ⟨a, b, c, d⟩ => ⟨a, b, c, d⟩⟩

/-- Zero, with a sign. -/
def zero (negative : Bool) : Binary64 := finite negative 0 (-1074) (by decide)

/-- `± m · 2 ^ q`, infinite beyond the largest number. -/
def ofParts (negative : Bool) (m : Nat) (q : Int) : Binary64 :=
  if h : Fits m q then finite negative m q h else infinite negative

/-- The quotient rounded to the nearest whole number, a half to the even one. -/
def divNearest (num den : Nat) : Nat :=
  let q := num / den
  let r := num % den
  if 2 * r < den then q
  else if 2 * r = den then (if q % 2 = 0 then q else q + 1)
  else q + 1

/-- The exponent of the last binary place that a number near `num / den` keeps. -/
def lastPlace (num den : Nat) : Int :=
  let e : Int := (num.log2 : Int) - (den.log2 : Int) - 52
  -- `num / den` lies between `2 ^ (e + 51)` and `2 ^ (e + 53)`
  let below : Bool :=
    if 0 ≤ e + 52 then num < den * pow2 (e + 52).toNat else num * pow2 (-(e + 52)).toNat < den
  max (if below then e - 1 else e) (-1074)

/-- The number nearest to `num / den`. -/
def ofRatio (negative : Bool) (num den : Nat) : Binary64 :=
  if num = 0 then zero negative
  else
    let q := lastPlace num den
    let m :=
      if 0 ≤ q then divNearest num (den * pow2 q.toNat)
      else divNearest (num * pow2 (-q).toNat) den
    if m = pow2 53 then ofParts negative (pow2 52) (q + 1) else ofParts negative m q

/-- The number nearest to `digits · 10 ^ exponent`. -/
def ofDecimal (negative : Bool) (digits : Nat) (exponent : Int) : Binary64 :=
  let size : Int := (Nat.toDigits 10 digits).length
  if digits = 0 then zero negative
  else if 310 < size + exponent then infinite negative
  else if size + exponent < -330 then zero negative
  else if 0 ≤ exponent then ofRatio negative (digits * pow10 exponent.toNat) 1
  else ofRatio negative digits (pow10 (-exponent).toNat)

def isZero : Binary64 → Bool
  | finite _ 0 _ _ => true
  | _ => false

def isFinite : Binary64 → Bool
  | finite .. => true
  | _ => false

/-- The value, if it is a whole number. -/
def integer? : Binary64 → Option Int
  | finite negative m q _ =>
    let sign (n : Nat) : Int := if negative then -(n : Int) else n
    if 0 ≤ q then some (sign (m * pow2 q.toNat))
    else if m % pow2 (-q).toNat = 0 then some (sign (m / pow2 (-q).toNat))
    else none
  | _ => none

/-- The value without its decimals, if it is finite. -/
def truncated? : Binary64 → Option Int
  | finite negative m q _ =>
    let n := if 0 ≤ q then m * pow2 q.toNat else m / pow2 (-q).toNat
    some (if negative then -(n : Int) else n)
  | _ => none

end Binary64

end SourceAtlas
