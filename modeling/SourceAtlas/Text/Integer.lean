import SourceAtlas.Text.Blank
import SourceAtlas.Text.Quoted

/-!
# Whole numbers as texts

The whole number that a text spells with the decimal digits of any script.

* `Point.digitValue?`: the value of a decimal digit;
* `Text.digitsOf?`: digits with single underscores between them;
* `Text.readInteger`: the number of a text with blank points around it.
-/

namespace SourceAtlas

/-- The points with value zero of all runs of decimal digits. -/
def Point.digitZeros : List Nat :=
  [0x30, 0x660, 0x6F0, 0x7C0, 0x966, 0x9E6, 0xA66, 0xAE6, 0xB66, 0xBE6, 0xC66, 0xCE6, 0xD66, 0xDE6,
    0xE50, 0xED0, 0xF20, 0x1040, 0x1090, 0x17E0, 0x1810, 0x1946, 0x19D0, 0x1A80, 0x1A90, 0x1B50,
    0x1BB0, 0x1C40, 0x1C50, 0xA620, 0xA8D0, 0xA900, 0xA9D0, 0xA9F0, 0xAA50, 0xABF0, 0xFF10,
    0x104A0, 0x10D30, 0x11066, 0x110F0, 0x11136, 0x111D0, 0x112F0, 0x11450, 0x114D0, 0x11650,
    0x116C0, 0x11730, 0x118E0, 0x11950, 0x11C50, 0x11D50, 0x11DA0, 0x16A60, 0x16AC0, 0x16B50,
    0x1D7CE, 0x1D7D8, 0x1D7E2, 0x1D7EC, 0x1D7F6, 0x1E140, 0x1E2F0, 0x1E950, 0x1FBF0]

/-- The value of a decimal digit of any script. -/
def Point.digitValue? (p : Point) : Option Nat :=
  (Point.digitZeros.find? fun z => z ≤ p.toNat && p.toNat < z + 10).map fun z => p.toNat - z

namespace Text

/-- The values of digits, between which single underscores may stand. -/
def digitsOf? : Text → Option (List Nat)
  | [] => none
  | [c] => (c.digitValue?).map fun d => [d]
  | c :: u :: t => do
    let d ← c.digitValue?
    let ds ← if u = '_' then digitsOf? t else digitsOf? (u :: t)
    return d :: ds

/-- Whether a sign says minus, and what follows the sign if there is one. -/
def cutSign : Text → Bool × Text
  | [] => (false, [])
  | c :: t => if c = '-' then (true, t) else if c = '+' then (false, t) else (false, c :: t)

/-- The number that digits spell. -/
def digitsNumber (ds : List Nat) : Nat := ds.foldl (fun n d => n * 10 + d) 0

end Text

/-- Why a text is no whole number. -/
inductive IntegerFault where
  | noInteger (text : Text)
  | tooManyDigits (count : Nat)
deriving DecidableEq

namespace Text

/-- The number of a text with a sign if it has one, digits, and blank points around it. -/
def readInteger (t : Text) (maxDigits : Nat) : Except IntegerFault Int :=
  let (negative, r) := cutSign t.trim
  match digitsOf? r with
  | none => .error (.noInteger t)
  | some ds =>
    if maxDigits < ds.length then .error (.tooManyDigits ds.length)
    else .ok (if negative then -(digitsNumber ds : Int) else digitsNumber ds)

end Text

end SourceAtlas
