import SourceAtlas.Text.Basic

/-!
# UTF-8

The octets of a text, and the text of octets in two readings: one that reports the first octets
that are no part of a text, and one that puts U+FFFD for each of them.

* `Utf8.encode?`, `Utf8.encode`: the octets of a text; half of a surrogate pair has none;
* `Utf8.Step`, `Utf8.step`: what the first octets of a sequence are;
* `Utf8.decode`, `Utf8.Fault`: strict reading, with place and reason of the first fault;
* `Utf8.decodeLossy`: reading with replacement, one U+FFFD per maximal faulty part.
-/

namespace SourceAtlas

/-- A sequence of octets. -/
abbrev Bytes := List UInt8

namespace Utf8

/-! ## Writing -/

/-- The octets of a point by the pattern for its size, surrogates not told apart. -/
def encodePoint (p : Point) : Bytes :=
  let n := p.toNat
  if n < 0x80 then [n.toUInt8]
  else if n < 0x800 then [(0xC0 + n / 64).toUInt8, (0x80 + n % 64).toUInt8]
  else if n < 0x10000 then
    [(0xE0 + n / 4096).toUInt8, (0x80 + n / 64 % 64).toUInt8, (0x80 + n % 64).toUInt8]
  else
    [(0xF0 + n / 262144).toUInt8, (0x80 + n / 4096 % 64).toUInt8, (0x80 + n / 64 % 64).toUInt8,
      (0x80 + n % 64).toUInt8]

/-- The octets of a text, one point after the other. -/
def encode (t : Text) : Bytes := t.flatMap encodePoint

/-- The octets of a text without surrogates. -/
def encode? (t : Text) : Option Bytes := if t.isScalar then some (encode t) else none

/-! ## Reading -/

/-- Why octets are no part of a text. -/
inductive Reason where
  | startByte
  | continuationByte
  | endOfData
deriving DecidableEq

/-- The ranges in which the octets after a lead octet lie, or `none` when it starts no point. -/
def tailRanges (lead : UInt8) : Option (List (UInt8 × UInt8)) :=
  if lead < 0x80 then some []
  else if lead < 0xC2 then none
  else if lead < 0xE0 then some [(0x80, 0xBF)]
  else if lead = 0xE0 then some [(0xA0, 0xBF), (0x80, 0xBF)]
  else if lead = 0xED then some [(0x80, 0x9F), (0x80, 0xBF)]
  else if lead < 0xF0 then some [(0x80, 0xBF), (0x80, 0xBF)]
  else if lead = 0xF0 then some [(0x90, 0xBF), (0x80, 0xBF), (0x80, 0xBF)]
  else if lead < 0xF4 then some [(0x80, 0xBF), (0x80, 0xBF), (0x80, 0xBF)]
  else if lead = 0xF4 then some [(0x80, 0x8F), (0x80, 0xBF), (0x80, 0xBF)]
  else none

/-- What the first octets of a sequence are: a point, or `size` octets that belong to none. The
number is the count of octets after the first one that are used up. -/
inductive Step where
  | point (p : Point) (more : Nat)
  | fault (reason : Reason) (more : Nat)

/-- The bits that a lead octet contributes. -/
def leadBits (lead : UInt8) : Nat :=
  if lead < 0x80 then lead.toNat
  else if lead < 0xE0 then lead.toNat % 32
  else if lead < 0xF0 then lead.toNat % 16
  else lead.toNat % 8

/-- Continues a point whose bits so far are `bits`; `used` octets after the lead are read. -/
def stepTail (bits used : Nat) : List (UInt8 × UInt8) → Bytes → Step
  | [], _ => .point (Point.ofNat bits) used
  | _ :: _, [] => .fault .endOfData used
  | (lo, hi) :: rs, b :: bs =>
    if lo ≤ b && b ≤ hi then stepTail (bits * 64 + b.toNat % 64) (used + 1) rs bs
    else .fault .continuationByte used

/-- What starts with the octet `lead` before the octets `bs`. -/
def step (lead : UInt8) (bs : Bytes) : Step :=
  match tailRanges lead with
  | none => .fault .startByte 0
  | some rs => stepTail (leadBits lead) 0 rs bs

/-- The first fault of a sequence: its place, the faulty octets and the reason. -/
structure Fault where
  position : Nat
  octets : Bytes
  reason : Reason
deriving DecidableEq

/-- The text of a sequence of octets, read from place `pos` on. -/
def decodeFrom (pos : Nat) : Bytes → Except Fault Text
  | [] => .ok []
  | b :: bs =>
    match step b bs with
    | .point p more => (p :: ·) <$> decodeFrom (pos + more + 1) (bs.drop more)
    | .fault reason more => .error ⟨pos, b :: bs.take more, reason⟩
termination_by bs => bs.length
decreasing_by simp only [List.length_drop, List.length_cons]; omega

/-- The text of a sequence of octets, or its first fault. -/
def decode (bs : Bytes) : Except Fault Text := decodeFrom 0 bs

/-- The text of a sequence of octets, each maximal faulty part read as U+FFFD. -/
def decodeLossy : Bytes → Text
  | [] => []
  | b :: bs =>
    match step b bs with
    | .point p more => p :: decodeLossy (bs.drop more)
    | .fault _ more => '\uFFFD' :: decodeLossy (bs.drop more)
termination_by bs => bs.length
decreasing_by all_goals (simp only [List.length_drop, List.length_cons]; omega)

/-! ## Wording of faults -/

def Reason.message : Reason → Text
  | .startByte => "invalid start byte"
  | .continuationByte => "invalid continuation byte"
  | .endOfData => "unexpected end of data"

/-- A fault in words: one octet is named, of several the first and the last place. -/
def Fault.message (f : Fault) : Text :=
  let place : Text :=
    match f.octets with
    | [b] => "byte 0x" ++ hex2 b ++ " in position " ++ Text.ofNat f.position
    | bs => "bytes in position " ++ Text.ofNat f.position ++ "-" ++
        Text.ofNat (f.position + bs.length - 1)
  "'utf-8' codec can't decode " ++ place ++ ": " ++ f.reason.message
where
  hex2 (b : UInt8) : Text :=
    ([Nat.digitChar (b.toNat / 16), Nat.digitChar (b.toNat % 16)]).map Point.ofChar

end Utf8

end SourceAtlas
