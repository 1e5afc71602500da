/-!
# Texts

A text is a list of Unicode code points. Surrogates are allowed: a JSON string may spell half of a
pair with an escape, and such a text must survive reading and writing.

* `Point`, `Point.ofChar`, `Point.toChar?`;
* `Text`, `Text.ofString`, `Text.toString`;
* searching: `has`, `startsWith`, `endsWith`, `after?`, `before?`, `contains`, `cut?`, `cutLast?`;
* cutting: `splitOn`, `joinWith`, `replaceFirst`, `replaceAll`;
* `Text.le`: the order by code point.
-/

namespace SourceAtlas

/-- A Unicode code point, surrogates included. -/
structure Point where
  toNat : Nat
  isLt : toNat < 0x110000
deriving DecidableEq

namespace Point

/-- The code point of a scalar value. -/
def ofChar (c : Char) : Point :=
  ⟨c.toNat, by
    have h := c.valid
    simp only [UInt32.isValidChar, Nat.isValidChar] at h
    simp only [Char.toNat]
    omega⟩

instance : Coe Char Point := ⟨ofChar⟩

instance : Inhabited Point := ⟨'\x00'⟩

/-- The code point with number `n`, or U+FFFD beyond the last one. -/
def ofNat (n : Nat) : Point := if h : n < 0x110000 then ⟨n, h⟩ else '\uFFFD'

/-- Half of a surrogate pair. -/
def isSurrogate (p : Point) : Bool := 0xD800 ≤ p.toNat && p.toNat < 0xE000

/-- The scalar value, if the point is one. -/
def toChar? (p : Point) : Option Char := if p.isSurrogate then none else some (Char.ofNat p.toNat)

def isDigit (p : Point) : Bool := 48 ≤ p.toNat && p.toNat ≤ 57

/-- The value of an ASCII hexadecimal digit. -/
def hexValue? (p : Point) : Option Nat :=
  let n := p.toNat
  if 48 ≤ n && n ≤ 57 then some (n - 48)
  else if 97 ≤ n && n ≤ 102 then some (n - 87)
  else if 65 ≤ n && n ≤ 70 then some (n - 55)
  else none

/-- The lower-case form of an ASCII capital; every other point is kept. -/
def toLowerAscii (p : Point) : Point :=
  if 65 ≤ p.toNat && p.toNat ≤ 90 then ofNat (p.toNat + 32) else p

end Point

/-- A text: its code points in order. -/
abbrev Text := List Point

namespace Text

/-- The code points of a string. -/
def ofString (s : String) : Text := s.toList.map Point.ofChar

instance : Coe String Text := ⟨ofString⟩

/-- The text as a string; half of a surrogate pair becomes U+FFFD. -/
def toString (t : Text) : String := String.ofList (t.map fun p => p.toChar?.getD '\uFFFD')

/-- No point is half of a surrogate pair. -/
def isScalar (t : Text) : Bool := t.all fun p => !p.isSurrogate

/-! ## Searching -/

/-- `c` occurs in `t`. -/
def has (t : Text) (c : Point) : Bool := t.any fun d => d = c

def startsWith : Text → Text → Bool
  | _, [] => true
  | [], _ :: _ => false
  | c :: t, d :: p => c = d && startsWith t p

/-- What follows `p` at the start of `t`. -/
def after? : (t p : Text) → Option Text
  | t, [] => some t
  | [], _ :: _ => none
  | c :: t, d :: p => if c = d then after? t p else none

def endsWith (t p : Text) : Bool := startsWith t.reverse p.reverse

/-- What precedes `p` at the end of `t`. -/
def before? (t p : Text) : Option Text := (after? t.reverse p.reverse).map List.reverse

/-- `p` occurs in `t`. -/
def contains : (t p : Text) → Bool
  | [], p => p.isEmpty
  | c :: t, p => startsWith (c :: t) p || contains t p

/-- The parts of `t` before and after the first `c`. -/
def cut? (c : Point) : Text → Option (Text × Text)
  | [] => none
  | d :: t => if d = c then some ([], t) else (cut? c t).map fun (a, b) => (d :: a, b)

/-- The parts of `t` before and after the last `c`. -/
def cutLast? (c : Point) : Text → Option (Text × Text)
  | [] => none
  | d :: t =>
    match cutLast? c t with
    | some (a, b) => some (d :: a, b)
    | none => if d = c then some ([], t) else none

/-- The part after the last `c`, or the whole text. -/
def afterLast (c : Point) (t : Text) : Text :=
  match cutLast? c t with
  | some (_, b) => b
  | none => t

/-- The number of occurrences of `c`. -/
def countOf (c : Point) (t : Text) : Nat := (t.filter fun d => d = c).length

/-! ## Cutting and joining -/

/-- The pieces between the occurrences of `c`; one piece more than occurrences. -/
def splitOn (c : Point) : Text → List Text
  | [] => [[]]
  | d :: t =>
    if d = c then [] :: splitOn c t
    else match splitOn c t with
      | [] => [[d]]
      | l :: ls => (d :: l) :: ls

def joinWith (sep : Text) : List Text → Text
  | [] => []
  | [t] => t
  | t :: ts => t ++ sep ++ joinWith sep ts

/-- The first `c` becomes `r`. -/
def replaceFirst (c : Point) (r : Text) (t : Text) : Text :=
  match cut? c t with
  | some (a, b) => a ++ r ++ b
  | none => t

/-- The parts before and after the first occurrence of a non-empty `p`. -/
def cutText? (p : Text) : Text → Option (Text × Text)
  | [] => none
  | c :: t =>
    match after? (c :: t) p with
    | some r => some ([], r)
    | none => (cutText? p t).map fun (a, b) => (c :: a, b)

theorem length_after? {t p r : Text} (h : after? t p = some r) :
    r.length + p.length = t.length := by
  induction t generalizing p with
  | nil => cases p with
    | nil => simp_all [after?]
    | cons => simp [after?] at h
  | cons c t ih => cases p with
    | nil => simp_all [after?]
    | cons d p =>
      simp only [after?] at h
      split at h
      · have := ih h; simp; omega
      · exact absurd h (by simp)

theorem length_cutText? {p t a b : Text} (h : cutText? p t = some (a, b)) :
    a.length + p.length + b.length = t.length := by
  induction t generalizing a with
  | nil => simp [cutText?] at h
  | cons c t ih =>
    simp only [cutText?] at h
    split at h
    · rename_i r hr
      have := length_after? hr
      simp only [Option.some.injEq, Prod.mk.injEq] at h
      obtain ⟨rfl, rfl⟩ := h
      simp at this ⊢; omega
    · simp only [Option.map_eq_some_iff, Prod.mk.injEq, Prod.exists] at h
      obtain ⟨a', b', h', rfl, rfl⟩ := h
      have := ih h'
      simp; omega

/-- Every occurrence of `p`, found from left to right, becomes `r`. An empty `p` occurs nowhere. -/
def replaceAll (p r : Text) (t : Text) : Text :=
  if p.isEmpty then t
  else match h : cutText? p t with
    | some (a, b) =>
      have := length_cutText? h
      a ++ r ++ replaceAll p r b
    | none => t
termination_by t.length
decreasing_by
  have : 0 < p.length := by
    cases p with
    | nil => simp_all
    | cons => simp
  omega

/-! ## Order -/

/-- The order by code point: lexicographic, a text before its extensions. -/
def le : Text → Text → Bool
  | [], _ => true
  | _ :: _, [] => false
  | a :: s, b :: t => a.toNat < b.toNat || (a = b && le s t)

/-- The texts in the order by code point. -/
def sorted (ts : List Text) : List Text := ts.mergeSort le

/-- ASCII capitals become small letters. -/
def toLowerAscii (t : Text) : Text := t.map Point.toLowerAscii

/-- The decimal text of a natural number. -/
def ofNat (n : Nat) : Text := (Nat.toDigits 10 n).map Point.ofChar

/-- The decimal text of an integer. -/
def ofInt : Int → Text
  | .ofNat n => ofNat n
  | .negSucc n => Point.ofChar '-' :: ofNat (n + 1)

end Text

end SourceAtlas
