import SourceAtlas.Json.Basic

/-!
# Reading JSON

A reader of JSON texts that takes the three numbers `NaN`, `Infinity` and `-Infinity`, reads whole
numbers exactly, and joins the halves of surrogate pairs that are spelled by two escapes.

* `Json.Fault`: what is wrong and how many points were left;
* `Json.Reader.value`: the value at the start of a text, and what follows it;
* `Json.readFront`: the value at the front of a text, with nothing skipped before it;
* `Json.read`: the value of a whole text;
* `Json.ReadError.message`: the fault with line, column and place.
-/

namespace SourceAtlas.Json

/-! ## Faults -/

/-- Ways in which a text is no JSON text. -/
inductive FaultKind where
  | expectedValue
  | expectedKey
  | expectedColon
  | expectedComma
  | unterminatedString
  | controlCharacter
  | unknownEscape
  | badUnicodeEscape
  | extraData
  | byteOrderMark
deriving DecidableEq

/-- A fault before the last `left` points of a text. -/
structure Fault where
  kind : FaultKind
  left : Nat
deriving DecidableEq

/-- Why a text has no value: it is no JSON text, or it holds a whole number of too many digits. -/
inductive ReadError where
  | malformed (fault : Fault)
  | tooManyDigits (count : Nat)
deriving DecidableEq

namespace Reader

def fault {α : Type} (kind : FaultKind) (rest : Text) : Except ReadError α :=
  .error (.malformed ⟨kind, rest.length⟩)

/-- JSON's white space. -/
def isSpace (c : Point) : Bool := c = ' ' || c = '\t' || c = '\n' || c = '\r'

def skipSpace (t : Text) : Text := t.dropWhile isSpace

/-! ## Strings -/

/-- The point that the letter after a backslash stands for. -/
def escaped? (c : Point) : Option Point :=
  if c = '"' ∨ c = '\\' ∨ c = '/' then some c
  else if c = 'b' then some '\x08'
  else if c = 'f' then some '\x0c'
  else if c = 'n' then some '\n'
  else if c = 'r' then some '\r'
  else if c = 't' then some '\t'
  else none

/-- The number that four hexadecimal digits spell. -/
def hex4? (a b c d : Point) : Option Nat := do
  return (((← a.hexValue?) * 16 + (← b.hexValue?)) * 16 + (← c.hexValue?)) * 16 + (← d.hexValue?)

def isHigh (n : Nat) : Bool := 0xD800 ≤ n && n < 0xDC00

def isLow (n : Nat) : Bool := 0xDC00 ≤ n && n < 0xE000

/-- The point that two halves of a surrogate pair stand for. -/
def joinPair (high low : Nat) : Point :=
  Point.ofNat (0x10000 + (high - 0xD800) * 0x400 + (low - 0xDC00))

/-- What follows the escape of a high half: the escape of a low half, a broken escape, or
neither. -/
inductive SecondHalf where
  | low (n : Nat)
  | broken (left : Nat)
  | absent

/-- What follows the escape of a high half. The escape of a low half counts only when the string
goes on after it. -/
def secondHalf (t : Text) : SecondHalf :=
  match t with
  | x :: u :: l₁ :: l₂ :: l₃ :: l₄ :: _ :: r =>
    if x = '\\' ∧ u = 'u' then
      match hex4? l₁ l₂ l₃ l₄ with
      | none => .broken (r.length + 6)
      | some m => if isLow m then .low m else .absent
    else .absent
  | _ => .absent

/-- The content of a string up to its closing quote, and what follows. `opened` counts the points
from the opening quote to the end of the text. -/
def stringBody (opened : Nat) : Text → Except ReadError (Text × Text)
  | [] => .error (.malformed ⟨.unterminatedString, opened⟩)
  | c :: t =>
    if c = '"' then .ok ([], t)
    else if c = '\\' then
      match t with
      | [] => .error (.malformed ⟨.unterminatedString, opened⟩)
      | e :: t =>
        if e = 'u' then
          match t with
          | h₁ :: h₂ :: h₃ :: h₄ :: t =>
            match (if t.isEmpty then none else hex4? h₁ h₂ h₃ h₄) with
            | none => .error (.malformed ⟨.badUnicodeEscape, t.length + 5⟩)
            | some n =>
              match (if isHigh n then secondHalf t else .absent) with
              | .low m =>
                match t with
                | _ :: _ :: _ :: _ :: _ :: _ :: t => do
                  let (s, rest) ← stringBody opened t
                  return (joinPair n m :: s, rest)
                | _ => .error (.malformed ⟨.badUnicodeEscape, t.length⟩)
              | .broken left => .error (.malformed ⟨.badUnicodeEscape, left⟩)
              | .absent => do
                let (s, rest) ← stringBody opened t
                return (Point.ofNat n :: s, rest)
          | _ => fault .badUnicodeEscape (e :: t)
        else
          match escaped? e with
          | none => fault .unknownEscape (c :: e :: t)
          | some d => do
            let (s, rest) ← stringBody opened t
            return (d :: s, rest)
    else if c.toNat < 0x20 then fault .controlCharacter (c :: t)
    else do
      let (s, rest) ← stringBody opened t
      return (c :: s, rest)

/-! ## Numbers -/

/-- The value of a run of decimal digits. -/
def digitsValue (ds : Text) : Nat := ds.foldl (fun n d => n * 10 + (d.toNat - 48)) 0

/-- The leading digits of a text and the rest. -/
def takeDigits (t : Text) : Text × Text := (t.takeWhile Point.isDigit, t.dropWhile Point.isDigit)

/-- The whole part of a number: zero alone, or digits that do not start with zero. -/
def wholePart? (t : Text) : Option (Text × Text) :=
  match t with
  | c :: r => if c = '0' then some ([c], r) else if c.isDigit then some (takeDigits t) else none
  | [] => none

/-- A point and at least one digit. -/
def fraction? (t : Text) : Option (Text × Text) :=
  match t with
  | c :: r =>
    let (ds, rest) := takeDigits r
    if c = '.' ∧ ds ≠ [] then some (ds, rest) else none
  | [] => none

/-- The letter, perhaps a sign, and at least one digit. -/
def exponent? (t : Text) : Option (Int × Text) :=
  match t with
  | c :: r =>
    if c = 'e' ∨ c = 'E' then
      let (negative, r) :=
        match r with
        | s :: r' => if s = '-' then (true, r') else if s = '+' then (false, r') else (false, r)
        | [] => (false, r)
      let (ds, rest) := takeDigits r
      if ds = [] then none
      else some (if negative then -(digitsValue ds : Int) else digitsValue ds, rest)
    else none
  | [] => none

/-- A number without its sign. -/
def unsignedNumber? (negative : Bool) (t : Text) : Option (Except ReadError (Json × Text)) :=
  (wholePart? t).map fun (whole, r) =>
    let (decimals, r₁) := (fraction? r).getD ([], r)
    match exponent? r₁ with
    | some (e, r₂) =>
      .ok (.float (.ofDecimal negative (digitsValue (whole ++ decimals)) (e - decimals.length)), r₂)
    | none =>
      if decimals = [] then
        if maxDigits < whole.length then .error (.tooManyDigits whole.length)
        else .ok (.int (if negative then -(digitsValue whole : Int) else digitsValue whole), r)
      else
        .ok (.float (.ofDecimal negative (digitsValue (whole ++ decimals)) (-decimals.length)), r₁)

/-- A value that is one word or one number. -/
def atom (t : Text) : Except ReadError (Json × Text) :=
  let word (w : Text) (v : Json) (otherwise : Except ReadError (Json × Text)) :=
    match Text.after? t w with
    | some r => .ok (v, r)
    | none => otherwise
  word "null" .null <| word "true" (.bool true) <| word "false" (.bool false) <|
  word "NaN" (.float .nan) <| word "Infinity" (.float (.infinite false)) <|
  word "-Infinity" (.float (.infinite true)) <|
    match t with
    | c :: r =>
      match if c = '-' then unsignedNumber? true r else unsignedNumber? false t with
      | some result => result
      | none => fault .expectedValue t
    | [] => fault .expectedValue t

/-! ## Values -/

mutual

/-- The value at the start of a text. The first argument bounds the steps. -/
def value : Nat → Text → Except ReadError (Json × Text)
  | 0, t => fault .expectedValue t
  | n + 1, t =>
    match t with
    | [] => fault .expectedValue []
    | c :: r =>
      if c = '"' then do
        let (s, rest) ← stringBody (r.length + 1) r
        return (.text s, rest)
      else if c = '{' then
        match skipSpace r with
        | [] => fault .expectedKey []
        | d :: r' =>
          if d = '}' then .ok (.object [], r')
          else do
            let (ms, rest) ← members n (d :: r')
            return (ofMembers ms, rest)
      else if c = '[' then
        match skipSpace r with
        | [] => fault .expectedValue []
        | d :: r' =>
          if d = ']' then .ok (.list [], r')
          else do
            let (vs, rest) ← items n (d :: r')
            return (.list vs, rest)
      else atom t

/-- The items from the first one on, up to the closing bracket. -/
def items : Nat → Text → Except ReadError (List Json × Text)
  | 0, t => fault .expectedValue t
  | n + 1, t => do
    let (v, r) ← value n t
    match skipSpace r with
    | [] => fault .expectedComma []
    | c :: r' =>
      if c = ']' then return ([v], r')
      else if c = ',' then do
        let (vs, rest) ← items n (skipSpace r')
        return (v :: vs, rest)
      else fault .expectedComma (c :: r')

/-- The members from the first one on, up to the closing brace. -/
def members : Nat → Text → Except ReadError (List (Text × Json) × Text)
  | 0, t => fault .expectedKey t
  | n + 1, t =>
    match t with
    | [] => fault .expectedKey []
    | c :: r =>
      if c = '"' then do
        let (key, r₁) ← stringBody (r.length + 1) r
        match skipSpace r₁ with
        | [] => fault .expectedColon []
        | d :: r₂ =>
          if d = ':' then do
            let (v, r₃) ← value n (skipSpace r₂)
            match skipSpace r₃ with
            | [] => fault .expectedComma []
            | e :: r₄ =>
              if e = '}' then return ([(key, v)], r₄)
              else if e = ',' then do
                let (ms, rest) ← members n (skipSpace r₄)
                return ((key, v) :: ms, rest)
              else fault .expectedComma (e :: r₄)
          else fault .expectedColon (d :: r₂)
      else fault .expectedKey (c :: r)

end

end Reader

/-- The value that starts a text, and what follows it. -/
def readFront (t : Text) : Except ReadError (Json × Text) := Reader.value (2 * t.length + 1) t

/-- The value of a text with nothing but white space around it. -/
def read (t : Text) : Except ReadError Json :=
  match t with
  | c :: _ =>
    if c = '\uFEFF' then Reader.fault .byteOrderMark t
    else do
      let (v, rest) ← readFront (Reader.skipSpace t)
      match Reader.skipSpace rest with
      | [] => return v
      | d :: r => Reader.fault .extraData (d :: r)
  | [] => Reader.fault .expectedValue t

/-! ## Wording of faults -/

def FaultKind.message : FaultKind → Text
  | .expectedValue => "Expecting value"
  | .expectedKey => "Expecting property name enclosed in double quotes"
  | .expectedColon => "Expecting ':' delimiter"
  | .expectedComma => "Expecting ',' delimiter"
  | .unterminatedString => "Unterminated string starting at"
  | .controlCharacter => "Invalid control character at"
  | .unknownEscape => "Invalid \\escape"
  | .badUnicodeEscape => "Invalid \\uXXXX escape"
  | .extraData => "Extra data"
  | .byteOrderMark => "Unexpected UTF-8 BOM (decode using utf-8-sig)"

/-- The fault in words. Line and column count from one, the place in the text from zero. -/
def Fault.message (doc : Text) (f : Fault) : Text :=
  let before := doc.take (doc.length - f.left)
  let line := Text.countOf '\n' before + 1
  let column := (before.reverse.takeWhile fun c : Point => c ≠ '\n').length + 1
  f.kind.message ++ ": line " ++ Text.ofNat line ++ " column " ++ Text.ofNat column ++ " (char " ++
    Text.ofNat before.length ++ ")"

/-- The wording for a whole number of `count` digits, more than are read. -/
def tooManyDigitsMessage (count : Nat) : Text :=
  "Exceeds the limit (" ++ Text.ofNat maxDigits ++
    " digits) for integer string conversion: value has " ++ Text.ofNat count ++
    " digits; use sys.set_int_max_str_digits() to increase the limit"

/-- The error in words, for the text it was found in. -/
def ReadError.message (doc : Text) : ReadError → Text
  | .malformed f => f.message doc
  | .tooManyDigits n => tooManyDigitsMessage n

end SourceAtlas.Json
