import SourceAtlas.Grammar

/-!
# Lexemes of TypeScript

* `blankSize`, `skipTrivia`: blanks and comments between lexemes;
* `wordEnd?`, `identifier`, `keyword`, `number`, `regexPattern`, `stringFragment`, `templateChars`
  and other scans;
* `endsHere`: the places at which a semicolon may be left out.
-/

namespace SourceAtlas.TypeScript

open Grammar (Source Scan octet)

/-! ## Steps over octets -/

/-- The offset of the first octet from `pos` on that is not in a class. -/
def skipWhile (p : UInt8 → Bool) (src : Source) (pos : Nat) : Nat :=
  if pos < src.size then
    if p (octet src pos) then skipWhile p src (pos + 1) else pos
  else pos
termination_by src.size - pos

/-- The octets of an ASCII text. -/
def ascii (s : String) : List UInt8 := s.toList.map fun c => c.toNat.toUInt8

/-- The octets `bs` stand at an offset. -/
def standsAt (src : Source) : List UInt8 → Nat → Bool
  | [], _ => true
  | b :: bs, pos => pos < src.size && octet src pos = b && standsAt src bs (pos + 1)

/-- The offset of the first place from `pos` on where `bs` stands. -/
def find? (src : Source) (bs : List UInt8) (pos : Nat) : Option Nat :=
  if pos < src.size then
    if standsAt src bs pos then some pos else find? src bs (pos + 1)
  else none
termination_by src.size - pos

def isDigit (b : UInt8) : Bool := 48 ≤ b && b ≤ 57

def isLetter (b : UInt8) : Bool := (65 ≤ b && b ≤ 90) || (97 ≤ b && b ≤ 122)

/-! ## Blanks and comments -/

/-- The number of octets of the blank at an offset, zero if there is none. -/
def blankSize (src : Source) (pos : Nat) : Nat :=
  let a := octet src pos
  let b := octet src (pos + 1)
  let c := octet src (pos + 2)
  if pos ≥ src.size then 0
  else if a = 32 || (9 ≤ a && a ≤ 13) then 1
  else if a = 0xC2 && b = 0xA0 then 2
  else if a = 0xE1 && b = 0x9A && c = 0x80 then 3
  else if a = 0xE2 && b = 0x80 &&
      ((0x80 ≤ c && c ≤ 0x8B) || c = 0xA8 || c = 0xA9 || c = 0xAF) then 3
  else if a = 0xE2 && b = 0x81 && (c = 0x9F || c = 0xA0) then 3
  else if a = 0xE3 && b = 0x80 && c = 0x80 then 3
  else if a = 0xEF && b = 0xBB && c = 0xBF then 3
  else 0

/-- A line separator or a paragraph separator stands at an offset. -/
def isSeparator (src : Source) (pos : Nat) : Bool :=
  octet src pos = 0xE2 && octet src (pos + 1) = 0x80 &&
    (octet src (pos + 2) = 0xA8 || octet src (pos + 2) = 0xA9)

/-- The end of the line at an offset. -/
def lineEnd (src : Source) (pos : Nat) : Nat :=
  if pos < src.size then
    if octet src pos = 10 || octet src pos = 13 || isSeparator src pos then pos
    else lineEnd src (pos + 1)
  else pos
termination_by src.size - pos

/-- The end of the comment at an offset. -/
def comment : Scan := fun src pos =>
  if standsAt src (ascii "//") pos then some (lineEnd src pos)
  else if standsAt src (ascii "/*") pos then (find? src (ascii "*/") (pos + 2)).map (· + 2)
  else none

/-- The comments, the offset after them, and whether a line feed stands among the blanks. The first
argument bounds the count of blanks and comments. -/
def trivia : Nat → Source → Nat → List Tree × Nat × Bool
  | 0, _, pos => ([], pos, false)
  | n + 1, src, pos =>
    match blankSize src pos with
    | 0 =>
      match comment src pos with
      | none => ([], pos, false)
      | some stop =>
        let (cs, next, line) := trivia n src stop
        (⟨"comment", true, none, pos, stop, []⟩ :: cs, next, line)
    | k + 1 =>
      let (cs, next, line) := trivia n src (pos + k + 1)
      (cs, next, line || octet src pos = 10)

/-- The comments from an offset on, and the offset of what follows them. -/
def skipTrivia (src : Source) (pos : Nat) : List Tree × Nat :=
  let (cs, next, _) := trivia (src.size - pos + 1) src pos
  (cs, next)

/-- The offset of the next lexeme. -/
def next (src : Source) (pos : Nat) : Nat := (skipTrivia src pos).2

/-! ## Words -/

/-- An octet inside identifiers. Every octet of a point beyond ASCII counts, blanks apart. -/
def isWordOctet (b : UInt8) : Bool :=
  isLetter b || isDigit b || b = 95 || b = 36 || b = 92 || b ≥ 127

def isWordAt (src : Source) (pos : Nat) : Bool :=
  pos < src.size && isWordOctet (octet src pos) && blankSize src pos = 0

/-- The end of the run of word octets at an offset. A brace after `\u` belongs to the word. -/
def wordRunEnd (src : Source) (pos : Nat) : Nat :=
  if pos < src.size then
    if isWordAt src pos then wordRunEnd src (pos + 1)
    else if octet src pos = 123 && 2 ≤ pos && octet src (pos - 1) = 117 &&
        octet src (pos - 2) = 92 then
      wordRunEnd src (pos + 1)
    else if octet src pos = 125 && (octet src (pos - 1) |> fun b => isDigit b || isLetter b) &&
        opensEscape (pos - 1) 8 then wordRunEnd src (pos + 1)
    else pos
  else pos
termination_by src.size - pos
where
  /-- The hexadecimal digits before an offset follow the opening of an escape. -/
  opensEscape (i : Nat) : Nat → Bool
    | 0 => false
    | n + 1 =>
      let b := octet src i
      if isDigit b || (65 ≤ b && b ≤ 70) || (97 ≤ b && b ≤ 102) then opensEscape (i - 1) n
      else b = 123 && 2 ≤ i && octet src (i - 1) = 117 && octet src (i - 2) = 92

/-- The end of the word at an offset. -/
def wordEnd? : Scan := fun src pos =>
  if isWordAt src pos && !isDigit (octet src pos) then some (wordRunEnd src pos) else none

/-- Words that name nothing in an expression. -/
def reservedWords : List String :=
  ["break", "case", "catch", "class", "const", "continue", "debugger", "default", "delete", "do",
    "else", "enum", "extends", "finally", "for", "function", "if", "import", "in", "instanceof",
    "return", "super", "switch", "this", "throw", "try", "typeof", "var", "void", "while", "with",
    "null", "true", "false"]

/-- The word between two offsets is one of a list. -/
def isOneOf (words : List String) (src : Source) (start stop : Nat) : Bool :=
  words.any fun w => w.utf8ByteSize = stop - start && standsAt src (ascii w) start

/-- A word that is not reserved. -/
def identifier : Scan := fun src pos =>
  match wordEnd? src pos with
  | some stop => if isOneOf reservedWords src pos stop then none else some stop
  | none => none

/-- One given word. -/
def keyword (w : String) : Scan := fun src pos =>
  match wordEnd? src pos with
  | some stop => if isOneOf [w] src pos stop then some stop else none
  | none => none

/-- A name after a number sign. -/
def privateName : Scan := fun src pos =>
  if pos < src.size && octet src pos = 35 then wordEnd? src (pos + 1) else none

/-- A mark that is not the start of one of `longer`. -/
def mark (s : String) (longer : List String) : Scan := fun src pos =>
  let stop := pos + s.utf8ByteSize
  if standsAt src (ascii s) pos && !longer.any (fun t => standsAt src (ascii t) stop) then some stop
  else none

/-! ## Numbers -/

def isHexOctet (b : UInt8) : Bool :=
  isDigit b || (65 ≤ b && b ≤ 70) || (97 ≤ b && b ≤ 102) || b = 95

/-- The end of an exponent at an offset. -/
def exponentEnd (src : Source) (pos : Nat) : Nat :=
  if octet src pos = 101 || octet src pos = 69 then
    let sign := octet src (pos + 1)
    let start := if sign = 43 || sign = 45 then pos + 2 else pos + 1
    if isDigit (octet src start) then skipWhile (fun b => isDigit b || b = 95) src start else pos
  else pos

/-- A number. -/
def number : Scan := fun src pos =>
  let a := octet src pos
  let b := octet src (pos + 1)
  let digits := skipWhile fun b => isDigit b || b = 95
  let big (stop : Nat) : Nat := if octet src stop = 110 then stop + 1 else stop
  if isDigit a then
    if a = 48 && [120, 88, 98, 66, 111, 79].contains b then
      some (big (skipWhile isHexOctet src (pos + 2)))
    else
      let whole := digits src pos
      if octet src whole = 46 then some (exponentEnd src (digits src (whole + 1)))
      else if octet src whole = 110 then some (whole + 1)
      else some (exponentEnd src whole)
  else if a = 46 && isDigit b then some (exponentEnd src (digits src (pos + 1)))
  else none

/-! ## Strings, templates and regular expressions -/

/-- The octets of a string between escapes, up to the quote. -/
def stringFragment (quote : UInt8) : Scan := fun src pos =>
  let stop := skipWhile (fun b => b ≠ quote && b ≠ 92 && b ≠ 10 && b ≠ 13) src pos
  if pos < stop then some stop else none

/-- A backslash and what it escapes. -/
def escape : Scan := fun src pos =>
  if pos + 1 < src.size && octet src pos = 92 then
    let c := octet src (pos + 1)
    let hex := fun b => isHexOctet b && b ≠ 95
    if c = 120 then some (min (pos + 4) src.size)
    else if c = 117 then
      if octet src (pos + 2) = 123 then some (skipWhile hex src (pos + 3) + 1)
      else some (min (pos + 6) src.size)
    else if 48 ≤ c && c ≤ 55 then
      some (min (pos + 4) (skipWhile (fun b => 48 ≤ b && b ≤ 55) src (pos + 1)))
    else if c = 13 && octet src (pos + 2) = 10 then some (pos + 3)
    else if c < 128 then some (pos + 2)
    else some (skipWhile (fun b => 128 ≤ b && b < 192) src (pos + 2))
  else none

/-- The end of the text of a template, up to its closing mark, an escape or a substitution. -/
def templateEnd (src : Source) (pos : Nat) : Nat :=
  if pos < src.size then
    let b := octet src pos
    if b = 96 || b = 92 then pos
    else if b = 36 && octet src (pos + 1) = 123 then pos
    else templateEnd src (pos + 1)
  else pos
termination_by src.size - pos

def templateChars : Scan := fun src pos =>
  let stop := templateEnd src pos
  if pos < stop then some stop else none

/-- The end of the pattern of a regular expression, whether or not inside a class of characters. -/
def patternEnd? (src : Source) (inClass : Bool) (pos : Nat) : Option Nat :=
  if pos < src.size then
    let b := octet src pos
    if b = 10 then none
    else if b = 92 then patternEnd? src inClass (pos + 2)
    else if b = 91 then patternEnd? src true (pos + 1)
    else if b = 93 then patternEnd? src false (pos + 1)
    else if b = 47 && !inClass then some pos
    else patternEnd? src inClass (pos + 1)
  else none
termination_by src.size - pos

def regexPattern : Scan := fun src pos =>
  match patternEnd? src false pos with
  | some stop => if pos < stop then some stop else none
  | none => none

def regexFlags : Scan := fun src pos =>
  let stop := skipWhile (fun b => 97 ≤ b && b ≤ 122) src pos
  if pos < stop then some stop else none

/-! ## Semicolons left out -/

/-- The word `in` or `instanceof` does not stand at an offset. -/
def noOperatorWord (src : Source) (pos : Nat) : Bool :=
  if octet src (pos + 1) ≠ 110 then true
  else if !isLetter (octet src (pos + 2)) then false
  else if !standsAt src (ascii "stanceof") (pos + 2) then true
  else isLetter (octet src (pos + 10))

/-- The statement or member before an offset may end there without a semicolon: at the end of the
source, before a closing brace, or at a line end unless what follows goes on with it.
`inExpression`: an operator could follow, so that a bracket goes on. `atSignature`: the body of a
function could follow. -/
def endsHere (inExpression atSignature : Bool) (src : Source) (pos : Nat) : Bool :=
  let (_, start, line) := trivia (src.size - pos + 1) src pos
  if start ≥ src.size then true
  else
    let c := octet src start
    let d := octet src (start + 1)
    if !line then
      if c = 125 then
        let after := skipWhile (fun b => b = 32 || (9 ≤ b && b ≤ 13)) src (start + 1)
        octet src after ≠ 58 || inExpression
      else false
    else if (ascii ",.;*%><=?^|&/:").contains c then false
    else if c = 123 then !atSignature
    else if c = 40 || c = 91 then !inExpression
    else if c = 43 || c = 45 then d = c
    else if c = 33 then d ≠ 61
    else if c = 105 then noOperatorWord src start
    else true

/-! ## What may follow -/

/-- A name of a property, or a part that stands before one, follows. -/
def beforeName (src : Source) (pos : Nat) : Bool :=
  let i := next src pos
  let c := octet src i
  isWordAt src i || c = 34 || c = 39 || c = 91 || c = 35 || c = 42

/-- A name or a destructuring pattern follows. -/
def beforePattern (src : Source) (pos : Nat) : Bool :=
  let i := next src pos
  isWordAt src i || octet src i = 91 || octet src i = 123

/-- What follows a list of type arguments ends the expression or goes on after it, so that the list
does not consist of two comparisons. -/
def endsInstantiation (src : Source) (pos : Nat) : Bool :=
  let i := next src pos
  let c := octet src i
  i ≥ src.size || (ascii ";)],:\x7d.=|&?").contains c || c = 123 || endsHere true false src pos ||
    standsAt src (ascii "!=") i || (keyword "implements" src i).isSome ||
    (keyword "as" src i).isSome

/-- The mark of a conditional expression: not before a colon, comma or parenthesis. -/
def ternaryMark : Scan := fun src pos =>
  if octet src pos = 63 && pos < src.size then
    let c := octet src (pos + 1)
    let after := octet src (skipWhile (fun b => b = 32 || (9 ≤ b && b ≤ 13)) src (pos + 1))
    if c = 63 then none
    else if c = 46 && !isDigit (octet src (pos + 2)) then none
    else if after = 58 || after = 41 || after = 44 then none
    else some (pos + 1)
  else none

/-- The mark of optional access. -/
def optionalMark : Scan := fun src pos =>
  if standsAt src (ascii "?.") pos && !isDigit (octet src (pos + 2)) then some (pos + 2) else none

end SourceAtlas.TypeScript
