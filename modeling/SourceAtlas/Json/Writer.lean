import SourceAtlas.Json.Basic
import SourceAtlas.Text.Quoted
import SourceAtlas.Decimal.Shortest

/-!
# Writing JSON

Three written forms of a value. The first two are JSON texts of ASCII alone, save that the numbers
that JSON lacks are named.

* `Json.compact`: on one line, with a space after commas and colons;
* `Json.indented`: one item or member a line, two spaces a level;
* `Json.isWritable`: no whole number in the value is too long to be written;
* `Json.shown`: the form for readers, with quoted texts and the constants `None`, `True`, `False`;
* `Json.sortKeys`: the same value with its members in the order of their keys.
-/

namespace SourceAtlas.Json

/-! ## Atoms -/

/-- A UTF-16 unit as an escape. -/
def unitEscape (n : Nat) : Text := "\\u" ++ Text.hex 4 n

/-- A point inside a JSON string. -/
def writePoint (p : Point) : Text :=
  if p = '"' then "\\\""
  else if p = '\\' then "\\\\"
  else if p = '\n' then "\\n"
  else if p = '\r' then "\\r"
  else if p = '\t' then "\\t"
  else if p = '\x0c' then "\\f"
  else if p = '\x08' then "\\b"
  else if 0x20 ≤ p.toNat && p.toNat < 0x7F then [p]
  else if p.toNat < 0x10000 then unitEscape p.toNat
  else
    let n := p.toNat - 0x10000
    unitEscape (0xD800 + n / 0x400) ++ unitEscape (0xDC00 + n % 0x400)

/-- A text as a JSON string. -/
def writeText (t : Text) : Text := "\"" ++ t.flatMap writePoint ++ "\""

/-- A floating point number, the special ones by name. -/
def writeFloat : Binary64 → Text
  | .nan => "NaN"
  | .infinite negative => if negative then "-Infinity" else "Infinity"
  | x => x.text

/-! ## On one line -/

mutual

/-- The value on one line. -/
def compact : Json → Text
  | null => "null"
  | bool b => if b then "true" else "false"
  | int n => Text.ofInt n
  | float x => writeFloat x
  | text t => writeText t
  | list items => "[" ++ compactItems items ++ "]"
  | object members => "\x7b" ++ compactMembers members ++ "\x7d"

def compactItems : List Json → Text
  | [] => []
  | [v] => compact v
  | v :: vs => compact v ++ ", " ++ compactItems vs

def compactMembers : List (Text × Json) → Text
  | [] => []
  | [(k, v)] => writeText k ++ ": " ++ compact v
  | (k, v) :: ms => writeText k ++ ": " ++ compact v ++ ", " ++ compactMembers ms

end

/-! ## One item a line -/

/-- A new line at nesting depth `depth`. -/
def newline (depth : Nat) : Text := '\n' :: List.replicate (2 * depth) ' '

mutual

/-- The value at nesting depth `depth`. -/
def indentedAt (depth : Nat) : Json → Text
  | null => "null"
  | bool b => if b then "true" else "false"
  | int n => Text.ofInt n
  | float x => writeFloat x
  | text t => writeText t
  | list [] => "[]"
  | list (v :: vs) => "[" ++ indentedItems (depth + 1) (v :: vs) ++ newline depth ++ "]"
  | object [] => "\x7b\x7d"
  | object (m :: ms) => "\x7b" ++ indentedMembers (depth + 1) (m :: ms) ++ newline depth ++ "\x7d"

def indentedItems (depth : Nat) : List Json → Text
  | [] => []
  | [v] => newline depth ++ indentedAt depth v
  | v :: vs => newline depth ++ indentedAt depth v ++ "," ++ indentedItems depth vs

def indentedMembers (depth : Nat) : List (Text × Json) → Text
  | [] => []
  | [(k, v)] => newline depth ++ writeText k ++ ": " ++ indentedAt depth v
  | (k, v) :: ms =>
    newline depth ++ writeText k ++ ": " ++ indentedAt depth v ++ "," ++ indentedMembers depth ms

end

/-- The value with one item or member a line. -/
def indented (v : Json) : Text := indentedAt 0 v

/-! ## Long numbers -/

mutual

/-- No whole number in the value has more digits than are written. -/
def isWritable : Json → Bool
  | int n => (Nat.toDigits 10 n.natAbs).length ≤ maxDigits
  | list items => areWritable items
  | object members => membersWritable members
  | _ => true

def areWritable : List Json → Bool
  | [] => true
  | v :: vs => isWritable v && areWritable vs

def membersWritable : List (Text × Json) → Bool
  | [] => true
  | (_, v) :: ms => isWritable v && membersWritable ms

end

/-- The wording for a whole number that is too long to be written. -/
def unwritableMessage : Text :=
  "Exceeds the limit (" ++ Text.ofNat maxDigits ++
    " digits) for integer string conversion; use sys.set_int_max_str_digits() to increase the limit"

/-! ## For readers -/

mutual

/-- The value for readers, texts in quotes. -/
def literal : Json → Text
  | null => "None"
  | bool b => if b then "True" else "False"
  | int n => Text.ofInt n
  | float x => x.text
  | text t => t.quoted
  | list items => "[" ++ literalItems items ++ "]"
  | object members => "\x7b" ++ literalMembers members ++ "\x7d"

def literalItems : List Json → Text
  | [] => []
  | [v] => literal v
  | v :: vs => literal v ++ ", " ++ literalItems vs

def literalMembers : List (Text × Json) → Text
  | [] => []
  | [(k, v)] => k.quoted ++ ": " ++ literal v
  | (k, v) :: ms => k.quoted ++ ": " ++ literal v ++ ", " ++ literalMembers ms

end

/-- The value for readers: a text as it is, any other value by its literal. -/
def shown : Json → Text
  | text t => t
  | v => literal v

/-! ## Order of members -/

mutual

/-- The value with the members of each object in the order of their keys. -/
def sortKeys : Json → Json
  | list items => list (sortItems items)
  | object members => object ((sortMembers members).mergeSort fun a b => Text.le a.1 b.1)
  | v => v

def sortItems : List Json → List Json
  | [] => []
  | v :: vs => sortKeys v :: sortItems vs

def sortMembers : List (Text × Json) → List (Text × Json)
  | [] => []
  | (k, v) :: ms => (k, sortKeys v) :: sortMembers ms

end

end SourceAtlas.Json
