import SourceAtlas.Text.Blank

/-!
# Assignments of variables

The text form of environment variables: a name and a value on a line, the value perhaps in quotes,
with comments, and with references to other variables.

* `Assignment`: a name, with a value if there is one;
* `Assignment.Reader`: the parts of a line, with what follows them;
* `Assignment.read`: all assignments of a text; lines that are none are passed over;
* `Assignment.expand`: a value with its references replaced;
* `Assignment.resolve`: the values of all names.
-/

namespace SourceAtlas

/-- A name, with a value if there is one. -/
structure Assignment where
  name : Text
  value : Option Text
deriving DecidableEq

namespace Assignment.Reader

/-! ## Parts of a line -/

/-- An end of a line. -/
def endsLine (c : Point) : Bool := c = '\n' || c = '\r'

/-- White space on a line. -/
def isSpace (c : Point) : Bool := c.isBlank && !endsLine c

def skipSpace (t : Text) : Text := t.dropWhile isSpace

/-- What follows a line. -/
def skipLine (t : Text) : Text :=
  match t.dropWhile fun c => !endsLine c with
  | [] => []
  | c :: r =>
    if c = '\r' then
      match r with
      | d :: r' => if d = '\n' then r' else r
      | [] => []
    else r

/-- What follows the word that may stand before a name. -/
def skipExport (t : Text) : Text :=
  match Text.after? t "export" with
  | some (c :: r) => if isSpace c then skipSpace r else t
  | _ => t

/-- A name in quotes or without them. -/
def name? (t : Text) : Option (Text × Text) :=
  match t with
  | c :: r =>
    if c = '\'' then
      match Text.cut? '\'' r with
      | some (n, rest) => if n.isEmpty then none else some (n, rest)
      | none => none
    else
      let ends (c : Point) : Bool := c = '=' || c = '#' || c.isBlank
      let n := t.takeWhile fun c => !ends c
      if n.isEmpty then none else some (n, t.drop n.length)
  | [] => none

/-- What the letter after a backslash stands for between double quotes. -/
def escaped? (c : Point) : Option Point :=
  if c = '\\' ∨ c = '\'' ∨ c = '"' then some c
  else if c = 'a' then some '\x07'
  else if c = 'b' then some '\x08'
  else if c = 'f' then some '\x0c'
  else if c = 'n' then some '\n'
  else if c = 'r' then some '\r'
  else if c = 't' then some '\t'
  else if c = 'v' then some '\x0b'
  else none

/-- The points up to a closing quote; a backslash may stand before a quote that does not close. If no
other quote closes, the last of those does, and its backslash belongs to the value. -/
def quoted? (quote : Point) : Text → Option (Text × Text)
  | [] => none
  | [c] => if c = quote then some ([], []) else none
  | c :: d :: t =>
    if c = quote then some ([], d :: t)
    else if c = '\\' ∧ d = quote then
      match quoted? quote t with
      | some (v, rest) => some (c :: d :: v, rest)
      | none => some ([c], t)
    else (quoted? quote (d :: t)).map fun (v, rest) => (c :: v, rest)

/-- The value with the escapes of a set of points replaced. -/
def unescape (escape : Point → Option Point) : Text → Text
  | [] => []
  | [c] => [c]
  | c :: d :: t =>
    if c = '\\' then
      match escape d with
      | some e => e :: unescape escape t
      | none => c :: unescape escape (d :: t)
    else c :: unescape escape (d :: t)

/-- The text up to the white space before the first number sign that follows white space. -/
def withoutComment : Text → Text
  | [] => []
  | c :: t =>
    if c.isBlank ∧ ((c :: t).dropWhile Point.isBlank).head? = some (Point.ofChar '#') then []
    else c :: withoutComment t

/-- A value without quotes. -/
def plainValue (line : Text) : Text := (withoutComment line).trimEnd

/-- A value, and what follows it. -/
def value? (t : Text) : Option (Text × Text) :=
  match t with
  | [] => some ([], [])
  | c :: r =>
    if c = '\'' then
      (quoted? '\'' r).map fun (v, rest) =>
        (unescape (fun d => if d = '\\' ∨ d = '\'' then some d else none) v, rest)
    else if c = '"' then (quoted? '"' r).map fun (v, rest) => (unescape escaped? v, rest)
    else
      let line := t.takeWhile fun c => !endsLine c
      some (plainValue line, t.drop line.length)

/-- What follows the end of a line, which may hold a comment. -/
def lineEnd? (t : Text) : Option Text :=
  let r := skipSpace t
  let r := if r.head? = some (Point.ofChar '#') then r.dropWhile fun c => !endsLine c else r
  match r with
  | [] => some []
  | c :: _ => if endsLine c then some (skipLine r) else none

/-- The assignment at the start of a text, if there is one, and what follows its line. -/
def line (t : Text) : Option Assignment × Text :=
  let t := skipExport t
  if t.head? = some (Point.ofChar '#') then (none, skipLine t)
  else match name? t with
    | none => (none, skipLine t)
    | some (name, r) =>
      let r := skipSpace r
      match r with
      | c :: r' =>
        if c = '=' then
          let start := skipSpace r'
          match value? start with
          | none => (none, skipLine start)
          | some (value, rest) =>
            match lineEnd? rest with
            | some rest => (some ⟨name, some value⟩, rest)
            | none => (none, skipLine rest)
        else match lineEnd? r with
          | some rest => (some ⟨name, none⟩, rest)
          | none => (none, skipLine r)
      | [] => (some ⟨name, none⟩, [])

/-- The assignments of a text. The first argument bounds the number of lines. -/
def lines : Nat → Text → List Assignment
  | 0, _ => []
  | n + 1, t =>
    match t.trimStart with
    | [] => []
    | c :: r =>
      let (assignment, rest) := line (c :: r)
      assignment.toList ++ lines n rest

end Assignment.Reader

namespace Assignment

/-- The assignments of a text. -/
def read (t : Text) : List Assignment := Reader.lines (t.length + 1) t

/-! ## References -/

/-- The name and the default of a reference, and what follows it, after the opening brace. -/
def reference? (t : Text) : Option (Text × Text × Text) :=
  let name := t.takeWhile fun c : Point => !(c = '}' || c = ':')
  let r := t.drop name.length
  match Text.after? r "\x7d" with
  | some rest => some (name, [], rest)
  | none => do
    let (default, rest) ← Text.cut? '}' (← Text.after? r ":-")
    return (name, default, rest)

/-- A value with each reference replaced by the value of its name, or else by its default. A name
without a value counts as empty. The first argument bounds the steps. -/
def expandWithin (lookup : Text → Option (Option Text)) : Nat → Text → Text
  | 0, t => t
  | _ + 1, [] => []
  | n + 1, c :: t =>
    match (Text.after? (c :: t) "$\x7b").bind reference? with
    | some (name, default, rest) =>
      (match lookup name with
        | some value => value.getD []
        | none => default) ++ expandWithin lookup n rest
    | none => c :: expandWithin lookup n t

/-- A value with its references replaced. -/
def expand (lookup : Text → Option (Option Text)) (t : Text) : Text :=
  expandWithin lookup t.length t

/-- The values of all names, the later of two assignments of a name winning. References are to
earlier names, or else to variables of the environment. -/
def resolve (environment : List (Text × Text)) (as : List Assignment) : List (Text × Option Text) :=
  as.foldl (fun known a =>
    let lookup (name : Text) : Option (Option Text) :=
      ((known.reverse.find? fun v => v.1 = name).map Prod.snd).or
        ((environment.reverse.find? fun v => v.1 = name).map fun v => some v.2)
    known ++ [(a.name, a.value.map (expand lookup))]) []

end Assignment

end SourceAtlas
