import SourceAtlas.Text.Blank

/-!
# File references in decorator arguments

The argument of a class decorator names the files that belong to the class: its template and its
style sheets. A reference is found by its key, wherever in the argument it stands.

* `Reference.Pattern`: a key, and whether its value is one quoted entry or a list of them;
* `Reference.Pattern.all`: the three patterns in the order in which they are tried;
* `Reference.occurrences`: the values that stand after a key, from left to right;
* `Reference.extract`: the references of a text, pattern by pattern.
-/

namespace SourceAtlas.Reference

/-- A key that announces file references. -/
inductive Pattern where
  | templateUrl
  | styleUrls
  | styleUrl
deriving DecidableEq

namespace Pattern

/-- The three patterns in the order in which they are tried. -/
def all : List Pattern := [templateUrl, styleUrls, styleUrl]

def key : Pattern → Text
  | templateUrl => "templateUrl"
  | styleUrls => "styleUrls"
  | styleUrl => "styleUrl"

/-- The value is a list in brackets. -/
def isList : Pattern → Bool
  | styleUrls => true
  | _ => false

end Pattern

/-- The three marks that delimit a string literal. -/
def quotes : Text := "'\"\x60"

/-- What follows a key, a colon and the blank points around it. -/
def afterColon? (key t : Text) : Option Text := do
  match (← t.after? key).trimStart with
  | c :: r => if c = ':' then some (Text.trimStart r) else none
  | [] => none

/-- The value up to the next mark `q` on the same line, and what follows the mark. The value is
never empty: its first point may be the mark itself. -/
def quotedValue? (q : Point) : Text → Option (Text × Text)
  | [] => none
  | c :: t =>
    let inner := t.takeWhile fun d : Point => d ≠ q ∧ d ≠ '\n'
    match t.dropWhile fun d : Point => d ≠ q ∧ d ≠ '\n' with
    | d :: rest => if c ≠ '\n' ∧ d = q then some (c :: inner, rest) else none
    | [] => none

/-- The value up to the next closing bracket, and what follows the bracket. -/
def bracketedValue? (t : Text) : Option (Text × Text) := Text.cut? ']' t

/-- The value that a pattern finds at the start of a text, and what follows it. -/
def Pattern.match? (p : Pattern) (t : Text) : Option (Text × Text) := do
  match ← afterColon? p.key t with
  | c :: r =>
    if p.isList then (if c = '[' then bracketedValue? r else none)
    else if quotes.has c then quotedValue? c r else none
  | [] => none

/-- The values that a pattern finds in a text, one after the other. `skip` counts the leading
points that belong to the value found last. -/
def occurrencesFrom (p : Pattern) : (skip : Nat) → Text → List Text
  | _, [] => []
  | skip + 1, _ :: t => occurrencesFrom p skip t
  | 0, c :: t =>
    match p.match? (c :: t) with
    | some (v, rest) => v :: occurrencesFrom p (t.length - rest.length) t
    | none => occurrencesFrom p 0 t

/-- The values that a pattern finds in a text, one after the other. -/
def occurrences (p : Pattern) (t : Text) : List Text := occurrencesFrom p 0 t

/-- The entries of a bracketed list, without blank points and quotes around them. -/
def listEntries (t : Text) : List Text :=
  ((t.splitOn ',').map fun e => (e.trim.trimPoints quotes).trim).filter fun e => !e.isEmpty

/-- The references that a pattern's value holds. -/
def Pattern.entries (p : Pattern) (value : Text) : List Text :=
  if p.isList then listEntries value
  else if value.trim.isEmpty then [] else [value.trim]

/-- The references of a text by the given patterns, pattern by pattern. -/
def extractBy (ps : List Pattern) (t : Text) : List Text :=
  ps.flatMap fun p => (occurrences p t).flatMap p.entries

/-- The references of a decorator argument. -/
def extract (t : Text) : List Text := extractBy Pattern.all t

end SourceAtlas.Reference
