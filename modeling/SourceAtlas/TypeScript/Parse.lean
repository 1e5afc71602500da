import SourceAtlas.TypeScript.Grammar

/-!
# Syntax trees of TypeScript sources

* `language`: the grammar with its blanks and comments;
* `repair?`: the statements of a short source that is a program but for one lexeme too many or for a
  name that is missing at its end;
* `parse`: the tree of a source. What is no statement and cannot be repaired becomes nodes of kind
  `ERROR`, one lexeme each, between the statements.
-/

namespace SourceAtlas.TypeScript

open Grammar (RuleSet Source)

/-- The grammar of TypeScript with its blanks and comments. -/
def language : RuleSet Rule where
  phrase := Rule.phrase
  skip := skipTrivia
  comment := "comment"

/-- The end of the lexeme at an offset, whatever it is. -/
def lexemeEnd (src : Source) (pos : Nat) : Nat := max (pos + 1) ((wordEnd? src pos).getD (pos + 1))

theorem lt_lexemeEnd (src : Source) (pos : Nat) : pos < lexemeEnd src pos := by
  unfold lexemeEnd; omega

/-! ## Repairs -/

/-- A lexeme that belongs to no statement. -/
def faultNode (start stop : Nat) : Tree := ⟨"ERROR", true, none, start, stop, []⟩

/-- The grammar when the lexeme at an offset is left out. -/
def leavingOut (src : Source) (pos : Nat) : RuleSet Rule :=
  { language with
    skip := fun src' from_ =>
      let (before, start) := skipTrivia src' from_
      if start = pos then
        let (after, next) := skipTrivia src' (lexemeEnd src pos)
        (before ++ faultNode pos (lexemeEnd src pos) :: after, next)
      else (before, start) }

/-- The offsets of the lexemes from an offset on. -/
def lexemeStarts (src : Source) (pos : Nat) : List Nat :=
  let start := max pos (skipTrivia src pos).2
  if start < src.size then start :: lexemeStarts src (lexemeEnd src start) else []
termination_by src.size - pos
decreasing_by
  have := lt_lexemeEnd src (max pos (skipTrivia src pos).2)
  simp_all only [start]
  omega

mutual

/-- The tree with nothing beyond an offset. -/
def clip (stop : Nat) : Tree → Tree
  | ⟨kind, named, field, start, stop', children⟩ =>
    ⟨kind, named, field, min start stop, min stop' stop, clipAll stop children⟩

def clipAll (stop : Nat) : List Tree → List Tree
  | [] => []
  | t :: ts => clip stop t :: clipAll stop ts

end

/-- The statements from an offset up to the end, if there is nothing else. -/
def program? (rules : RuleSet Rule) (src : Source) (pos : Nat) : Option (List Tree) := do
  let (ts, stop) ← rules.parse src (Rule.phrase .program) pos
  let (comments, rest) := rules.skip src stop
  if rest < src.size then none else some (ts ++ comments)

/-- Only what is not longer than this is repaired. -/
def repairLimit : Nat := 64

/-- The statements from an offset on, with a name at the end, without one lexeme, or both. -/
def repair? (src : Source) (pos : Nat) : Option (List Tree) :=
  if pos + repairLimit < src.size then none
  else
    let named : Source := src.push 120
    let starts := lexemeStarts src pos
    let clipped (ts : Option (List Tree)) := ts.map (clipAll src.size)
    (clipped (program? language named pos)).or <|
      (starts.findSome? fun p => program? (leavingOut src p) src pos).or
        (starts.findSome? fun p => clipped (program? (leavingOut src p) named pos))

/-! ## Trees -/

/-- The nodes from an offset on. -/
def topLevel (src : Source) (pos : Nat) : List Tree :=
  let (ts, stop) := (language.parse src (Rule.phrase .program) pos).getD ([], pos)
  let comments := (skipTrivia src stop).1
  let start := max pos (skipTrivia src stop).2
  if start < src.size then
    match repair? src start with
    | some repaired => ts ++ comments ++ repaired
    | none =>
      ts ++ comments ++ faultNode start (lexemeEnd src start) :: topLevel src (lexemeEnd src start)
  else ts ++ comments
termination_by src.size - pos
decreasing_by
  all_goals
    have := lt_lexemeEnd src (max pos (skipTrivia src stop).2)
    simp_all only [start]
    omega

/-- The syntax tree of a source. -/
def parse (source : Bytes) : Tree :=
  let src : Source := ⟨source.toArray⟩
  let children := topLevel src 0
  { kind := "program", named := true, field := none
    start := (children.head?.map Tree.start).getD src.size
    stop := src.size
    children }

end SourceAtlas.TypeScript
