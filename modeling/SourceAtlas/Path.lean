import SourceAtlas.Text.Basic

/-!
# Paths

Paths are texts with components between slashes. There are no links, so that a path is understood
from its text alone.

* `Path.components`: the components that are neither empty nor `.`;
* `Path.normalize`: the path without empty components, `.`, and `..` after a component;
* `Path.join`, `Path.directory`, `Path.extension`: of paths as they are written;
* `Path.tidy`: the path without empty components and `.`, in which `..` is kept;
* `Path.fileName`, `Path.parent`, `Path.withFileName`, `Path.suffix`, `Path.child`: of tidy paths;
* `Path.absolute`, `Path.expandHome`.
-/

namespace SourceAtlas.Path

/-! ## Components -/

/-- The component `.`, which changes nothing. -/
def here : Text := "."

/-- The components that are neither empty nor `.`. -/
def components (t : Text) : List Text :=
  (t.splitOn '/').filter fun c => !c.isEmpty && c ≠ here

/-- The slashes at the start that count: none, one, or exactly two. -/
def root (t : Text) : Text :=
  if t.startsWith "//" && !t.startsWith "///" then "//"
  else if t.startsWith "/" then "/"
  else []

/-- The parent component `..`. -/
def up : Text := ".."

/-- The components after `..` has removed the one before it. `kept` holds the components so far,
last one first. At the root there is nothing to remove; elsewhere `..` stays where nothing is. -/
def collapse (rooted : Bool) : (kept rest : List Text) → List Text
  | kept, [] => kept.reverse
  | kept, c :: cs =>
    if c ≠ up then collapse rooted (c :: kept) cs
    else match kept with
      | k :: ks => if k = up then collapse rooted (c :: k :: ks) cs else collapse rooted ks cs
      | [] => if rooted then collapse rooted [] cs else collapse rooted [c] cs

/-- A root and components as a text; `.` when there is neither. -/
def assemble (root : Text) (cs : List Text) : Text :=
  if root.isEmpty && cs.isEmpty then "." else root ++ Text.joinWith "/" cs

/-- The path without empty components, `.`, and `..` after a component. -/
def normalize (t : Text) : Text :=
  let r := root t
  assemble r (collapse (!r.isEmpty) [] (components t))

/-! ## Paths as they are written -/

/-- `b` as seen from `a`; a path from the root is kept. -/
def join (a b : Text) : Text :=
  if b.startsWith "/" then b
  else if a.isEmpty || a.endsWith "/" then a ++ b
  else a ++ "/" ++ b

/-- What precedes the last slash, without slashes at its end unless it consists of them. -/
def directory (t : Text) : Text :=
  match Text.cutLast? '/' t with
  | none => []
  | some (a, _) =>
    let trimmed : Text := (a.reverse.dropWhile fun c => decide (c = Point.ofChar '/')).reverse
    if trimmed.isEmpty then a ++ "/" else trimmed

/-- The last component from its last point on, if something other than points precedes it. -/
def extension (t : Text) : Text :=
  match Text.cutLast? '.' (Text.afterLast '/' t) with
  | some (a, b) => if a.all (fun c => decide (c = Point.ofChar '.')) then [] else "." ++ b
  | none => []

/-! ## Tidy paths -/

/-- The path without empty components and `.`, in which `..` is kept. -/
def tidy (t : Text) : Text := assemble (root t) (components t)

/-- The last component; empty for a root and for `.`. -/
def fileName (t : Text) : Text := (components t).getLastD []

/-- The path without its last component. -/
def parent (t : Text) : Text := assemble (root t) (components t).dropLast

/-- The path `b` as seen from `a`, tidy. -/
def child (a b : Text) : Text := tidy (join (tidy a) b)

/-- The path with another last component, if it has one. -/
def withFileName (t name : Text) : Option Text :=
  if (fileName t).isEmpty then none
  else some (assemble (root t) ((components t).dropLast ++ [name]))

/-- The last component from its last point on, unless the point stands first or last. -/
def suffix (t : Text) : Text :=
  match Text.cutLast? '.' (fileName t) with
  | some (a, b) => if a.isEmpty || b.isEmpty then [] else "." ++ b
  | none => []

/-! ## Absolute paths -/

/-- The normal path from the root, for a path seen from the directory `current`. -/
def absolute (current t : Text) : Text :=
  assemble "/" (collapse true [] (components (join current t)))

/-- The path with its first component `~` replaced; `none` for the home of another user. -/
def expandHome (home t : Text) : Option Text :=
  if (root t).isEmpty then
    match components t with
    | c :: cs =>
      if c.startsWith "~" then
        if c.length = 1 then some (tidy (join home (Text.joinWith "/" cs))) else none
      else some (tidy t)
    | [] => some (tidy t)
  else some (tidy t)

end SourceAtlas.Path
