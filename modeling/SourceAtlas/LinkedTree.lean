import SourceAtlas.FileTree

/-!
# File trees with links

A file system in which names may be links. A symbolic link leads on to where its text leads from the
directory that it stands in, and one file may stand at several places. A parent in a path is the
directory above the one that was reached.

* `LinkedTree`: a file tree, the texts of symbolic links, and numbers for files at several places;
* `LinkedTree.Way`, `LinkedTree.way`: the names that are looked for on a way, and where it leads;
* `LinkedTree.wayTo`, `LinkedTree.wayToEntry`: what a path leads to, and the entry that it names,
  which may be a link;
* `LinkedTree.makeDirectory`, `write`, `move`, `LinkedTree.operations`: changes;
* `LinkedTree.read`: the content of a file.
-/

namespace SourceAtlas

/-- A file tree with the texts of the symbolic links at some places. The places of a file that
stands at several of them have one number. -/
structure LinkedTree where
  tree : FileTree
  links : List (List Text × Text)
  numbers : List (List Text × Nat)

namespace LinkedTree

variable (s : LinkedTree)

/-- The text of the link at a place. -/
def link? (key : List Text) : Option Text := (s.links.find? fun l => l.1 = key).map Prod.snd

/-- The number of the file at a place, if it stands at several places. -/
def number? (key : List Text) : Option Nat := (s.numbers.find? fun m => m.1 = key).map Prod.snd

/-! ## Ways -/

/-- The names that are looked for on a way, each in the directory at a place, and where the way
leads, unless there are too many links on it. -/
structure Way where
  steps : List (List Text × Text)
  goal : Option (List Text)

/-- Where a way leads without a link, or the directory that a link leads on from, and the components
that are left. -/
inductive Stop where
  | place (key : List Text)
  | link (directory rest : List Text)

/-- The names on a way up to the first link. -/
def advance : (directory rest : List Text) → List (List Text × Text) × Stop
  | d, [] => ([], .place d)
  | d, c :: cs =>
    if c = Path.up then ((d, c) :: (advance d.dropLast cs).1, (advance d.dropLast cs).2)
    else match s.link? (d ++ [c]) with
      | none => ((d, c) :: (advance (d ++ [c]) cs).1, (advance (d ++ [c]) cs).2)
      | some text =>
        let start := if (Path.root text).isEmpty then d else []
        ([(d, c)], .link start (Path.components text ++ cs))

/-- A way from a directory. So many links are followed. -/
def way : (links : Nat) → (directory rest : List Text) → Way
  | links, d, rest =>
    match s.advance d rest with
    | (steps, .place key) => ⟨steps, some key⟩
    | (steps, .link d' rest') =>
      match links with
      | 0 => ⟨steps, none⟩
      | links + 1 => ⟨steps ++ (way links d' rest').steps, (way links d' rest').goal⟩

/-- Where a name leads from a directory when it is not followed. -/
def next (d : List Text) (name : Text) : List Text :=
  if name = Path.up then d.dropLast else d ++ [name]

/-- A way with one more name, which is not followed. -/
def Way.extend (w : Way) (name : Text) : Way :=
  match w.goal with
  | none => w
  | some d => ⟨w.steps ++ [(d, name)], some (next d name)⟩

/-- The number of links that are followed. -/
def maxLinks : Nat := 40

/-- The components of a path, behind those of the working directory if it is relative. -/
def components (path : Text) : List Text :=
  (if (Path.root path).isEmpty then Path.components s.tree.current else []) ++ Path.components path

/-- The way to what a path leads to. -/
def wayTo (path : Text) : Way := s.way maxLinks [] (s.components path)

/-- The way to the entry that a path names, whose last name is not followed. -/
def wayToEntry (path : Text) : Way :=
  match (s.components path).getLast? with
  | none => ⟨[], some []⟩
  | some name => (s.way maxLinks [] (s.components path).dropLast).extend name

/-- Where a way leads, if all names on it are found. -/
def Way.pass (w : Way) (t : FileTree) : Except Refusal (List Text) := do
  w.steps.forM fun step => FileTree.enter (t.node? step.1) step.2
  match w.goal with
  | some key => .ok key
  | none => .error .tooManyLinks

/-- The place that a path leads to, if the way there is open. -/
def reach (path : Text) : Except Refusal (List Text) :=
  Path.checked path ((s.wayTo path).pass s.tree)

/-- The place of the entry that a path names, if the way there is open. -/
def reachEntry (path : Text) : Except Refusal (List Text) :=
  Path.checked path ((s.wayToEntry path).pass s.tree)

/-! ## What is there -/

/-- What a path leads to. -/
def stat (path : Text) : Except FileFault FileTree.Node :=
  FileFault.onPath path (s.reach path >>= s.tree.standing path)

def isDirectory (path : Text) : Bool :=
  match s.stat path with
  | .ok n => n.isDirectory
  | .error _ => false

/-- The content of a file. -/
def read (path : Text) : Except FileFault Bytes := s.stat path >>= FileTree.Node.content path

/-! ## Changes -/

/-- The other places of the file at a place. -/
def others (key : List Text) : List (List Text) :=
  match s.number? key with
  | none => []
  | some number => (s.numbers.filter fun m => m.2 = number && m.1 ≠ key).map Prod.fst

/-- The tree with a file of this content at a place, and at all other places of the file there. -/
def putFile (path : Text) (content : Bytes) (key : List Text) : Except Refusal LinkedTree := do
  let t ← s.tree.putFile path content key
  return { s with tree := (s.others key).foldl (fun t k => t.put k (.file content)) t }

/-- The tree with a new directory at a place. -/
def putDirectory (key : List Text) : Except Refusal LinkedTree :=
  if (s.link? key).isSome then .error .fileExists
  else do
    let t ← s.tree.putDirectory key
    return { s with tree := t }

/-- The two places are those of one file or one link. -/
def isSame (old new : List Text) : Bool :=
  if (s.link? old).isSome then decide (old = new)
  else (s.link? new).isNone && (s.number? old).isSome && decide (s.number? old = s.number? new)

/-- The tree in which the entry at a place stands at another one, in place of a file or a link
there. A link is moved as it is. Nothing happens if both are places of one file or one link. -/
def moveEntry (old new : List Text) : Except Refusal LinkedTree :=
  let links := s.links.filter fun l => l.1 ≠ new
  let numbers := s.numbers.filter fun m => m.1 ≠ new
  if s.isSame old new then .ok s
  else match s.link? old with
    | some _ =>
      if (s.link? new).isNone && (s.tree.node? new).any FileTree.Node.isDirectory then
        .error .isADirectory
      else .ok {
        tree := s.tree.remove new
        links := links.map fun l => if l.1 = old then (new, l.2) else l
        numbers := numbers }
    | none => do
      let t ← s.tree.moveNode old new
      return {
        tree := t
        links := links
        numbers := numbers.map fun m => if m.1 = old then (new, m.2) else m }

/-- The tree with a new directory. -/
def makeDirectory (path : Text) : Except FileFault LinkedTree :=
  FileFault.onPath path (s.reachEntry path >>= s.putDirectory)

/-- The tree with a file of this content. -/
def write (path : Text) (content : Bytes) : Except FileFault LinkedTree :=
  FileFault.onPath path (s.reach path >>= s.putFile path content)

/-- The tree in which the entry of a path stands at another path. -/
def move (source target : Text) : Except FileFault LinkedTree :=
  FileFault.onPaths source target do
    let old ← s.reachEntry source
    let new ← s.reachEntry target
    s.moveEntry old new

/-- The operations on file trees with links. -/
def operations : FileOperations LinkedTree where
  isDirectory := isDirectory
  makeDirectory := makeDirectory
  write := write
  move := move

end LinkedTree

end SourceAtlas
