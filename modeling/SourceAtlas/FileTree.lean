import SourceAtlas.Failure
import SourceAtlas.Path.Spelling
import SourceAtlas.Text.Blank
import SourceAtlas.Text.Utf8

/-!
# File trees

A file system without links as a value: what stands at each place, and the working directory. Beside
links it leaves out files of other kinds, full disks, files and directories that are protected
against changes alone, and what other programs do meanwhile.

* `FileTree`, `FileTree.Node`;
* `FileFault`, `FileFault.message`, `FileFault.breakdown`: why an operation fails;
* `FileOperations`: the operations of any file system; `FileOperations.makeDirectories`: a directory
  and all that are above it;
* `FileTree.atPlace`: what comes before each operation, the way to the place of its path;
* `FileTree.stat`, `isFile`, `isDirectory`, `isOpen`, `present`, `names`: what is there;
* `FileTree.refusal?`: why it cannot be told what is there;
* `FileTree.read`, `readText`: contents;
* `FileTree.write`, `makeDirectory`, `move`: changes;
* `FileTree.operations`.
-/

namespace SourceAtlas

/-- What stands at a place. A closed directory is there but cannot be entered, a locked file is there
but cannot be opened. -/
inductive FileTree.Node where
  | directory
  | closed
  | file (content : Bytes)
  | locked
deriving DecidableEq

def FileTree.Node.isDirectory : FileTree.Node → Bool
  | directory | closed => true
  | file _ | locked => false

/-- What stands at each place, given by its components from the root, and the working directory.
The root itself is always a directory that can be entered. -/
structure FileTree where
  nodes : List (List Text × FileTree.Node)
  current : Text

/-- The ways in which the system refuses an operation. -/
inductive Refusal where
  | noEntry
  | permissionDenied
  | fileExists
  | notADirectory
  | isADirectory
  | nameTooLong
  | tooManyLinks
deriving DecidableEq

def Refusal.number : Refusal → Nat
  | noEntry => 2
  | permissionDenied => 13
  | fileExists => 17
  | notADirectory => 20
  | isADirectory => 21
  | nameTooLong => 36
  | tooManyLinks => 40

def Refusal.message : Refusal → Text
  | noEntry => "No such file or directory"
  | permissionDenied => "Permission denied"
  | fileExists => "File exists"
  | notADirectory => "Not a directory"
  | isADirectory => "Is a directory"
  | nameTooLong => "File name too long"
  | tooManyLinks => "Too many levels of symbolic links"

/-- The refusal tells that nothing is there. -/
def Refusal.isAbsence : Refusal → Bool
  | noEntry | notADirectory | tooManyLinks => true
  | _ => false

/-- Why an operation on files fails: it is refused for a path, or for one path and the path it
should move to, or a text is no path. -/
inductive FileFault where
  | refused (why : Refusal) (path : Text)
  | refusedMove (why : Refusal) (source target : Text)
  | unfit (why : PathFault)
deriving DecidableEq

def FileFault.message : FileFault → Text
  | refused why path =>
    "[Errno " ++ Text.ofNat why.number ++ "] " ++ why.message ++ ": " ++ path.quoted
  | refusedMove why source target =>
    "[Errno " ++ Text.ofNat why.number ++ "] " ++ why.message ++ ": " ++ source.quoted ++ " -> " ++
      target.quoted
  | unfit why => why.message

/-- The breakdown of a part that is not prepared for the fault. -/
def FileFault.breakdown (fault : FileFault) : Breakdown where
  kind := match fault with
    | refused .permissionDenied _ | refusedMove .permissionDenied _ _ => .denied
    | unfit _ => .value
    | _ => .system
  message := fault.message

/-- Why a text file has no text. -/
inductive ReadFault where
  | file (fault : FileFault)
  | decoding (fault : Utf8.Fault)
deriving DecidableEq

def ReadFault.message : ReadFault → Text
  | file fault => fault.message
  | decoding fault => fault.message

/-! ## File systems -/

/-- The operations of a file system whose state is `σ`. -/
structure FileOperations (σ : Type) where
  isDirectory : σ → Text → Bool
  makeDirectory : σ → Text → Except FileFault σ
  write : σ → Text → Bytes → Except FileFault σ
  move : σ → Text → Text → Except FileFault σ

namespace FileOperations

variable {σ : Type} (system : FileOperations σ)

/-- What came of making a directory. A directory that was there before will do. -/
def settle (s : σ) (path : Text) : Except FileFault σ → Except FileFault Unit × σ
  | .ok s' => (.ok (), s')
  | .error fault => if system.isDirectory s path then (.ok (), s) else (.error fault, s)

/-- Makes a directory at a tidy path and at all paths above it. What was made before a fault remains.
The first argument bounds the number of paths above. -/
def makeDirectoriesWithin : Nat → σ → Text → Except FileFault Unit × σ
  | 0, s, path => (.error (.refused .noEntry path), s)
  | n + 1, s, path =>
    match system.makeDirectory s path with
    | .error (.refused .noEntry _) =>
      if Path.parent path = path then (.error (.refused .noEntry path), s)
      else match makeDirectoriesWithin n s (Path.parent path) with
        | (.error fault, s') => (.error fault, s')
        | (.ok (), s') => system.settle s' path (system.makeDirectory s' path)
    | made => system.settle s path made

/-- Makes a directory at a tidy path and at all paths above it. -/
def makeDirectories (s : σ) (path : Text) : Except FileFault Unit × σ :=
  system.makeDirectoriesWithin ((Path.components path).length + 1) s path

end FileOperations

/-! ## Paths -/

/-- A way is looked for if a path is not empty and not too long. -/
def Path.checked {α : Type} (path : Text) (way : Except Refusal α) : Except Refusal α :=
  if path.isEmpty then .error .noEntry
  else if !Path.isShort path then .error .nameTooLong
  else way

/-- What is done with a path fails if its text is none. -/
def FileFault.onPath {α : Type} (path : Text) (done : Except Refusal α) : Except FileFault α :=
  match Path.fault? path with
  | some why => .error (.unfit why)
  | none => done.mapError fun why => .refused why path

/-- What is done with two paths fails if the text of one is none. -/
def FileFault.onPaths {α : Type} (source target : Text) (done : Except Refusal α) :
    Except FileFault α :=
  match (Path.fault? source).or (Path.fault? target) with
  | some why => .error (.unfit why)
  | none => done.mapError fun why => .refusedMove why source target

namespace FileTree

variable {α : Type}

/-! ## Places -/

/-- The place that a path leads to. -/
def place (t : FileTree) (path : Text) : List Text := Path.components (Path.absolute t.current path)

/-- What stands at a place. -/
def node? (t : FileTree) (key : List Text) : Option Node :=
  if key.isEmpty then some .directory else (t.nodes.find? fun n => n.1 = key).map Prod.snd

/-- A name is looked for in what was found at a place. -/
def enter (found : Option Node) (name : Text) : Except Refusal Unit :=
  match found with
  | none => .error .noEntry
  | some .directory => if Path.isShortName name then .ok () else .error .nameTooLong
  | some .closed => .error .permissionDenied
  | some _ => .error .notADirectory

/-- The way to a place leads through directories that can be entered. -/
def walk (t : FileTree) : (done rest : List Text) → Except Refusal Unit
  | _, [] => .ok ()
  | done, c :: cs => do
    enter (t.node? done) c
    walk t (done ++ [c]) cs

/-- The place of a path, if the way there is open. -/
def reach (t : FileTree) (path : Text) : Except Refusal (List Text) :=
  Path.checked path do
    walk t [] (t.place path)
    return t.place path

/-- What an operation makes of the place of a path. -/
def atPlace (t : FileTree) (path : Text) (go : List Text → Except Refusal α) :
    Except FileFault α :=
  FileFault.onPath path (t.reach path >>= go)

/-! ## What is there -/

/-- What stands at a place for a path. A slash at the end asks for a directory. -/
def standing (t : FileTree) (path : Text) (key : List Text) : Except Refusal Node :=
  match t.node? key with
  | none => .error .noEntry
  | some n => if n.isDirectory || !path.endsWith "/" then .ok n else .error .notADirectory

/-- What a path leads to. -/
def stat (t : FileTree) (path : Text) : Except FileFault Node := t.atPlace path (t.standing path)

def isFile (t : FileTree) (path : Text) : Bool :=
  match t.stat path with
  | .ok n => !n.isDirectory
  | .error _ => false

def isDirectory (t : FileTree) (path : Text) : Bool :=
  match t.stat path with
  | .ok n => n.isDirectory
  | .error _ => false

/-- A directory that can be entered is there. -/
def isOpen (t : FileTree) (path : Text) : Bool :=
  match t.stat path with
  | .ok .directory => true
  | _ => false

def present (t : FileTree) (path : Text) : Bool :=
  match t.stat path with
  | .ok _ => true
  | .error _ => false

/-- Why it cannot be told what a path leads to. A text that is no path leads to nothing. -/
def refusal? (t : FileTree) (path : Text) : Option FileFault :=
  match t.stat path with
  | .error (.refused why path) => if why.isAbsence then none else some (.refused why path)
  | _ => none

/-- The names of what stands in a directory. -/
def names (t : FileTree) (path : Text) : List Text :=
  let key := t.place path
  t.nodes.filterMap fun (k, _) =>
    if k.length = key.length + 1 ∧ k.take key.length = key then k.getLast? else none

/-! ## Reading -/

/-- The content of what stands at a path. -/
def Node.content (path : Text) : Node → Except FileFault Bytes
  | directory => .error (.refused .isADirectory path)
  | closed | locked => .error (.refused .permissionDenied path)
  | file content => .ok content

/-- The content of a file. -/
def read (t : FileTree) (path : Text) : Except FileFault Bytes := t.stat path >>= Node.content path

/-- The text of a file, with a line feed for each line end. -/
def readText (t : FileTree) (path : Text) : Except ReadFault Text :=
  match t.read path with
  | .error fault => .error (.file fault)
  | .ok content =>
    match Utf8.decode content with
    | .error fault => .error (.decoding fault)
    | .ok text => .ok text.normalizeNewlines

/-! ## Changes -/

/-- The tree with `n` at a place. -/
def put (t : FileTree) (key : List Text) (n : Node) : FileTree :=
  { t with nodes :=
      if t.nodes.any fun m => decide (m.1 = key)
      then t.nodes.map fun m => if m.1 = key then (key, n) else m
      else t.nodes ++ [(key, n)] }

/-- The tree with nothing at a place. -/
def remove (t : FileTree) (key : List Text) : FileTree :=
  { t with nodes := t.nodes.filter fun m => decide (m.1 ≠ key) }

/-- The tree with a file of this content at a place. -/
def putFile (t : FileTree) (path : Text) (content : Bytes) (key : List Text) :
    Except Refusal FileTree :=
  match t.node? key with
  | some .directory | some .closed => .error .isADirectory
  | some .locked => .error .permissionDenied
  | some (.file _) =>
    if path.endsWith "/" then .error .notADirectory else .ok (t.put key (.file content))
  | none => if path.endsWith "/" then .error .isADirectory else .ok (t.put key (.file content))

/-- The tree with a file of this content. -/
def write (t : FileTree) (path : Text) (content : Bytes) : Except FileFault FileTree :=
  t.atPlace path (t.putFile path content)

/-- The tree with a new directory at a place. -/
def putDirectory (t : FileTree) (key : List Text) : Except Refusal FileTree :=
  if (t.node? key).isSome then .error .fileExists else .ok (t.put key .directory)

/-- The tree with a new directory. -/
def makeDirectory (t : FileTree) (path : Text) : Except FileFault FileTree :=
  t.atPlace path t.putDirectory

/-- The tree in which what stands at a place stands at another one, in place of a file there. -/
def moveNode (t : FileTree) (old new : List Text) : Except Refusal FileTree :=
  match t.node? old with
  | none => .error .noEntry
  | some n =>
    if (t.node? new).any Node.isDirectory && !n.isDirectory then .error .isADirectory
    else .ok ((t.remove old).put new n)

/-- The tree in which a file stands at another path, in place of the file there. -/
def move (t : FileTree) (source target : Text) : Except FileFault FileTree :=
  FileFault.onPaths source target do
    let old ← t.reach source
    let new ← t.reach target
    t.moveNode old new

/-- The operations on file trees. -/
def operations : FileOperations FileTree where
  isDirectory := isDirectory
  makeDirectory := makeDirectory
  write := write
  move := move

/-- The tree with a directory at a tidy path and at all paths above it. -/
def makeDirectories (t : FileTree) (path : Text) : Except FileFault Unit × FileTree :=
  operations.makeDirectories t path

end FileTree

end SourceAtlas
