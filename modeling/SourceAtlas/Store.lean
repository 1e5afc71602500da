import SourceAtlas.FileTree
import SourceAtlas.Index
import SourceAtlas.Json.Reader

/-!
# Stores of indexes

A store keeps each index as one artifact: a JSON document named after the repository.

* `artifactName`: the name of the artifact of a repository;
* `LoadFault`, `SaveFault`: why an artifact cannot be loaded or saved;
* `IndexStore`: the operations of a store on a state `σ`;
* `Artifact.list`, `Artifact.load`, `Artifact.save`: artifacts in a file tree. An artifact is saved
  under a temporary name beside it and then moved, so that it is never seen half written;
* `Artifact.saveBy`: a save by the operations of any file system;
* `IndexStore.onFiles`: the store of a directory;
* `IndexStore.failingOnce`, `IndexStore.recording`: a store of which one save fails, and a store
  that keeps a record of its saves.
-/

namespace SourceAtlas

/-! ## Names -/

/-- The name of the artifact of a repository: its last component between `ast-` and `.json`. -/
def artifactName (repository : Text) : Text :=
  let path := Text.trimEndBy (fun c => decide (c = Point.ofChar '/')) repository.trim
  "ast-" ++ Path.fileName path ++ ".json"

/-! ## Faults -/

/-- Why an artifact cannot be loaded. -/
inductive LoadFault where
  | unreadable (fault : ReadFault)
  | malformed (text : Text) (fault : Json.Fault)
  | tooManyDigits (count : Nat)
  | notAnObject (path : Text)
  | shape (fault : ShapeFault)

/-- The failure that a fault leads to. -/
def LoadFault.failure : LoadFault → Failure
  | unreadable (.file (.unfit why)) => .broken (FileFault.unfit why).breakdown
  | unreadable fault => .reported fault.message
  | malformed text fault => .reported (fault.message text)
  | tooManyDigits count => .broken ⟨.value, Json.tooManyDigitsMessage count⟩
  | notAnObject path => .reported ("AST index is not a JSON object: " ++ path)
  | shape fault => .broken fault.breakdown

/-- Why an artifact cannot be saved: its path has no last component, or the system refuses. -/
inductive SaveFault where
  | noFileName (path : Text)
  | refused (message : Text)
deriving DecidableEq

/-- The failure that a fault leads to. -/
def SaveFault.failure : SaveFault → Failure
  | noFileName path => .broken ⟨.value, "PosixPath(" ++ path.quoted ++ ") has an empty name"⟩
  | refused message => .reported message

/-- The operations of a store whose state is `σ`. Artifacts are named by their paths. -/
structure IndexStore (σ : Type) where
  /-- The path of the artifact of a repository. -/
  pathFor : Text → Text
  /-- Why it cannot be told whether the artifact of a repository is there. -/
  refusal? : σ → Text → Option FileFault
  /-- The artifact of a repository is there. -/
  holds : σ → Text → Bool
  /-- The paths of all artifacts, in order. -/
  list : σ → List Text
  load : σ → Text → Except LoadFault Index
  save : σ → Index → Text → Except SaveFault Unit × σ
  /-- The files that can be read beside the artifacts. -/
  files : σ → FileTree

/-! ## Artifacts in a file tree -/

namespace Artifact

/-- The paths of the artifacts in a directory that can be entered, by name. -/
def list (directory : Text) (t : FileTree) : List Text :=
  if t.isOpen directory then
    let artifacts := (t.names directory).filter fun n => n.startsWith "ast-" && n.endsWith ".json"
    (Text.sorted artifacts).map (Path.child directory)
  else []

/-- Why the artifacts in a directory cannot be listed. -/
def listRefusal? (directory : Text) (t : FileTree) : Option FileFault :=
  match t.stat directory with
  | .ok .closed => some (.refused .permissionDenied directory)
  | _ => t.refusal? directory

/-- The index that the text of an artifact holds. -/
def ofText (path text : Text) : Except LoadFault Index :=
  match Json.read text with
  | .error (.malformed fault) => .error (.malformed text fault)
  | .error (.tooManyDigits count) => .error (.tooManyDigits count)
  | .ok (.object ms) => (Index.ofJson (.object ms)).mapError .shape
  | .ok _ => .error (.notAnObject path)

def load (t : FileTree) (path : Text) : Except LoadFault Index :=
  match t.readText path with
  | .error fault => .error (.unreadable fault)
  | .ok text => ofText path text

/-- The name under which an artifact is written before it is moved. -/
def temporary? (path : Text) : Option Text := Path.withFileName path (Path.fileName path ++ ".tmp")

/-- Saves an index by the operations of a file system. What was done before a fault remains. -/
def saveBy {σ : Type} (system : FileOperations σ) (s : σ) (index : Index) (path : Text) :
    Except SaveFault Unit × σ :=
  match temporary? path with
  | none => (.error (.noFileName path), s)
  | some temporary =>
    match system.makeDirectories s (Path.parent path) with
    | (.error fault, s₁) => (.error (.refused fault.message), s₁)
    | (.ok (), s₁) =>
      if !index.toJson.isWritable then (.error (.refused Json.unwritableMessage), s₁)
      else match system.write s₁ temporary (Utf8.encode index.text) with
        | .error fault => (.error (.refused fault.message), s₁)
        | .ok s₂ =>
          match system.move s₂ temporary path with
          | .error fault => (.error (.refused fault.message), s₂)
          | .ok s₃ => (.ok (), s₃)

/-- Saves an index in a file tree. -/
def save : FileTree → Index → Text → Except SaveFault Unit × FileTree :=
  saveBy FileTree.operations

end Artifact

namespace IndexStore

/-- The store of a directory, given by a tidy path. -/
def onFiles (directory : Text) : IndexStore FileTree where
  pathFor repository := Path.child directory (artifactName repository)
  refusal? t repository := t.refusal? (Path.child directory (artifactName repository))
  holds t repository := t.isFile (Path.child directory (artifactName repository))
  list t := Artifact.list directory t
  load t path := Artifact.load t path
  save t index path := Artifact.save t index path
  files t := t

/-- The store with a count of the saves to come until one fails with a message; that save changes
nothing, and no other fails for this reason. -/
def failingOnce {σ : Type} (store : IndexStore σ) (message : Text) :
    IndexStore (σ × Option Nat) where
  pathFor := store.pathFor
  refusal? s repository := store.refusal? s.1 repository
  holds s repository := store.holds s.1 repository
  list s := store.list s.1
  load s path := store.load s.1 path
  save s index path :=
    match s.2 with
    | some 0 => (.error (.refused message), (s.1, none))
    | some (n + 1) =>
      let (result, t) := store.save s.1 index path
      (result, (t, some n))
    | none =>
      let (result, t) := store.save s.1 index path
      (result, (t, none))
  files s := store.files s.1

/-- The store with a record of what it has saved, and where. -/
def recording {σ : Type} (store : IndexStore σ) : IndexStore (σ × List (Text × Index)) where
  pathFor := store.pathFor
  refusal? s repository := store.refusal? s.1 repository
  holds s repository := store.holds s.1 repository
  list s := store.list s.1
  load s path := store.load s.1 path
  save s index path :=
    match store.save s.1 index path with
    | (.ok (), t) => (.ok (), (t, s.2 ++ [(path, index)]))
    | (.error fault, t) => (.error fault, (t, s.2))
  files s := store.files s.1

end IndexStore

end SourceAtlas
