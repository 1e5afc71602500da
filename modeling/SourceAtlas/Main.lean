import SourceAtlas.CommandLine

/-!
# The program

The program carries out one command line on the files that standard input names, one path a line.
Of these the ones below a repository are its tracked files. No model is reached from here: each call
to one is reported as a failed connection.

* `Program.treeOf`, `Program.changes`: the tree of the files that were read, and what a run changed;
* `main`.
-/

namespace SourceAtlas.Program

/-! ## Trees -/

/-- The tree with one more file and the directories above it. -/
def withFile (t : FileTree) (path : Text) (content : Bytes) : FileTree :=
  match t.makeDirectories (Path.parent path) with
  | (.error _, _) => t
  | (.ok (), t') =>
    match t'.write path content with
    | .error _ => t
    | .ok t'' => t''

/-- The tree of files, seen from a working directory. -/
def treeOf (current : Text) (files : List (Text × Bytes)) : FileTree :=
  let start : FileTree := ⟨[], "/"⟩
  let root := (start.makeDirectories current).2
  files.foldl (fun t f => withFile t (Path.absolute current f.1) f.2) { root with current }

/-- The path of a place. -/
def pathOf (key : List Text) : Text := "/" ++ Text.joinWith "/" key

/-- The file of a node, if it is one. -/
def contentOf? : FileTree.Node → Option Bytes
  | .file content => some content
  | _ => none

/-- The files of a tree that another tree lacks or has otherwise. -/
def changes (before after : FileTree) : List (Text × Bytes) :=
  after.nodes.filterMap fun (key, n) =>
    if before.node? key = some n then none
    else (contentOf? n).map fun content => (pathOf key, content)

/-! ## What stands in for the world -/

/-- The files below a directory, by their paths from it. -/
def filesBelow (t : FileTree) (root : Text) : List Text :=
  let above := t.place root
  Text.sorted (t.nodes.filterMap fun (key, n) =>
    if (contentOf? n).isSome && key.take above.length = above then
      some (Text.joinWith "/" (key.drop above.length))
    else none)

/-- The host whose tracked files are all files below a directory. -/
def host (home : Text) : Host where
  home
  git t root := .finished ((filesBelow t root).flatMap fun f => f ++ "\n") [] 0

/-- The responder that reaches no model. -/
def unreachable : Responder := fun _ => .error (.reported "Connection error.")

/-- The variables that a run asks for. -/
def variableNames : List String :=
  ["HOME", "CODEINDEX_CONFIG", "CODEINDEX_PROVIDER", "CODEINDEX_PROVIDER_URL", "OPENAI_API_KEY",
    "CODEINDEX_OPENAI_API_KEY"]

/-- The text of an output. -/
def textOf : Output → Text
  | .text t => t
  | .table t => t.draw

/-! ## Reading and printing -/

def environment : IO (List (Text × Text)) := do
  let found ← variableNames.mapM fun name => do
    return (← IO.getEnv name).map fun value => (Text.ofString name, Text.ofString value)
  return found.filterMap id

partial def readLines (input : IO.FS.Stream) (lines : List String) : IO (List String) := do
  let line ← input.getLine
  if line.isEmpty then return lines.reverse
  readLines input (line :: lines)

/-- The files of these paths that can be read. -/
def readFiles (paths : List Text) : IO (List (Text × Bytes)) := do
  let found ← paths.mapM fun path => do
    match ← (IO.FS.readBinFile path.toString).toBaseIO with
    | .ok content => return some (path, content.toList)
    | .error _ => return none
  return found.filterMap id

def writeFiles (files : List (Text × Bytes)) : IO Unit :=
  files.forM fun (path, content) => do
    IO.FS.createDirAll (Path.parent path).toString
    IO.FS.writeBinFile path.toString ⟨content.toArray⟩

end SourceAtlas.Program

section

open SourceAtlas SourceAtlas.Program

/-- Carries out a command line. The exit code is that of the run, or 1 for a breakdown. -/
def main (arguments : List String) : IO UInt32 := do
  let lines ← readLines (← IO.getStdin) []
  let environment ← environment
  let find (name : Text) : Option Text := (environment.find? fun v => v.1 = name).map Prod.snd
  let current := ((← IO.getEnv "PWD").map Text.ofString).getD "/"
  let paths := lines.map fun l => Text.trimEndBy (fun c => c.endsLine) (Text.ofString l)
  let files ← readFiles (paths.filter fun p => !p.isEmpty)
  let home := (find "HOME").getD "/"
  let workplace : Workplace := ⟨host home, environment, unreachable, List.length⟩
  let before := treeOf current files
  let run := workplace.run before (arguments.map Text.ofString)
  writeFiles (changes before run.files)
  IO.print (textOf run.output).toString
  IO.eprint run.complaint.toString
  match run.ending with
  | .ok code => return code.toUInt32
  | .error why =>
    IO.eprintln why.message.toString
    return 1

end
