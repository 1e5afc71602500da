import SourceAtlas.FileTree
import SourceAtlas.Index
import SourceAtlas.Prompt

/-!
# Context of files

The prompt of a file shows the file with what is related to it in its repository: a source file with
what it imports, a page with the components that show it and their styles.

* `Path.isWithin`: a path leads into a repository;
* `Context.contents`: the text of a file, empty when it cannot be read;
* `Context.imports`, `Context.components`: the related files;
* `Context.prompt`: the prompt of a file.
-/

namespace SourceAtlas

/-- The path is that of the repository, or lies below it as far as their texts tell. -/
def Path.isWithin (path repository : Text) : Bool :=
  let root := Text.trimEndBy (fun c => decide (c = Point.ofChar '/')) repository
  path = root || path.startsWith (root ++ "/")

namespace Context

/-- The extensions of style sheets. -/
def styleExtensions : List Text := [".css", ".scss"]

/-- The text of a file, empty when it cannot be read. Of a text that is no path nothing can be read
at all. -/
def contents (t : FileTree) (path : Text) : Except FileFault Text :=
  match t.readText (Path.tidy path) with
  | .ok text => .ok text
  | .error (.file (.unfit why)) => .error (.unfit why)
  | .error _ => .ok []

/-- The texts of files, one after the other. -/
def contentsOfAll (t : FileTree) (paths : List Text) : Except FileFault Text := do
  return Text.joinWith "\n" (← paths.mapM (contents t))

/-- The files of its repository that a source file imports. -/
def imports (r : SourceRecord) : List Text := r.imports.filter fun p => Path.isWithin p r.repository

/-- The component and the style sheets of each record that imports a page. -/
def components (i : Index) (page : Text) : List Text :=
  (i.records.filter fun r => r.imports.contains page).flatMap fun r =>
    r.fileName :: (imports r).filter fun p => styleExtensions.contains (Path.extension p)

/-- The prompt of a source file: as it was indexed, with what it imports. -/
def sourcePrompt (t : FileTree) (i : Index) (fileName : Text) : Except FileFault Text :=
  match i.recordFor? fileName with
  | none => do return Prompt.file fileName (← contents t fileName) [] []
  | some r => do
    return Prompt.file fileName r.sourceCode (← contentsOfAll t (imports r)) r.compiledCode

/-- The prompt of a file. -/
def prompt (t : FileTree) (i : Index) (fileName : Text) : Except FileFault Text :=
  if Path.extension fileName = Text.ofString ".ts" then sourcePrompt t i fileName
  else do
    let content ← contents t fileName
    let related ←
      if Path.extension fileName = Text.ofString ".html" then
        contentsOfAll t (components i fileName)
      else .ok []
    return Prompt.file fileName content related []

end Context

end SourceAtlas
