import SourceAtlas.Erasure
import SourceAtlas.Outline.OfTree

/-!
# Extraction

What is taken from one source file. The parts are found apart from each other: a fault in one
leaves the others whole.

* `ReferenceFinder`: finds the files that a decorator argument refers to, or fails with a message;
* `Extraction`: the outline of a file, its imports, references and erased text, and the faults;
* `Extraction.ofTree`.
-/

namespace SourceAtlas

/-- Finds the files that a decorator argument refers to. A failure carries its message. -/
abbrev ReferenceFinder := Text → Except Text (List Text)

/-- The parts of an extraction that can fail. -/
inductive ExtractionPart where
  | decoratorReferences
deriving DecidableEq

/-- A part of an extraction that failed, and why. -/
structure PartFault where
  part : ExtractionPart
  message : Text
deriving DecidableEq

/-- What is taken from one source file. -/
structure Extraction where
  functions : List FunctionOutline
  classes : List ClassOutline
  interfaces : List InterfaceOutline
  imports : List Text
  references : List Text
  compiled : Text
  faults : List PartFault
deriving DecidableEq

/-- The references of all texts, or the first failure. -/
def ReferenceFinder.all (finder : ReferenceFinder) : List Text → Except Text (List Text)
  | [] => .ok []
  | t :: ts => do
    let found ← finder t
    let others ← all finder ts
    return found ++ others

/-- Finds references by their keys, and never fails. -/
def ReferenceFinder.byKey : ReferenceFinder := fun t => .ok (Reference.extract t)

/-- What the syntax tree of a source shows. -/
def Extraction.ofTree (finder : ReferenceFinder) (source : Bytes) (root : Tree) : Extraction :=
  let classes := Tree.classOutlines source root
  let found := finder.all (decoratorArguments classes)
  { functions := Tree.functionOutlines source root
    classes
    interfaces := Tree.interfaceOutlines source root
    imports := Tree.importSpecifiers source root
    references := match found with
      | .ok rs => rs
      | .error _ => []
    compiled := Erasure.erase source root
    faults := match found with
      | .ok _ => []
      | .error message => [⟨.decoratorReferences, message⟩] }

end SourceAtlas
