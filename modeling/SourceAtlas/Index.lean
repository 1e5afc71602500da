import SourceAtlas.Failure
import SourceAtlas.Outline.Json

/-!
# Indexes

An index holds what is known of one repository: its tracked files, the outlines of its source
files, and the summaries written so far.

* `SourceRecord`: the outline of one source file with its text;
* `Index`, `Index.root`, `Index.recordFor?`, `Index.isSummarized`;
* `Index.merge`: adds summaries; one that is there already stays in its place;
* `Index.toJson`, `Index.ofJson`: the written form.
-/

namespace SourceAtlas

open Json (memberOr itemsOf truthyOr shown fields)

/-! ## Records -/

/-- What is recorded of one source file. -/
structure SourceRecord where
  repository : Text
  fileName : Text
  imports : List Text
  functions : List FunctionOutline
  classes : List ClassOutline
  interfaces : List InterfaceOutline
  sourceCode : Text
  compiledCode : Text
deriving DecidableEq

namespace SourceRecord

/-- A record without structure and text. -/
def bare (repository fileName : Text) : SourceRecord :=
  ⟨repository, fileName, [], [], [], [], [], []⟩

def toJson (r : SourceRecord) : Json :=
  fields [("repository", .text r.repository), ("fileName", .text r.fileName),
    ("imports", .texts r.imports), ("functions", .list (r.functions.map FunctionOutline.toJson)),
    ("classes", .list (r.classes.map ClassOutline.toJson)),
    ("interfaces", .list (r.interfaces.map InterfaceOutline.toJson)),
    ("sourceCode", .text r.sourceCode), ("compiledCode", .text r.compiledCode)]

/-- The items of the member `key`; none if it is missing, null, false, zero or empty. -/
def listOrEmpty {α : Type} (key : Text) (read : Json → Except ShapeFault α) (v : Json) :
    Except ShapeFault (List α) := do
  (← itemsOf (← truthyOr (.list []) key v)).mapM read

/-- The member `key` as a text; empty if it is missing, null, false, zero or empty. -/
def textOrEmpty (key : Text) (v : Json) : Except ShapeFault Text :=
  shown <$> truthyOr (.text []) key v

def ofJson (v : Json) : Except ShapeFault SourceRecord := do
  return {
    repository := ← Json.textMember "repository" v
    fileName := ← Json.textMember "fileName" v
    imports := ← listOrEmpty "imports" (fun i => .ok i.shown) v
    functions := ← listOrEmpty "functions" FunctionOutline.ofJson v
    classes := ← listOrEmpty "classes" ClassOutline.ofJson v
    interfaces := ← listOrEmpty "interfaces" InterfaceOutline.ofJson v
    sourceCode := ← textOrEmpty "sourceCode" v
    compiledCode := ← textOrEmpty "compiledCode" v }

end SourceRecord

/-! ## Indexes -/

/-- What is known of one repository. Each file has at most one summary. -/
structure Index where
  repository : Text
  files : List Text
  records : List SourceRecord
  fileSummaries : List (Text × Json)
  repoSummary : Option Json

namespace Index

/-- The root of the repository, in older indexes the one that the first record names. -/
def root (i : Index) : Text :=
  if i.repository.isEmpty then ((i.records.head?).map SourceRecord.repository).getD []
  else i.repository

/-- The record of a file. -/
def recordFor? (i : Index) (fileName : Text) : Option SourceRecord :=
  i.records.find? fun r => r.fileName = fileName

/-- The file has a summary. -/
def isSummarized (i : Index) (fileName : Text) : Bool :=
  i.fileSummaries.any fun s => s.1 = fileName

/-- The summaries that are neither null, false, zero nor empty. -/
def proper (summaries : List (Text × Json)) : List (Text × Json) :=
  summaries.filter fun s => s.2.isTruthy

/-- The index with more summaries. Improper ones are left out. -/
def merge (i : Index) (summaries : List (Text × Json)) : Index :=
  { i with fileSummaries :=
      (proper summaries).foldl (fun ms s => Json.insertMember s.1 s.2 ms) i.fileSummaries }

/-! ## Written form -/

def toJson (i : Index) : Json :=
  .object (
    [(Text.ofString "repository", .text i.repository), ("files", .texts i.files),
      ("codebaseInfo", .list (i.records.map SourceRecord.toJson)),
      ("fileSummaries", .object i.fileSummaries)] ++
    match i.repoSummary with
    | some s => [(Text.ofString "repoSummary", s)]
    | none => [])

/-- The text of the written form. -/
def text (i : Index) : Text := i.toJson.indented

/-- A value as the key of a member. -/
def keyText : Json → Except ShapeFault Text
  | .text t => .ok t
  | .list _ => .error .compoundKey
  | .object _ => .error .compoundKey
  | v => .ok v.compact

/-- The members that a list of pairs stands for. -/
def pairsFrom (index : Nat) : List Json → Except ShapeFault (List (Text × Json))
  | [] => .ok []
  | v :: vs => do
    match ← itemsOf v with
    | [k, w] =>
      let key ← keyText k
      return (key, w) :: (← pairsFrom (index + 1) vs)
    | items => .error (.notAPair index items.length)

/-- The members of a mapping, which a list of pairs may stand for. -/
def mapping : Json → Except ShapeFault (List (Text × Json))
  | .object ms => .ok ms
  | v => do return Json.mergeMembers (← pairsFrom 0 (← itemsOf v))

def ofJson (v : Json) : Except ShapeFault Index := do
  let repository := (← truthyOr (.text []) "repository" v).shown
  let files ← SourceRecord.listOrEmpty "files" (fun f => .ok f.shown) v
  let records ← SourceRecord.listOrEmpty "codebaseInfo" SourceRecord.ofJson v
  let fileSummaries ← mapping (← truthyOr (.object []) "fileSummaries" v)
  let repoSummary := match v.get? "repoSummary" with
    | none => none
    | some .null => none
    | some s => some s
  return { repository, files, records, fileSummaries, repoSummary }

end Index

/-- The breakdown that a value without a reading leads to. -/
def ShapeFault.breakdown : ShapeFault → Breakdown
  | notAnObject => ⟨.attribute, []⟩
  | notAList => ⟨.type, []⟩
  | compoundKey => ⟨.type, []⟩
  | notAPair index length =>
    ⟨.value, "dictionary update sequence element #" ++ Text.ofNat index ++ " has length " ++
      Text.ofNat length ++ "; 2 is required"⟩

end SourceAtlas
