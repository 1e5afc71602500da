import SourceAtlas.CompilerOptions
import SourceAtlas.Extraction
import SourceAtlas.Repository
import SourceAtlas.Store
import SourceAtlas.TypeScript.Parse

/-!
# Indexing

Builds the index of a repository: one record for each tracked source file, whatever happens to
other files.

* `Extractor`, `Extractor.ofParser`: takes the structure from a source, or fails;
* `Indexer`: the extractor, the excluded paths and the extension of source files;
* `Indexer.record`: the record of one file;
* `Indexer.index`: the index of a repository;
* `Indexer.indexAll`: the artifacts of repositories that have none yet.
-/

namespace SourceAtlas

/-- Takes the structure from the source of a file; `none` when it fails as a whole. -/
abbrev Extractor := (fileName source : Text) → Option Extraction

/-- The extractor that works on the syntax trees of a parser, which is a library of its own. A source
with half of a surrogate pair has no octets. -/
def Extractor.ofParser (parse : Bytes → Tree) (finder : ReferenceFinder) : Extractor :=
  fun _ source =>
    (Utf8.encode? source).map fun octets => Extraction.ofTree finder octets (parse octets)

/-- The extractor for TypeScript by a parser for most of the language. -/
def Extractor.typeScript (finder : ReferenceFinder) : Extractor := .ofParser TypeScript.parse finder

/-- Why a repository has no index, or the index no artifact. -/
inductive IndexingFault where
  | repository (fault : RepositoryFault)
  | options (fault : OptionsFault)
  | file (fault : FileFault)
  | noHome
  | save (fault : SaveFault)

/-- The failure that a fault leads to. -/
def IndexingFault.failure : IndexingFault → Failure
  | repository fault => fault.failure
  | options fault => .broken fault.breakdown
  | file fault => .broken fault.breakdown
  | noHome => .broken ⟨.runtime, "Could not determine home directory."⟩
  | save fault => fault.failure

/-- What files are indexed, and how. -/
structure Indexer where
  extractor : Extractor
  excluded : List Text
  sourceExtension : Text

namespace Indexer

/-- The record of a file whose structure is known. -/
def recordOf (t : FileTree) (resolver : Resolver) (root fileName source : Text) (e : Extraction) :
    SourceRecord where
  repository := root
  fileName
  imports := (e.imports.map fun s => resolver.resolve t s fileName) ++
    e.references.map fun r => resolveReference t r fileName
  functions := e.functions
  classes := e.classes
  interfaces := e.interfaces
  sourceCode := source
  compiledCode := e.compiled

/-- The record of one file. An unreadable file has neither structure nor text, a file whose
extraction fails has its text alone. -/
def record (indexer : Indexer) (t : FileTree) (resolver : Resolver) (root fileName : Text) :
    Except IndexingFault SourceRecord :=
  match t.readText fileName with
  | .error (.file (.unfit why)) => .error (.file (.unfit why))
  | .error _ => .ok (.bare root fileName)
  | .ok source =>
    match indexer.extractor fileName source with
    | none => .ok { SourceRecord.bare root fileName with sourceCode := source }
    | some e => .ok (recordOf t resolver root fileName source e)

/-- The root of a repository: absolute, with the home directory filled in. -/
def rootOf (host : Host) (t : FileTree) (repository : Text) : Except IndexingFault Text :=
  match Path.expandHome host.home repository with
  | none => .error .noHome
  | some path =>
    match Path.fault? path with
    | some why => .error (.file (.unfit why))
    | none => .ok (Path.absolute t.current path)

/-- The index of a repository. -/
def index (indexer : Indexer) (host : Host) (t : FileTree) (repository : Text) :
    Except IndexingFault Index := do
  let root ← rootOf host t repository
  let files ← (Repository.trackedFiles host t indexer.excluded root).mapError .repository
  let paths ← (ModulePaths.ofRepository t root).mapError .options
  let resolver := paths.resolver indexer.sourceExtension
  let sources := (files.filter fun f => f.endsWith indexer.sourceExtension).map (Path.child root)
  let records ← sources.mapM (indexer.record t resolver root)
  return { repository := root, files, records, fileSummaries := [], repoSummary := none }

/-- Writes the artifact of each repository that has none, or of each repository. The result holds
the paths written; a fault ends the work and leaves what was written. -/
def indexAll {σ : Type} (indexer : Indexer) (host : Host) (store : IndexStore σ) (reindex : Bool) :
    List Text → σ → Except IndexingFault (List Text) × σ
  | [], s => (.ok [], s)
  | r :: rs, s =>
    let repository := r.trim
    let path := store.pathFor repository
    match store.refusal? s repository with
    | some fault => (.error (.file fault), s)
    | none =>
      if store.holds s repository && !reindex then indexAll indexer host store reindex rs s
      else match indexer.index host (store.files s) repository with
        | .error fault => (.error fault, s)
        | .ok i =>
          match store.save s i path with
          | (.error fault, s') => (.error (.save fault), s')
          | (.ok (), s') =>
            match indexAll indexer host store reindex rs s' with
            | (.ok paths, s'') => (.ok (path :: paths), s'')
            | (.error fault, s'') => (.error fault, s'')

end Indexer

end SourceAtlas
