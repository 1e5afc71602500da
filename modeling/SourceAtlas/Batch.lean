import SourceAtlas.Context
import SourceAtlas.Store
import SourceAtlas.Summary

/-!
# Summarizing in batches

The files of an index that have no summary yet are summarized batch by batch, and the index is
saved after each batch. A run that was cut short is taken up where the last save left it.

* `Summarizer`, `Outcome`: the summary of one file, or a failure;
* `Index.pending`: the files to summarize;
* `Batches`: how files are summarized, and how many between two saves;
* `Statistics`, `BatchRun`: what a run comes to;
* `Batches.summarizeIndex`, `Batches.summarizeStore`: runs over one index and over all of a store.
-/

namespace SourceAtlas

/-! ## Summarizers -/

/-- What came of summarizing a file: summaries by file name, or a failure that no one expected. -/
inductive Outcome where
  | answered (summaries : List (Text × Summary))
  | raised

/-- The summary of a file. -/
def Outcome.summaryOf? (fileName : Text) : Outcome → Option Summary
  | answered summaries => Json.member? fileName summaries
  | raised => none

/-- Summarizes a file by its prompt. -/
abbrev Summarizer := (fileName prompt : Text) → Outcome

/-- A request to the summarizer, and the index at that time. -/
structure Request where
  fileName : Text
  prompt : Text
  index : Index

/-! ## Pending files -/

/-- The extensions of the files that are summarized. -/
def summarizableExtensions : List Text := [".html", ".ts", ".json", ".yaml", ".yml"]

/-- The files of these extensions without a summary, in tracked order. -/
def Index.pending (i : Index) (extensions : List Text) : List Text :=
  (i.files.map fun path => Path.normalize (Path.join i.root path)).filter fun fileName =>
    extensions.contains (Path.extension fileName) && !i.isSummarized fileName

/-! ## Runs -/

/-- What a run over an index comes to. -/
structure Statistics where
  path : Text
  total : Nat
  summarized : Nat
  failed : List Text
  batches : Nat
deriving DecidableEq

/-- How files are summarized, and how many between two saves. -/
structure Batches where
  summarizer : Summarizer
  size : Nat
  size_pos : 0 < size
  extensions : List Text

/-- A run over an index so far, or at its end: the index in memory, the state of the store, what
happened, the requests in order, and the save that failed if one did. -/
structure BatchRun (σ : Type) where
  index : Index
  state : σ
  statistics : Statistics
  requests : List Request
  fault : Option SaveFault

namespace Batches

/-- Batches of a size, which has to be positive. -/
def ofSize (summarizer : Summarizer) (size : Int) (extensions : List Text) : Except Text Batches :=
  if h : 0 < size then
    .ok { summarizer, size := size.toNat, size_pos := by omega, extensions }
  else .error "batch_size must be > 0"

/-- The outcome for one file, and the request if its prompt could be made. -/
def summarizeFile (b : Batches) (t : FileTree) (i : Index) (fileName : Text) :
    Outcome × List Request :=
  match Context.prompt t i fileName with
  | .error _ => (.raised, [])
  | .ok prompt => (b.summarizer fileName prompt, [⟨fileName, prompt, i⟩])

/-- The summaries that the outcomes of files give, by file name. -/
def summariesOf (outcomes : List (Text × Outcome)) : List (Text × Json) :=
  Json.mergeMembers (outcomes.filterMap fun (fileName, o) =>
    (o.summaryOf? fileName).map fun s => (fileName, s.toJson))

/-- The files whose outcome gives no summary. -/
def failuresOf (outcomes : List (Text × Outcome)) : List Text :=
  (outcomes.filter fun (fileName, o) => (o.summaryOf? fileName).isNone).map Prod.fst

/-- The run after one more batch, before it is saved. -/
def summarizeBatch {σ : Type} (b : Batches) (store : IndexStore σ) (run : BatchRun σ)
    (batch : List Text) : BatchRun σ :=
  let done := batch.map fun fileName =>
    (fileName, b.summarizeFile (store.files run.state) run.index fileName)
  let outcomes := done.map fun (fileName, o) => (fileName, o.1)
  let summaries := summariesOf outcomes
  { run with
    index := run.index.merge summaries
    statistics := { run.statistics with
      summarized := run.statistics.summarized + (Index.proper summaries).length
      failed := run.statistics.failed ++ failuresOf outcomes }
    requests := run.requests ++ done.flatMap fun (_, o) => o.2 }

/-- The run once its index is saved. -/
def saved {σ : Type} (run : BatchRun σ) (state : σ) : BatchRun σ :=
  { run with state, statistics := { run.statistics with batches := run.statistics.batches + 1 } }

/-- The run over files that are still to be summarized, up to the first save that fails. -/
def continueRun {σ : Type} (b : Batches) (store : IndexStore σ) (run : BatchRun σ) :
    (pending : List Text) → BatchRun σ
  | [] => run
  | fileName :: others =>
    let pending := fileName :: others
    let run := b.summarizeBatch store run (pending.take b.size)
    match store.save run.state run.index run.statistics.path with
    | (.error fault, state) => { run with state, fault := some fault }
    | (.ok (), state) => continueRun b store (saved run state) (pending.drop b.size)
termination_by pending => pending.length
decreasing_by
  have := b.size_pos
  simp only [List.length_drop, List.length_cons]
  omega

/-- The run over the pending files of an index, whose artifact stands at a path. -/
def summarizeIndex {σ : Type} (b : Batches) (store : IndexStore σ) (index : Index) (path : Text)
    (state : σ) : BatchRun σ :=
  let pending := index.pending b.extensions
  b.continueRun store
    { index, state, requests := [], statistics := ⟨path, pending.length, 0, [], 0⟩, fault := none }
    pending

/-- Why a run over a whole store ends early. -/
inductive StoreFault where
  | load (fault : LoadFault)
  | save (fault : SaveFault)

/-- What runs over artifacts come to. -/
structure StoreRun (σ : Type) where
  result : Except StoreFault (List Statistics)
  state : σ
  requests : List Request

/-- Runs over artifacts, one after the other, up to the first fault. -/
def summarizePaths {σ : Type} (b : Batches) (store : IndexStore σ) : List Text → σ → StoreRun σ
  | [], state => ⟨.ok [], state, []⟩
  | path :: paths, state =>
    match store.load state path with
    | .error fault => ⟨.error (.load fault), state, []⟩
    | .ok index =>
      let run := b.summarizeIndex store index path state
      match run.fault with
      | some fault => ⟨.error (.save fault), run.state, run.requests⟩
      | none =>
        let others := summarizePaths b store paths run.state
        { others with
          result := others.result.map fun results => run.statistics :: results
          requests := run.requests ++ others.requests }

/-- Runs over all artifacts of a store, in the order of their paths. -/
def summarizeStore {σ : Type} (b : Batches) (store : IndexStore σ) (state : σ) : StoreRun σ :=
  b.summarizePaths store (store.list state) state

end Batches

end SourceAtlas
