import SourceAtlas.Batch
import SourceAtlas.Proofs.Members
import SourceAtlas.Proofs.Prompting

/-!
# The loop over batches

What one batch does, and how a property of all batches follows from one of each.

* `IndexStore.discarding`: the store that keeps nothing;
* `Batches.summarizeFile_of_prompt`: the outcome for a file with a prompt, and the request;
* `Batches.fileNames_requests`: the requests of a batch;
* **`Batches.continueRun_induction`**: what holds at the start and is kept by each batch that is saved
  holds at the end, or up to the first save that fails.
-/

namespace SourceAtlas

namespace Index

theorem isSummarized_iff {i : Index} {f : Text} :
    i.isSummarized f = true ↔ f ∈ i.fileSummaries.map Prod.fst := by
  simp [isSummarized]

theorem isSummarized_eq_false_iff {i : Index} {f : Text} :
    i.isSummarized f = false ↔ f ∉ i.fileSummaries.map Prod.fst := by
  rw [← isSummarized_iff, Bool.not_eq_true]

theorem not_isSummarized_of_mem_pending {i : Index} {extensions : List Text} {f : Text}
    (h : f ∈ i.pending extensions) : f ∉ i.fileSummaries.map Prod.fst := by
  have hp := (List.mem_filter.1 h).2
  rw [Bool.and_eq_true, Bool.not_eq_true'] at hp
  exact isSummarized_eq_false_iff.1 hp.2

/-- The pending files of an index with other summaries. -/
theorem pending_of_summaries (i j : Index) (extensions : List Text) (hf : j.files = i.files)
    (hr : j.root = i.root)
    (hs : ∀ f, i.isSummarized f = true → j.isSummarized f = true) :
    j.pending extensions = (i.pending extensions).filter fun f => !j.isSummarized f := by
  unfold pending
  rw [hf, hr, List.filter_filter]
  apply List.filter_congr
  intro f _
  cases hi : i.isSummarized f with
  | false => cases j.isSummarized f <;> simp
  | true => simp [hs f hi]

theorem proper_of_isTruthy {summaries : List (Text × Json)}
    (h : ∀ m ∈ summaries, m.2.isTruthy = true) : proper summaries = summaries :=
  List.filter_eq_self.2 h

theorem merge_eq (i : Index) (summaries : List (Text × Json)) :
    i.merge summaries =
      { i with fileSummaries := Json.insertAll i.fileSummaries (proper summaries) } := rfl

end Index

/-- The store that takes every index and keeps none. -/
def IndexStore.discarding : IndexStore Unit where
  pathFor := artifactName
  refusal? _ _ := none
  holds _ _ := false
  list _ := []
  load _ path := .error (.notAnObject path)
  save _ _ _ := (.ok (), ())
  files _ := ⟨[], "/"⟩

theorem Summary.isTruthy_toJson (s : Summary) : s.toJson.isTruthy = true := rfl

namespace Batches

variable {σ : Type} (b : Batches) (store : IndexStore σ)

/-! ## One file -/

theorem summarizeFile_of_prompt {t : FileTree} {i : Index} {f prompt : Text}
    (h : Context.prompt t i f = .ok prompt) :
    b.summarizeFile t i f = (b.summarizer f prompt, [⟨f, prompt, i⟩]) := by
  rw [summarizeFile, h]

theorem summarizeFile_of_fault {t : FileTree} {i : Index} {f : Text} {fault : FileFault}
    (h : Context.prompt t i f = .error fault) : b.summarizeFile t i f = (.raised, []) := by
  rw [summarizeFile, h]

theorem fileNames_summarizeFile (t : FileTree) (i : Index) (f : Text) :
    (b.summarizeFile t i f).2.map Request.fileName = [f].filter (Context.canPrompt i) := by
  cases h : Context.canPrompt i f with
  | true =>
    obtain ⟨prompt, hp⟩ := Context.exists_prompt t i f h
    rw [summarizeFile_of_prompt b hp, List.filter_cons_of_pos h]
    rfl
  | false =>
    obtain ⟨fault, hp⟩ := Context.exists_fault t i f h
    rw [summarizeFile_of_fault b hp, List.filter_cons_of_neg (by simp [h])]
    rfl

theorem index_of_mem_summarizeFile {t : FileTree} {i : Index} {f : Text} {q : Request}
    (h : q ∈ (b.summarizeFile t i f).2) : q.index = i := by
  unfold summarizeFile at h
  split at h
  · cases h
  · rw [List.mem_singleton.1 h]

/-! ## One batch -/

/-- The outcomes of a batch, by file name. -/
def outcomes (run : BatchRun σ) (batch : List Text) : List (Text × Outcome) :=
  batch.map fun f => (f, (b.summarizeFile (store.files run.state) run.index f).1)

/-- The written summary that a file gets in a batch, if any. -/
def gained (run : BatchRun σ) (f : Text) : Option Json :=
  ((b.summarizeFile (store.files run.state) run.index f).1.summaryOf? f).map Summary.toJson

variable (run : BatchRun σ) (batch : List Text)

theorem gained_isTruthy {f : Text} {v : Json} (h : b.gained store run f = some v) :
    v.isTruthy = true := by
  obtain ⟨s, -, rfl⟩ := Option.map_eq_some_iff.1 h
  exact s.isTruthy_toJson

theorem gained_of_canPrompt {f : Text} (h : (b.gained store run f).isSome = true) :
    Context.canPrompt run.index f = true := by
  by_contra hc
  obtain ⟨fault, hf⟩ := Context.exists_fault (store.files run.state) run.index f (by simpa using hc)
  rw [gained, summarizeFile_of_fault b hf] at h
  cases h

theorem summariesOf_outcomes :
    summariesOf (b.outcomes store run batch) = Json.entries (b.gained store run) batch.eraseDups := by
  have h : ((b.outcomes store run batch).filterMap fun p =>
      (p.2.summaryOf? p.1).map fun s => (p.1, s.toJson)) = Json.entries (b.gained store run) batch := by
    unfold outcomes Json.entries gained
    rw [List.filterMap_map]
    simp only [Option.map_map, Function.comp_def]
  rw [← Json.mergeMembers_entries, ← h]
  rfl

theorem proper_summariesOf :
    Index.proper (summariesOf (b.outcomes store run batch)) =
      Json.entries (b.gained store run) batch.eraseDups := by
  rw [summariesOf_outcomes]
  refine Index.proper_of_isTruthy fun m hm => ?_
  obtain ⟨f, -, hf⟩ := List.mem_filterMap.1 hm
  obtain ⟨v, hv, rfl⟩ := Option.map_eq_some_iff.1 hf
  exact gained_isTruthy b store run hv

theorem failuresOf_outcomes :
    failuresOf (b.outcomes store run batch) = batch.filter fun f => (b.gained store run f).isNone := by
  unfold failuresOf outcomes gained
  rw [List.filter_map, List.map_map]
  simp only [Function.comp_def, List.map_id', Option.isNone_map]

/-- **One batch**: the index gains the summaries of the batch, and nothing else of it changes. -/
theorem index_summarizeBatch :
    (b.summarizeBatch store run batch).index = { run.index with
      fileSummaries := Json.insertAll run.index.fileSummaries
        (Json.entries (b.gained store run) batch.eraseDups) } := by
  have h : (b.summarizeBatch store run batch).index =
      run.index.merge (summariesOf (b.outcomes store run batch)) := by
    simp only [summarizeBatch, outcomes, List.map_map, Function.comp_def]
  rw [h, Index.merge_eq, proper_summariesOf]

theorem statistics_summarizeBatch :
    (b.summarizeBatch store run batch).statistics = { run.statistics with
      summarized := run.statistics.summarized +
        (Json.entries (b.gained store run) batch.eraseDups).length
      failed := run.statistics.failed ++ batch.filter fun f => (b.gained store run f).isNone } := by
  rw [← proper_summariesOf, ← failuresOf_outcomes]
  simp only [summarizeBatch, outcomes, List.map_map, Function.comp_def]

theorem requests_summarizeBatch :
    (b.summarizeBatch store run batch).requests = run.requests ++
      batch.flatMap fun f => (b.summarizeFile (store.files run.state) run.index f).2 := by
  simp only [summarizeBatch, List.flatMap_map]

/-- The requests of a batch are made for its files with a prompt. -/
theorem fileNames_requests :
    (b.summarizeBatch store run batch).requests.map Request.fileName =
      run.requests.map Request.fileName ++ batch.filter (Context.canPrompt run.index) := by
  rw [requests_summarizeBatch, List.map_append, List.map_flatMap]
  congr 1
  induction batch with
  | nil => rfl
  | cons f batch ih =>
    rw [List.flatMap_cons, ih, fileNames_summarizeFile, ← List.filter_append]
    rfl

/-! ## All batches -/

@[simp]
theorem continueRun_nil : b.continueRun store run [] = run := by
  rw [continueRun]

/-- The run whose save has failed. -/
def stopped (run : BatchRun σ) (fault : SaveFault) (state : σ) : BatchRun σ :=
  { run with state, fault := some fault }

variable {b store run}

theorem continueRun_of_save {pending : List Text} {state : σ} (hp : pending ≠ [])
    (hs : store.save run.state (b.summarizeBatch store run (pending.take b.size)).index
      run.statistics.path = (.ok (), state)) :
    b.continueRun store run pending =
      b.continueRun store (saved (b.summarizeBatch store run (pending.take b.size)) state)
        (pending.drop b.size) := by
  cases pending with
  | nil => exact absurd rfl hp
  | cons f others =>
    rw [continueRun]
    split
    · rename_i h; cases hs.symm.trans h
    · rename_i h; cases hs.symm.trans h; rfl

theorem continueRun_of_fault {pending : List Text} {fault : SaveFault} {state : σ}
    (hp : pending ≠ [])
    (hs : store.save run.state (b.summarizeBatch store run (pending.take b.size)).index
      run.statistics.path = (.error fault, state)) :
    b.continueRun store run pending =
      stopped (b.summarizeBatch store run (pending.take b.size)) fault state := by
  cases pending with
  | nil => exact absurd rfl hp
  | cons f others =>
    rw [continueRun]
    split
    · rename_i h; cases hs.symm.trans h; rfl
    · rename_i h; cases hs.symm.trans h

/-- **What each saved batch keeps holds at the end**, or up to the first save that fails. -/
theorem continueRun_induction (Inv : BatchRun σ → List Text → Prop) (Post : BatchRun σ → Prop)
    (finish : ∀ run, Inv run [] → Post run)
    (fail : ∀ run pending fault state, pending ≠ [] → Inv run pending →
      store.save run.state (b.summarizeBatch store run (pending.take b.size)).index
        run.statistics.path = (.error fault, state) →
      Post (stopped (b.summarizeBatch store run (pending.take b.size)) fault state))
    (step : ∀ run pending state, pending ≠ [] → Inv run pending →
      store.save run.state (b.summarizeBatch store run (pending.take b.size)).index
        run.statistics.path = (.ok (), state) →
      Inv (saved (b.summarizeBatch store run (pending.take b.size)) state) (pending.drop b.size))
    (pending : List Text) (run : BatchRun σ) (h : Inv run pending) :
    Post (b.continueRun store run pending) := by
  by_cases hp : pending = []
  · subst hp
    rw [continueRun_nil]
    exact finish run h
  · obtain ⟨result, state, hs⟩ : ∃ result state, store.save run.state
        (b.summarizeBatch store run (pending.take b.size)).index run.statistics.path =
          (result, state) := ⟨_, _, rfl⟩
    cases result with
    | error fault =>
      rw [continueRun_of_fault hp hs]
      exact fail run pending fault state hp h hs
    | ok _ =>
      have := b.size_pos
      have hlt : (pending.drop b.size).length < pending.length := by
        have := List.length_pos_iff.2 hp
        rw [List.length_drop]
        omega
      rw [continueRun_of_save hp hs]
      exact continueRun_induction Inv Post finish fail step _ _ (step run pending state hp h hs)
termination_by pending.length

end Batches

end SourceAtlas
