import SourceAtlas.Proofs.Batch.Loop

/-!
# Files summarized at most once

Whether a run summarizes each file at most once is decided by the tracked paths: the run does so
exactly when no two of the paths that it comes to name one file.

* `Index.Keeps`: an index holds every summary that another one holds;
* `Batches.AtMostOnce`: no file is summarized again, and no saved summary is changed;
* `Batches.Visited`: what a run holds after some files; `Batches.Visited.next` is one batch;
* **`Batches.atMostOnce_iff`**: a run summarizes at most once exactly when the files that it comes to
  are distinct;
* `Batches.atMostOnce_iff_twoSpellings`: a run that does, and one over two spellings of a path.
-/

namespace SourceAtlas

namespace Index

/-- `j` holds every summary that `i` holds. -/
def Keeps (i j : Index) : Prop :=
  ∀ f v, Json.member? f i.fileSummaries = some v → Json.member? f j.fileSummaries = some v

theorem Keeps.refl (i : Index) : i.Keeps i := fun _ _ h => h

theorem Keeps.trans {i j k : Index} (h : i.Keeps j) (h' : j.Keeps k) : i.Keeps k :=
  fun f v hv => h' f v (h f v hv)

end Index

namespace Batches

variable {σ : Type} {b : Batches} {store : IndexStore σ} {i : Index} {done batch : List Text}
  {run : BatchRun (σ × List (Text × Index))}

/-- The initial index and the indexes that a run has saved. -/
def artifacts (i : Index) (run : BatchRun (σ × List (Text × Index))) : List Index :=
  i :: run.state.2.map Prod.snd

/-- A run over an index summarizes no file that has its summary, no file twice, and saves no other
summary in place of one that was there. -/
structure AtMostOnce (i : Index) (run : BatchRun (σ × List (Text × Index))) : Prop where
  fresh : ∀ q ∈ run.requests, q.index.isSummarized q.fileName = false
  once : (run.requests.map Request.fileName).Nodup
  kept : (artifacts i run).Pairwise Index.Keeps

/-! ## Visited files -/

/-- What a run over an index holds after the files `done`. -/
structure Visited (i : Index) (done : List Text) (run : BatchRun (σ × List (Text × Index))) :
    Prop where
  records : run.index.records = i.records
  summarized : ∀ f, run.index.isSummarized f = true →
    i.isSummarized f = true ∨ f ∈ done.filter (Context.canPrompt i)
  requests : run.requests.map Request.fileName = done.filter (Context.canPrompt i)
  fresh : (done.filter (Context.canPrompt i)).Nodup →
    ∀ q ∈ run.requests, q.index.isSummarized q.fileName = false
  kept : (done.filter (Context.canPrompt i)).Nodup →
    (artifacts i run).Pairwise Index.Keeps ∧ ∀ j ∈ artifacts i run, j.Keeps run.index

theorem Visited.start (s : σ) (path : Text) (total : Nat) :
    Visited i [] ⟨i, (s, []), ⟨path, total, 0, [], 0⟩, [], none⟩ where
  records := rfl
  summarized _ h := .inl h
  requests := rfl
  fresh _ := by simp
  kept _ := ⟨List.pairwise_singleton _ _, by simp [artifacts, Index.Keeps.refl]⟩

theorem Visited.stopped (h : Visited i done run) (fault : SaveFault) (t : σ) :
    Visited i done (stopped run fault (t, run.state.2)) :=
  ⟨h.records, h.summarized, h.requests, h.fresh, h.kept⟩

theorem Visited.saved (h : Visited i done run) (t : σ) (path : Text) :
    Visited i done (saved run (t, run.state.2 ++ [(path, run.index)])) where
  records := h.records
  summarized := h.summarized
  requests := h.requests
  fresh := h.fresh
  kept hn := by
    obtain ⟨hp, hl⟩ := h.kept hn
    have ha : artifacts i (Batches.saved run (t, run.state.2 ++ [(path, run.index)])) =
        artifacts i run ++ [run.index] := by
      simp [artifacts, Batches.saved]
    rw [ha, List.pairwise_append]
    refine ⟨⟨hp, List.pairwise_singleton _ _, ?_⟩, ?_⟩
    · simpa using hl
    · intro j hj
      rcases List.mem_append.1 hj with hj | hj
      · exact hl j hj
      · rw [List.mem_singleton.1 hj]
        exact Index.Keeps.refl _

/-- The files of a batch that get a summary. -/
theorem mem_keys_gained (store : IndexStore (σ × List (Text × Index))) (h : Visited i done run)
    {f : Text}
    (hf : f ∈ (Json.entries (b.gained store run) batch.eraseDups).map Prod.fst) :
    f ∈ batch.filter (Context.canPrompt i) := by
  obtain ⟨hb, hg⟩ := Json.mem_keys_entries.1 hf
  rw [List.mem_filter, ← Context.canPrompt_congr f h.records]
  exact ⟨List.mem_eraseDups.1 hb, gained_of_canPrompt b store run hg⟩

/-- Files that were neither visited before nor summarized at the start have no summary yet. -/
theorem Visited.isSummarized_eq_false (h : Visited i done run)
    (hb : ∀ f ∈ batch, f ∉ i.fileSummaries.map Prod.fst)
    (hn : ((done ++ batch).filter (Context.canPrompt i)).Nodup) {f : Text}
    (hf : f ∈ batch.filter (Context.canPrompt i)) : run.index.isSummarized f = false := by
  rw [List.filter_append, List.nodup_append'] at hn
  by_contra hs
  rcases h.summarized f (by simpa using hs) with hi | hd
  · exact hb f (List.mem_filter.1 hf).1 (Index.isSummarized_iff.1 hi)
  · exact hn.2.2 hd hf

/-- **One batch** visits its files. -/
theorem Visited.next (store : IndexStore (σ × List (Text × Index))) (h : Visited i done run)
    (hb : ∀ f ∈ batch, f ∉ i.fileSummaries.map Prod.fst) :
    Visited i (done ++ batch) (b.summarizeBatch store run batch) where
  records := by
    rw [index_summarizeBatch]
    exact h.records
  summarized f hf := by
    rw [index_summarizeBatch, Index.isSummarized_iff, Json.mem_keys_insertAll] at hf
    rw [List.filter_append, List.mem_append]
    rcases hf with hf | hf
    · rcases h.summarized f (Index.isSummarized_iff.2 hf) with hi | hd
      · exact .inl hi
      · exact .inr (.inl hd)
    · exact .inr (.inr (mem_keys_gained store h hf))
  requests := by
    rw [fileNames_requests, h.requests, List.filter_append]
    congr 1
    exact List.filter_congr fun f _ => Context.canPrompt_congr f h.records
  fresh hn q hq := by
    rw [requests_summarizeBatch, List.mem_append, List.mem_flatMap] at hq
    have hd := hn
    rw [List.filter_append, List.nodup_append'] at hd
    rcases hq with hq | ⟨f, hf, hq⟩
    · exact h.fresh hd.1 q hq
    · have hname : q.fileName ∈ [f].filter (Context.canPrompt run.index) := by
        rw [← fileNames_summarizeFile b (store.files run.state)]
        exact List.mem_map_of_mem hq
      rw [List.mem_filter, List.mem_singleton, Context.canPrompt_congr _ h.records] at hname
      rw [index_of_mem_summarizeFile b hq]
      refine h.isSummarized_eq_false hb hn (List.mem_filter.2 ⟨?_, hname.2⟩)
      rwa [hname.1]
  kept hn := by
    have hd := hn
    rw [List.filter_append, List.nodup_append'] at hd
    obtain ⟨hp, hl⟩ := h.kept hd.1
    refine ⟨hp, fun j hj => (hl j hj).trans fun f v hv => ?_⟩
    rw [index_summarizeBatch, Json.member?_insertAll_of_not_mem, hv]
    intro hf
    have hs := h.isSummarized_eq_false hb hn (mem_keys_gained store h hf)
    rw [Index.isSummarized_eq_false_iff, ← Json.member?_eq_none_iff, hv] at hs
    cases hs

/-! ## Runs -/

/-- The pending files that a run has come to: all of them, or those up to the first save that
failed. -/
def attempted (b : Batches) (i : Index) (run : BatchRun (σ × List (Text × Index))) : List Text :=
  match run.fault with
  | none => i.pending b.extensions
  | some _ => (i.pending b.extensions).take ((run.statistics.batches + 1) * b.size)

/-- A run has come to its saved batches, with these files still to be summarized. -/
structure Underway (b : Batches) (i : Index) (run : BatchRun (σ × List (Text × Index)))
    (pending : List Text) : Prop where
  going : run.fault = none
  pending : pending = (i.pending b.extensions).drop (run.statistics.batches * b.size)
  visited : Visited i ((i.pending b.extensions).take (run.statistics.batches * b.size)) run

theorem Underway.next (store : IndexStore (σ × List (Text × Index))) {pending : List Text}
    (h : Underway b i run pending) :
    Visited i ((i.pending b.extensions).take ((run.statistics.batches + 1) * b.size))
      (b.summarizeBatch store run (pending.take b.size)) := by
  rw [Nat.succ_mul, List.take_add, ← h.pending]
  refine h.visited.next store fun f hf => ?_
  rw [h.pending] at hf
  exact Index.not_isSummarized_of_mem_pending (List.mem_of_mem_drop (List.mem_of_mem_take hf))

theorem visited_summarizeIndex (b : Batches) (store : IndexStore σ) (i : Index) (path : Text)
    (s : σ) :
    Visited i (attempted b i (b.summarizeIndex store.recording i path (s, [])))
      (b.summarizeIndex store.recording i path (s, [])) := by
  unfold summarizeIndex
  refine continueRun_induction (Underway b i) (fun run => Visited i (attempted b i run) run)
    (fun run h => ?_) (fun run pending fault state _ h hs => ?_)
    (fun run pending state _ h hs => ?_) _ _ ?_
  · have hdrop := h.pending
    rw [eq_comm, List.drop_eq_nil_iff] at hdrop
    have hv := h.visited
    rw [List.take_of_length_le hdrop] at hv
    rw [attempted, h.going]
    exact hv
  · have hn := h.next store.recording
    obtain ⟨t, rfl⟩ : ∃ t, state = (t, run.state.2) := by
      simp only [IndexStore.recording] at hs
      split at hs <;> cases hs
      exact ⟨_, rfl⟩
    exact hn.stopped fault t
  · have hn := h.next store.recording
    obtain ⟨t, rfl⟩ : ∃ t, state = (t, run.state.2 ++ [(run.statistics.path,
        (b.summarizeBatch store.recording run (pending.take b.size)).index)]) := by
      simp only [IndexStore.recording] at hs
      split at hs <;> cases hs
      exact ⟨_, rfl⟩
    refine ⟨h.going, ?_, hn.saved t run.statistics.path⟩
    rw [h.pending, List.drop_drop, ← Nat.succ_mul]
    rfl
  · exact ⟨rfl, by simp, by simpa using Visited.start s path _⟩

/-- **A run summarizes each file at most once exactly when the files that it comes to are distinct.**
Files whose prompt cannot be made are never summarized, so they may repeat. Nothing makes the tracked
paths of an index distinct: two spellings of one path are pending twice. -/
theorem atMostOnce_iff (b : Batches) (store : IndexStore σ) (i : Index) (path : Text) (s : σ) :
    let run := b.summarizeIndex store.recording i path (s, [])
    AtMostOnce i run ↔ ((attempted b i run).filter (Context.canPrompt i)).Nodup := by
  intro run
  have h : Visited i (attempted b i run) run := visited_summarizeIndex b store i path s
  constructor
  · intro ho
    rw [← h.requests]
    exact ho.once
  · intro hn
    refine ⟨h.fresh hn, ?_, (h.kept hn).1⟩
    rw [h.requests]
    exact hn

/-- A run whose files fit into one batch comes to all of them, whether its save fails or not. -/
theorem attempted_of_length_le (h : (i.pending b.extensions).length ≤ b.size) :
    attempted b i run = i.pending b.extensions := by
  unfold attempted
  split
  · rfl
  · exact List.take_of_length_le (Nat.le_trans h (Nat.le_mul_of_pos_left _ (Nat.succ_pos _)))

/-- Batches of two files, each of which gets a summary. -/
def pairs : Batches where
  summarizer f _ := .answered [(f, ⟨"text", .ui, .null, none, none, none⟩)]
  size := 2
  size_pos := Nat.two_pos
  extensions := [".ts"]

/-- Two files are summarized once each; a file that is tracked under two spellings is not. -/
theorem atMostOnce_iff_twoSpellings :
    let run (i : Index) :=
      pairs.summarizeIndex IndexStore.discarding.recording i "/ast-r.json" ((), [])
    let distinct : Index := ⟨"/r", ["a.ts", "b.ts"], [], [], none⟩
    let same : Index := ⟨"/r", ["a.ts", "./a.ts"], [], [], none⟩
    AtMostOnce distinct (run distinct) ∧ ¬ AtMostOnce same (run same) := by
  refine ⟨(atMostOnce_iff pairs _ _ _ _).2 ?_, fun h => ?_⟩
  · rw [attempted_of_length_le (by decide +kernel)]
    decide +kernel
  · have hn := (atMostOnce_iff pairs _ _ _ _).1 h
    rw [attempted_of_length_le (by decide +kernel)] at hn
    exact absurd hn (by decide +kernel)

end Batches

end SourceAtlas
