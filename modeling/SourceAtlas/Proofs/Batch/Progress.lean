import SourceAtlas.Proofs.Batch.Loop

/-!
# The progress of a run

When the outcome for a file depends on its name alone, all that a run does is told by how many
batches it has come to: what the index holds, which files have failed, and what was saved.

* `Batches.byName`: batches with an outcome for each file name;
* `Index.summaryFor`, `Index.withSummaries`: the summary that a file gets, and the index with the
  summaries of files;
* `Batches.Progress`: what a run holds after some files; `Batches.Progress.next` is one batch;
* `Batches.ended_summarizeIndex`: a run ends after its last batch, or at the first save that fails;
* **`Batches.summarizeIndex_recording`**: what a run saves and comes to when its saves succeed.
-/

namespace SourceAtlas

/-! ## Outcomes by name -/

/-- Batches in which the outcome for a file depends on its name alone. -/
def Batches.byName (outcome : Text → Outcome) (size : Nat) (size_pos : 0 < size)
    (extensions : List Text) : Batches where
  summarizer fileName _ := outcome fileName
  size := size
  size_pos := size_pos
  extensions := extensions

@[simp]
theorem Batches.size_byName (outcome : Text → Outcome) (size : Nat) (size_pos : 0 < size)
    (extensions : List Text) : (byName outcome size size_pos extensions).size = size := rfl

@[simp]
theorem Batches.extensions_byName (outcome : Text → Outcome) (size : Nat) (size_pos : 0 < size)
    (extensions : List Text) :
    (byName outcome size size_pos extensions).extensions = extensions := rfl

namespace Index

/-- The written summary that a file gets: its prompt can be made, and the outcome for it holds one.
A file without a prompt counts as one whose outcome is a failure. -/
def summaryFor (i : Index) (outcome : Text → Outcome) (fileName : Text) : Option Json :=
  if Context.canPrompt i fileName then ((outcome fileName).summaryOf? fileName).map Summary.toJson
  else none

/-- The index with the summaries that files get, each file once and in the order in which the files
first occur. -/
def withSummaries (i : Index) (outcome : Text → Outcome) (files : List Text) : Index :=
  { i with fileSummaries := i.fileSummaries ++ Json.entries (i.summaryFor outcome) files.eraseDups }

variable {i : Index} {outcome : Text → Outcome}

theorem summaryFor_congr {j : Index} (h : j.records = i.records) :
    j.summaryFor outcome = i.summaryFor outcome := by
  funext f
  rw [summaryFor, summaryFor, Context.canPrompt_congr f h]

@[simp]
theorem withSummaries_nil : i.withSummaries outcome [] = i := by
  simp [withSummaries, Json.entries]

theorem isSummarized_withSummaries {files : List Text} {f : Text} :
    (i.withSummaries outcome files).isSummarized f = true ↔
      i.isSummarized f = true ∨ f ∈ files ∧ (i.summaryFor outcome f).isSome = true := by
  rw [isSummarized_iff, isSummarized_iff, withSummaries, List.map_append, List.mem_append,
    Json.mem_keys_entries, List.mem_eraseDups]

/-- The pending files after some have got their summaries. -/
theorem pending_withSummaries (extensions files : List Text) :
    (i.withSummaries outcome files).pending extensions = (i.pending extensions).filter fun f =>
      !(decide (f ∈ files) && (i.summaryFor outcome f).isSome) := by
  have hs : ∀ f, i.isSummarized f = true → (i.withSummaries outcome files).isSummarized f = true :=
    fun f hf => isSummarized_withSummaries.2 (.inl hf)
  rw [pending_of_summaries i (i.withSummaries outcome files) extensions rfl rfl hs]
  apply List.filter_congr
  intro f hf
  have hi := not_isSummarized_of_mem_pending hf
  rw [← isSummarized_iff] at hi
  rw [Bool.eq_iff_iff, Bool.not_eq_true', Bool.not_eq_true', ← Bool.not_eq_true, ← Bool.not_eq_true,
    isSummarized_withSummaries]
  simp [hi]

/-- More summaries. -/
theorem insertAll_withSummaries {done batch : List Text}
    (h : ∀ f ∈ batch, f ∉ i.fileSummaries.map Prod.fst) :
    Json.insertAll (i.withSummaries outcome done).fileSummaries
      (Json.entries (i.summaryFor outcome) batch.eraseDups) =
        (i.withSummaries outcome (done ++ batch)).fileSummaries := by
  unfold withSummaries
  dsimp only
  rw [Json.insertAll_entries done batch.eraseDups fun f hf => h f (List.mem_eraseDups.1 hf),
    Json.eraseDups_append_eraseDups]

end Index

namespace Batches

variable {σ : Type} {store : IndexStore σ} {outcome : Text → Outcome} {size : Nat}
  {size_pos : 0 < size} {extensions : List Text} {i : Index} {path : Text} {total : Nat}
  {run : BatchRun σ} {done batch : List Text}

theorem gained_byName (run : BatchRun σ) :
    (byName outcome size size_pos extensions).gained store run = run.index.summaryFor outcome := by
  funext f
  unfold gained Index.summaryFor
  cases h : Context.canPrompt run.index f with
  | true =>
    obtain ⟨prompt, hp⟩ := Context.exists_prompt (store.files run.state) run.index f h
    rw [summarizeFile_of_prompt _ hp, if_pos rfl]
    rfl
  | false =>
    obtain ⟨fault, hp⟩ := Context.exists_fault (store.files run.state) run.index f h
    rw [summarizeFile_of_fault _ hp, if_neg (by simp)]
    rfl

/-! ## Progress -/

/-- What a run over an index holds after the files `done`. -/
structure Progress (i : Index) (outcome : Text → Outcome) (path : Text) (total : Nat)
    (done : List Text) (run : BatchRun σ) : Prop where
  index : run.index = i.withSummaries outcome done
  path : run.statistics.path = path
  total : run.statistics.total = total
  failed : run.statistics.failed = done.filter fun f => (i.summaryFor outcome f).isNone
  summarized : done.Nodup →
    run.statistics.summarized = (done.filter fun f => (i.summaryFor outcome f).isSome).length
  requests : run.requests.map Request.fileName = done.filter (Context.canPrompt i)

theorem Progress.start (s : σ) :
    Progress i outcome path total [] ⟨i, s, ⟨path, total, 0, [], 0⟩, [], none⟩ :=
  ⟨by simp, rfl, rfl, rfl, fun _ => rfl, rfl⟩

theorem Progress.saved (h : Progress i outcome path total done run) (state : σ) :
    Progress i outcome path total done (saved run state) :=
  ⟨h.index, h.path, h.total, h.failed, h.summarized, h.requests⟩

theorem Progress.stopped (h : Progress i outcome path total done run) (fault : SaveFault)
    (state : σ) : Progress i outcome path total done (stopped run fault state) :=
  ⟨h.index, h.path, h.total, h.failed, h.summarized, h.requests⟩

/-- **One batch makes progress by its files.** -/
theorem Progress.next (h : Progress i outcome path total done run)
    (hb : ∀ f ∈ batch, f ∉ i.fileSummaries.map Prod.fst) :
    Progress i outcome path total (done ++ batch)
      ((byName outcome size size_pos extensions).summarizeBatch store run batch) := by
  have hg : (byName outcome size size_pos extensions).gained store run = i.summaryFor outcome := by
    have hr : run.index.records = i.records := by rw [h.index]; rfl
    rw [gained_byName, Index.summaryFor_congr hr]
  constructor
  · rw [index_summarizeBatch, hg, h.index, Index.insertAll_withSummaries hb]
    rfl
  · rw [statistics_summarizeBatch]
    exact h.path
  · rw [statistics_summarizeBatch]
    exact h.total
  · rw [statistics_summarizeBatch, hg, List.filter_append, ← h.failed]
  · intro hn
    rw [List.nodup_append'] at hn
    rw [statistics_summarizeBatch, hg, List.filter_append, List.length_append, ← h.summarized hn.1,
      Json.eraseDups_of_nodup hn.2.1, Json.length_entries]
  · rw [fileNames_requests, h.requests, List.filter_append]
    congr 1
    exact List.filter_congr fun f _ => Context.canPrompt_congr f (by rw [h.index]; rfl)

/-! ## Runs -/

/-- The number of batches of at most `size` files. -/
def batchCount (files size : Nat) : Nat := (files + size - 1) / size

theorem batchCount_eq {n c : Nat} (hc : n ≤ c * size) (hl : c = 0 ∨ (c - 1) * size < n)
    (hs : 0 < size) : batchCount n size = c := by
  unfold batchCount
  rcases Nat.eq_zero_or_pos c with rfl | hpos
  · rw [Nat.zero_mul, Nat.le_zero] at hc
    rw [hc, Nat.zero_add]
    exact Nat.div_eq_of_lt (by omega)
  · obtain ⟨d, rfl⟩ := Nat.exists_eq_succ_of_ne_zero (Nat.pos_iff_ne_zero.1 hpos)
    have hl' : d * size < n := by simpa using hl.resolve_left (by simp)
    rw [Nat.succ_mul] at hc
    refine Nat.div_eq_of_lt_le ?_ ?_ <;> simp only [Nat.succ_mul] <;> omega

theorem le_batchCount_mul (n : Nat) (hs : 0 < size) : n ≤ batchCount n size * size := by
  unfold batchCount
  have := Nat.div_add_mod (n + size - 1) size
  have := Nat.mod_lt (n + size - 1) hs
  rw [Nat.mul_comm]
  omega

theorem lt_batchCount {n c : Nat} (hs : 0 < size) (h : c * size < n) : c < batchCount n size := by
  unfold batchCount
  rw [Nat.lt_iff_add_one_le, Nat.le_div_iff_mul_le hs, Nat.succ_mul]
  omega

theorem batchCount_eq_zero (hs : 0 < size) {n : Nat} : batchCount n size = 0 ↔ n = 0 := by
  constructor
  · intro h
    have := le_batchCount_mul n hs
    rw [h, Nat.zero_mul] at this
    omega
  · rintro rfl
    exact Nat.div_eq_of_lt (by omega)

theorem batchCount_ne_zero (hs : 0 < size) {files : List Text} (h : files ≠ []) :
    batchCount files.length size ≠ 0 := by
  rw [Ne, batchCount_eq_zero hs, List.length_eq_zero_iff]
  exact h

/-- A run has come to its saved batches, with these files still to be summarized. -/
structure Reached (i : Index) (outcome : Text → Outcome) (path : Text) (size : Nat)
    (files : List Text) (states : Nat → σ → Prop) (run : BatchRun σ) (pending : List Text) : Prop where
  going : run.fault = none
  pending : pending = files.drop (run.statistics.batches * size)
  last : run.statistics.batches = 0 ∨ (run.statistics.batches - 1) * size < files.length
  progress : Progress i outcome path files.length (files.take (run.statistics.batches * size)) run
  state : states run.statistics.batches run.state

/-- A run ends after its last batch, or at the first save that fails. -/
inductive Ended (store : IndexStore σ) (i : Index) (outcome : Text → Outcome) (path : Text)
    (size : Nat) (files : List Text) (states : Nat → σ → Prop) (run : BatchRun σ) : Prop where
  | completed : run.fault = none → run.statistics.batches = batchCount files.length size →
      states (batchCount files.length size) run.state →
      Progress i outcome path files.length files run → Ended store i outcome path size files states run
  | interrupted (c : Nat) (t : σ) (fault : SaveFault) : c * size < files.length → states c t →
      store.save t (i.withSummaries outcome (files.take ((c + 1) * size))) path =
        (.error fault, run.state) →
      run.fault = some fault → run.statistics.batches = c →
      Progress i outcome path files.length (files.take ((c + 1) * size)) run →
      Ended store i outcome path size files states run

/-- The files of one more batch. -/
theorem take_next (files : List Text) (c size : Nat) :
    files.take (c * size) ++ (files.drop (c * size)).take size = files.take ((c + 1) * size) := by
  rw [Nat.succ_mul, List.take_add]

theorem Reached.lt {files pending : List Text} {states : Nat → σ → Prop}
    (h : Reached i outcome path size files states run pending) (hp : pending ≠ []) :
    run.statistics.batches * size < files.length := by
  rw [h.pending, Ne, List.drop_eq_nil_iff] at hp
  omega

/-- The progress that one more batch makes. -/
theorem Reached.next {files pending : List Text} {states : Nat → σ → Prop}
    (hf : ∀ f ∈ files, f ∉ i.fileSummaries.map Prod.fst)
    (h : Reached i outcome path size files states run pending) :
    Progress i outcome path files.length (files.take ((run.statistics.batches + 1) * size))
      ((byName outcome size size_pos extensions).summarizeBatch store run (pending.take size)) := by
  rw [← take_next, ← h.pending]
  refine h.progress.next fun f hm => hf f ?_
  rw [h.pending] at hm
  exact List.mem_of_mem_drop (List.mem_of_mem_take hm)

/-- **How a run ends**, when `states` tells the states of the store after each number of saves. -/
theorem ended_summarizeIndex {s : σ} {states : Nat → σ → Prop} (hs : states 0 s)
    (hsave : ∀ c t t', c * size < (i.pending extensions).length → states c t →
      store.save t (i.withSummaries outcome ((i.pending extensions).take ((c + 1) * size))) path =
        (.ok (), t') → states (c + 1) t') :
    Ended store i outcome path size (i.pending extensions) states
      ((byName outcome size size_pos extensions).summarizeIndex store i path s) := by
  have hf : ∀ f ∈ i.pending extensions, f ∉ i.fileSummaries.map Prod.fst :=
    fun f => Index.not_isSummarized_of_mem_pending
  unfold summarizeIndex
  rw [extensions_byName]
  refine continueRun_induction (Reached i outcome path size (i.pending extensions) states) _
    (fun run h => ?_) (fun run pending fault state hp h hsaved => ?_)
    (fun run pending state hp h hsaved => ?_) _ _ ?_
  · have hlen : (i.pending extensions).length ≤ run.statistics.batches * size := by
      have := h.pending
      rwa [eq_comm, List.drop_eq_nil_iff] at this
    have hc := batchCount_eq hlen h.last size_pos
    refine .completed h.going hc.symm (hc ▸ h.state) ?_
    have := h.progress
    rwa [List.take_of_length_le hlen] at this
  · rw [size_byName] at hsaved ⊢
    have hn : Progress i outcome path (i.pending extensions).length _
        ((byName outcome size size_pos extensions).summarizeBatch store run (pending.take size)) :=
      h.next hf
    rw [hn.index, h.progress.path] at hsaved
    exact .interrupted _ _ fault (h.lt hp) h.state hsaved rfl rfl (hn.stopped fault state)
  · rw [size_byName] at hsaved ⊢
    have hn : Progress i outcome path (i.pending extensions).length _
        ((byName outcome size size_pos extensions).summarizeBatch store run (pending.take size)) :=
      h.next hf
    rw [hn.index, h.progress.path] at hsaved
    refine ⟨h.going, ?_, .inr (h.lt hp), hn.saved state, hsave _ _ _ (h.lt hp) h.state hsaved⟩
    rw [h.pending, List.drop_drop, ← Nat.succ_mul]
    rfl
  · exact ⟨rfl, by simp, .inl rfl, by simpa using Progress.start s, hs⟩

/-! ## Saves -/

/-- What is saved in the first `saves` saves of a run over these files. -/
def savedUpTo (i : Index) (outcome : Text → Outcome) (path : Text) (size : Nat) (files : List Text)
    (saves : Nat) : List (Text × Index) :=
  (List.range saves).map fun k => (path, i.withSummaries outcome (files.take ((k + 1) * size)))

theorem savedUpTo_succ (files : List Text) (saves : Nat) :
    savedUpTo i outcome path size files (saves + 1) = savedUpTo i outcome path size files saves ++
      [(path, i.withSummaries outcome (files.take ((saves + 1) * size)))] := by
  rw [savedUpTo, List.range_succ, List.map_append]
  rfl

theorem save_recording {t t' : σ} {j : Index} (log : List (Text × Index))
    (h : store.save t j path = (.ok (), t')) :
    store.recording.save (t, log) j path = (.ok (), (t', log ++ [(path, j)])) := by
  simp only [IndexStore.recording, h]

/-- **A run whose saves succeed** saves after each batch the index with the summaries of the files
so far, and ends with the files that got none, which are pending again. `good` are the states of the
store in which it saves. -/
theorem summarizeIndex_recording (outcome : Text → Outcome) (size : Nat) (size_pos : 0 < size)
    (extensions : List Text) (store : IndexStore σ) (i : Index) (path : Text) (s : σ)
    (good : σ → Prop) (hs : good s)
    (hsave : ∀ t files, good t →
      ∃ t', store.save t (i.withSummaries outcome files) path = (.ok (), t') ∧ good t') :
    let files := i.pending extensions
    let saves := batchCount files.length size
    let run := (byName outcome size size_pos extensions).summarizeIndex store.recording i path (s, [])
    run.fault = none ∧ run.statistics.path = path ∧ run.statistics.total = files.length ∧
      run.statistics.batches = saves ∧
      run.state.2 = savedUpTo i outcome path size files saves ∧
      run.index = i.withSummaries outcome files ∧
      run.statistics.failed = files.filter (fun f => (i.summaryFor outcome f).isNone) ∧
      run.index.pending extensions = run.statistics.failed ∧
      (files.Nodup →
        run.statistics.total = run.statistics.summarized + run.statistics.failed.length) := by
  intro files saves run
  have hended : Ended store.recording i outcome path size files
      (fun c t => good t.1 ∧ t.2 = savedUpTo i outcome path size files c) run := by
    refine ended_summarizeIndex ⟨hs, rfl⟩ ?_
    rintro c ⟨t, log⟩ u - ⟨ht, rfl⟩ hu
    obtain ⟨t', ht', hgood⟩ := hsave t (files.take ((c + 1) * size)) ht
    rw [save_recording _ ht'] at hu
    cases hu
    exact ⟨hgood, (savedUpTo_succ files c).symm⟩
  cases hended with
  | interrupted c t fault _ ht hfail =>
    obtain ⟨t', ht', -⟩ := hsave t.1 (files.take ((c + 1) * size)) ht.1
    rw [save_recording _ ht'] at hfail
    cases hfail
  | completed hfault hbatches hstate h =>
    refine ⟨hfault, h.path, h.total, hbatches, hstate.2, h.index, h.failed, ?_, fun hn => ?_⟩
    · rw [h.index, h.failed, Index.pending_withSummaries]
      apply List.filter_congr
      intro f hf
      have hmem : decide (f ∈ files) = true := decide_eq_true hf
      rw [hmem, Bool.true_and, Option.not_isSome]
    · rw [h.total, h.summarized hn, h.failed]
      have := List.length_eq_length_filter_add (l := files) fun f => (i.summaryFor outcome f).isSome
      simpa only [Option.not_isSome] using this

/-- A file given twice, one that fails, one that has its summary, and one of another kind. -/
def fiveFiles : Index where
  repository := "/r"
  files := ["b.ts", "a.ts", "./b.ts", "c.ts", "d.md"]
  records := []
  fileSummaries := [("/r/c.ts", .text "kept")]
  repoSummary := none

/-- Every file but one gets a summary. -/
def allBut (failing : Text) (f : Text) : Outcome :=
  if f = failing then .raised else .answered [(f, ⟨"text", .ui, .null, none, none, none⟩)]

theorem summarizeIndex_recording_fiveFiles :
    let run := (byName (allBut "/r/a.ts") 2 Nat.two_pos [".ts"]).summarizeIndex
      IndexStore.discarding.recording fiveFiles "ast-r.json" ((), [])
    run.fault = none ∧ run.statistics.total = 3 ∧ run.statistics.batches = 2 ∧
      run.state.2.map (fun save => save.2.fileSummaries.map Prod.fst) =
        [(["/r/c.ts", "/r/b.ts"] : List Text), ["/r/c.ts", "/r/b.ts"]] ∧
      run.statistics.failed = ["/r/a.ts"] ∧ run.index.pending [".ts"] = ["/r/a.ts"] := by
  obtain ⟨hfault, -, htotal, hbatches, hsaves, -, hfailed, hpending, -⟩ :=
    summarizeIndex_recording (allBut "/r/a.ts") 2 Nat.two_pos [".ts"] IndexStore.discarding fiveFiles
      "ast-r.json" () (fun _ => True) trivial fun _ _ _ => ⟨(), rfl, trivial⟩
  have hfiles : fiveFiles.pending [".ts"] = ["/r/b.ts", "/r/a.ts", "/r/b.ts"] := by decide +kernel
  rw [hfiles] at htotal hbatches hsaves hfailed
  refine ⟨hfault, htotal, hbatches, ?_, ?_, ?_⟩
  · rw [hsaves]
    decide +kernel
  · rw [hfailed]
    decide +kernel
  · rw [hpending, hfailed]
    decide +kernel

end Batches

end SourceAtlas
