import SourceAtlas.Proofs.Batch.Progress
import SourceAtlas.Proofs.Store

/-!
# Runs that are taken up again

A run that a failing save cuts short, and the run over what it has left, come to the same artifact
as one run without a failure.

* `Index.reread_withSummaries`, `Index.text_resumed`: the index that is loaded after a number of
  batches, and its text once the other files have got their summaries too;
* `Batches.loadedRun`: a run over the index at a path;
* `Batches.summarizeIndex_onFiles`, `Batches.summarizeIndex_failingOnce`: what a run leaves, and what
  it leaves when one of its saves fails;
* **`Batches.loadedRun_resumed`**: the interrupted run and the one after it, against a single run.
-/

namespace SourceAtlas

namespace Index

variable {i j : Index} {outcome : Text → Outcome} {extensions done : List Text}

/-! ## Indexes that are loaded -/

theorem pending_congr (hf : j.files = i.files) (hr : j.root = i.root)
    (hs : j.fileSummaries.map Prod.fst = i.fileSummaries.map Prod.fst) :
    j.pending extensions = i.pending extensions := by
  unfold pending
  rw [hf, hr]
  apply List.filter_congr
  intro f _
  have : j.isSummarized f = i.isSummarized f := by
    rw [Bool.eq_iff_iff, isSummarized_iff, isSummarized_iff, hs]
  rw [this]

theorem hasNoPair_root (i : Index) : i.reread.root.HasNoPair := by
  unfold root
  split
  · cases hr : i.records with
    | nil =>
      rw [reread, hr]
      exact List.isChain_nil
    | cons r rs =>
      rw [reread, hr]
      exact Text.hasNoPair_joinPairs r.repository
  · exact Text.hasNoPair_joinPairs i.repository

/-- Pending files of an index that was read have no pair in their names. -/
theorem hasNoPair_of_mem_pending (hi : i.reread = i) {f : Text} (hf : f ∈ i.pending extensions) :
    f.HasNoPair := by
  obtain ⟨path, hp, rfl⟩ := List.mem_map.1 (List.mem_filter.1 hf).1
  refine Path.hasNoPair_normalize (Path.hasNoPair_join ?_ ?_)
  · rw [← hi]
    exact hasNoPair_root i
  · rw [← hi] at hp
    obtain ⟨q, -, rfl⟩ := List.mem_map.1 hp
    exact Text.hasNoPair_joinPairs q

/-- The summaries of an index that was read are read as they are. -/
theorem map_rereadMember_of_reread (hi : i.reread = i) :
    i.fileSummaries.map Json.rereadMember = i.fileSummaries := by
  refine (List.map_congr_left fun m hm => ?_).trans (List.map_id' _)
  rw [← hi] at hm
  obtain ⟨k, -, rfl⟩ := List.mem_map.1 (Json.mem_of_mem_mergeMembers hm)
  exact rereadMember_rereadMember k

theorem nodup_of_reread (hi : i.reread = i) : (i.fileSummaries.map Prod.fst).Nodup := by
  rw [← hi]
  exact Json.nodup_mergeMembers _

theorem nodup_withSummaries (hi : i.reread = i) (hd : ∀ f ∈ done, f ∈ i.pending extensions) :
    ((i.withSummaries outcome done).fileSummaries.map Prod.fst).Nodup := by
  unfold withSummaries
  dsimp only
  rw [List.map_append, Json.map_fst_entries]
  refine (nodup_of_reread hi).append ((Json.nodup_eraseDups done).filter _) ?_
  intro f hf hf'
  have hdone := List.mem_eraseDups.1 (List.mem_filter.1 hf').1
  exact not_isSummarized_of_mem_pending (hd f hdone) hf

theorem joinPairs_key (hi : i.reread = i) (hd : ∀ f ∈ done, f ∈ i.pending extensions)
    {m : Text × Json} (hm : m ∈ (i.withSummaries outcome done).fileSummaries) :
    m.1.joinPairs = m.1 := by
  rcases List.mem_append.1 hm with hm | hm
  · rw [← map_rereadMember_of_reread hi] at hm
    obtain ⟨k, -, rfl⟩ := List.mem_map.1 hm
    exact Text.joinPairs_joinPairs k.1
  · have hk := (Json.mem_keys_entries.1 (List.mem_map_of_mem hm)).1
    exact Text.joinPairs_of_hasNoPair
      (hasNoPair_of_mem_pending hi (hd m.1 (List.mem_eraseDups.1 hk)))

/-- **What is loaded after summaries were saved**: each of them as it is read back. -/
theorem reread_withSummaries (hi : i.reread = i) (hd : ∀ f ∈ done, f ∈ i.pending extensions) :
    (i.withSummaries outcome done).reread = { i with
      fileSummaries := (i.withSummaries outcome done).fileSummaries.map Json.rereadMember } := by
  have hkeys : ((i.withSummaries outcome done).fileSummaries.map Json.rereadMember).map Prod.fst =
      (i.withSummaries outcome done).fileSummaries.map Prod.fst := by
    rw [List.map_map]
    exact List.map_congr_left fun m hm => joinPairs_key hi hd hm
  have hnodup : ((i.withSummaries outcome done).fileSummaries.map Prod.fst).Nodup :=
    nodup_withSummaries hi hd
  have hmerge := Json.mergeMembers_of_nodup (hkeys ▸ hnodup)
  have hother : ({ i.reread with fileSummaries :=
      (i.withSummaries outcome done).fileSummaries.map Json.rereadMember } : Index) =
        { i with fileSummaries :=
          (i.withSummaries outcome done).fileSummaries.map Json.rereadMember } := by
    rw [hi]
  rw [← hother, reread, hmerge]
  rfl

theorem keys_reread_withSummaries (hi : i.reread = i)
    (hd : ∀ f ∈ done, f ∈ i.pending extensions) :
    (i.withSummaries outcome done).reread.fileSummaries.map Prod.fst =
      (i.withSummaries outcome done).fileSummaries.map Prod.fst := by
  rw [reread_withSummaries hi hd, List.map_map]
  exact List.map_congr_left fun m hm => joinPairs_key hi hd hm

/-- The files that are pending once an index with more summaries was loaded. -/
theorem pending_reread_withSummaries (hi : i.reread = i)
    (hd : ∀ f ∈ done, f ∈ i.pending extensions) :
    (i.withSummaries outcome done).reread.pending extensions =
      (i.pending extensions).filter fun f =>
        !(decide (f ∈ done) && (i.summaryFor outcome f).isSome) := by
  rw [← pending_withSummaries]
  refine pending_congr ?_ ?_ (keys_reread_withSummaries hi hd)
  · rw [reread_withSummaries hi hd]
    rfl
  · rw [reread_withSummaries hi hd]
    rfl

/-! ## Their texts -/

/-- The summaries that files get come from their outcomes. -/
theorem exists_summary {files : List Text} {m : Text × Json}
    (hm : m ∈ Json.entries (i.summaryFor outcome) files) :
    ∃ s, (outcome m.1).summaryOf? m.1 = some s ∧ s.toJson = m.2 := by
  obtain ⟨f, -, hf⟩ := List.mem_filterMap.1 hm
  obtain ⟨v, hv, rfl⟩ := Option.map_eq_some_iff.1 hf
  unfold summaryFor at hv
  split at hv
  · exact Option.map_eq_some_iff.1 hv
  · cases hv

/-- Summaries that were saved are written alike after they were read back. -/
theorem map_indentedMember_rereadMember (hi : i.reread = i)
    (ho : ∀ f s, (outcome f).summaryOf? f = some s → s.toJson.Distinct) (depth : Nat) :
    ((i.withSummaries outcome done).fileSummaries.map Json.rereadMember).map
        (Json.indentedMember depth) =
      (i.withSummaries outcome done).fileSummaries.map (Json.indentedMember depth) := by
  rw [List.map_map]
  apply List.map_congr_left
  intro m hm
  rw [Function.comp_apply]
  rcases List.mem_append.1 hm with hm | hm
  · rw [← map_rereadMember_of_reread hi] at hm
    obtain ⟨k, -, rfl⟩ := List.mem_map.1 hm
    rw [rereadMember_rereadMember]
  · obtain ⟨s, hs, hm⟩ := exists_summary hm
    exact Json.indentedMember_rereadMember (hm ▸ ho m.1 s hs) depth

/-- **The text once the other files have got their summaries too** is that of a single run. -/
theorem text_resumed (hi : i.reread = i)
    (ho : ∀ f s, (outcome f).summaryOf? f = some s → s.toJson.Distinct) {rest : List Text}
    (hp : i.pending extensions = done ++ rest) :
    let j := (i.withSummaries outcome done).reread
    (j.withSummaries outcome (j.pending extensions)).text =
      (i.withSummaries outcome (i.pending extensions)).text := by
  intro j
  have hd : ∀ f ∈ done, f ∈ i.pending extensions := fun f hf =>
    hp ▸ List.mem_append_left rest hf
  have hj : j = { i with fileSummaries :=
      (i.withSummaries outcome done).fileSummaries.map Json.rereadMember } :=
    reread_withSummaries hi hd
  have hpending : j.pending extensions = (i.pending extensions).filter fun f =>
      !(decide (f ∈ done) && (i.summaryFor outcome f).isSome) := pending_reread_withSummaries hi hd
  have hrecords : j.records = i.records := by rw [hj]
  refine text_congr ?_ ?_ ?_ ?_ ?_
  · rw [hj]; rfl
  · rw [hj]; rfl
  · rw [hj]; rfl
  · rw [hj]; rfl
  · have hold : j.fileSummaries.map (Json.indentedMember 2) =
        (i.withSummaries outcome done).fileSummaries.map (Json.indentedMember 2) := by
      rw [hj]
      exact map_indentedMember_rereadMember hi ho 2
    unfold withSummaries at hold ⊢
    dsimp only at hold ⊢
    rw [List.map_append, hold, summaryFor_congr hrecords, hpending, hp,
      Json.entries_eraseDups_append done rest]
    simp only [List.map_append, List.append_assoc]

/-- The text of what was saved stays when it is read back. -/
theorem text_reread_withSummaries (hi : i.reread = i)
    (ho : ∀ f s, (outcome f).summaryOf? f = some s → s.toJson.Distinct)
    (hd : ∀ f ∈ done, f ∈ i.pending extensions) :
    (i.withSummaries outcome done).reread.text = (i.withSummaries outcome done).text := by
  rw [reread_withSummaries hi hd]
  exact text_congr rfl rfl rfl rfl (map_indentedMember_rereadMember hi ho 2)

/-- An index whose summaries can be written can be written. -/
theorem isWritable_withSummaries (hi : i.toJson.isWritable = true)
    (ho : ∀ f s, (outcome f).summaryOf? f = some s → s.toJson.isWritable = true)
    (files : List Text) : (i.withSummaries outcome files).toJson.isWritable = true := by
  rw [isWritable_iff] at hi ⊢
  refine ⟨fun m hm => ?_, hi.2⟩
  rcases List.mem_append.1 hm with hm | hm
  · exact hi.1 m hm
  · obtain ⟨s, hs, hm⟩ := exists_summary hm
    exact hm ▸ ho m.1 s hs

end Index

namespace Batches

variable {outcome : Text → Outcome} {size : Nat} {i k : Index} {path message : Text} {t : FileTree}

/-- The index that stands at the path of a run after a number of saves. -/
def leftBy (k i : Index) (outcome : Text → Outcome) (files : List Text) (saves size : Nat) : Index :=
  if saves = 0 then k else i.withSummaries outcome (files.take (saves * size))

theorem leftBy_zero (k i : Index) (outcome : Text → Outcome) (files : List Text) (size : Nat) :
    leftBy k i outcome files 0 size = k := if_pos rfl

theorem leftBy_of_pos {files : List Text} {saves : Nat} (h : saves ≠ 0) :
    leftBy k i outcome files saves size = i.withSummaries outcome (files.take (saves * size)) :=
  if_neg h

/-- What is loaded from the path of a run. -/
theorem load_leftBy {files : List Text} {saves : Nat} (ht : Path.tidy path = path)
    (hk : k.reread = i) (hi : i.reread = i)
    (h : Artifact.Holds t path (leftBy k i outcome files saves size)) :
    Artifact.load t path = .ok (i.withSummaries outcome (files.take (saves * size))).reread := by
  have hreread : (leftBy k i outcome files saves size).reread =
      (i.withSummaries outcome (files.take (saves * size))).reread := by
    by_cases hs : saves = 0
    · rw [hs, leftBy_zero, Nat.zero_mul, List.take_zero, Index.withSummaries_nil, hk, hi]
    · rw [leftBy_of_pos hs]
  rw [h.load ht, hreread]

/-! ## Runs over a directory -/

/-- What stands at the path after all batches. -/
theorem leftBy_batchCount (hs : 0 < size) (files : List Text) :
    leftBy k i outcome files (batchCount files.length size) size =
      if files = [] then k else i.withSummaries outcome files := by
  by_cases hf : files = []
  · rw [if_pos hf, (batchCount_eq_zero hs).2 (by rw [hf]; rfl), leftBy_zero]
  · rw [if_neg hf, leftBy_of_pos (batchCount_ne_zero hs hf),
      List.take_of_length_le (le_batchCount_mul _ hs)]

/-- **What a run over a directory leaves.** -/
theorem summarizeIndex_onFiles (size_pos : 0 < size) (extensions : List Text) (directory : Text)
    (hk : Artifact.Holds t path k) (hi : i.toJson.isWritable = true)
    (ho : ∀ f s, (outcome f).summaryOf? f = some s → s.toJson.isWritable = true) :
    let files := i.pending extensions
    let run := (byName outcome size size_pos extensions).summarizeIndex
      (IndexStore.onFiles directory) i path t
    run.fault = none ∧
      Artifact.Holds run.state path (leftBy k i outcome files (batchCount files.length size) size) ∧
      run.requests.map Request.fileName = files.filter (Context.canPrompt i) := by
  intro files run
  have hended : Ended (IndexStore.onFiles directory) i outcome path size files
      (fun c t => Artifact.Holds t path (leftBy k i outcome files c size)) run := by
    refine ended_summarizeIndex ?_ ?_
    · rw [leftBy_zero]
      exact hk
    · intro c t t' _ _ hsave
      rw [leftBy_of_pos (Nat.succ_ne_zero c)]
      exact Artifact.holds_of_save hsave
  cases hended with
  | interrupted c u fault _ hu hfail =>
    obtain ⟨u', hu'⟩ := hu.exists_save
      (Index.isWritable_withSummaries hi ho (files.take ((c + 1) * size)))
    cases hu'.symm.trans hfail
  | completed hfault _ hstate h => exact ⟨hfault, hstate, h.requests⟩

/-! ## Runs of which a save fails -/

/-- A save that succeeds is one of the store, and not the one that is to fail. -/
theorem save_failingOnce_ok {σ : Type} {store : IndexStore σ} {j : Index} {s s' : σ}
    {left left' : Option Nat}
    (h : (store.failingOnce message).save (s, left) j path = (.ok (), (s', left'))) :
    store.save s j path = (.ok (), s') ∧ left ≠ some 0 ∧ left' = left.map (· - 1) := by
  match left with
  | none =>
    obtain ⟨hr, hs⟩ := Prod.mk.inj h
    obtain ⟨ht, rfl⟩ := Prod.mk.inj hs
    exact ⟨Prod.ext hr ht, by simp, rfl⟩
  | some 0 => cases h
  | some (n + 1) =>
    obtain ⟨hr, hs⟩ := Prod.mk.inj h
    obtain ⟨ht, rfl⟩ := Prod.mk.inj hs
    exact ⟨Prod.ext hr ht, by simp, rfl⟩

/-- A save that fails is the one that is to fail, or one of the store. -/
theorem save_failingOnce_error {σ : Type} {store : IndexStore σ} {j : Index} {s : σ}
    {left : Option Nat} {fault : SaveFault} {after : σ × Option Nat}
    (h : (store.failingOnce message).save (s, left) j path = (.error fault, after)) :
    (left = some 0 ∧ fault = .refused message ∧ after.1 = s) ∨
      store.save s j path = (.error fault, after.1) := by
  match left with
  | none =>
    obtain ⟨hr, hs⟩ := Prod.mk.inj h
    exact .inr (Prod.ext hr (congrArg Prod.fst hs))
  | some 0 =>
    cases h
    exact .inl ⟨rfl, rfl, rfl⟩
  | some (n + 1) =>
    obtain ⟨hr, hs⟩ := Prod.mk.inj h
    exact .inr (Prod.ext hr (congrArg Prod.fst hs))

/-- The saves before the one that fails, of a number of saves. -/
def savesBefore (failing : Option Nat) (saves : Nat) : Nat := failing.elim saves (min saves)

theorem savesBefore_le (failing : Option Nat) (saves : Nat) : savesBefore failing saves ≤ saves := by
  cases failing with
  | none => exact Nat.le_refl saves
  | some m => exact Nat.min_le_left saves m

/-- What is left to count of `failing` saves after a number of them. -/
structure CountedDown (failing : Option Nat) (saves : Nat) (left : Option Nat) : Prop where
  left : left = failing.map (· - saves)
  le : ∀ m, failing = some m → saves ≤ m

namespace CountedDown

variable {failing left : Option Nat} {saves total : Nat}

theorem start (failing : Option Nat) : CountedDown failing 0 failing := ⟨by simp, by simp⟩

/-- One more save that is not the one that is to fail. -/
theorem next (h : CountedDown failing saves left) (hne : left ≠ some 0) :
    CountedDown failing (saves + 1) (left.map (· - 1)) := by
  constructor
  · rw [h.left, Option.map_map]
    rfl
  · intro m hm
    have hle := h.le m hm
    have hleft := h.left
    rw [hm, Option.map_some] at hleft
    have hpos : m - saves ≠ 0 := by
      intro h0
      exact hne (by rw [hleft, h0])
    omega

/-- The next save is the one that is to fail. -/
theorem savesBefore_of_zero (h : CountedDown failing saves (some 0)) (ht : saves < total) :
    savesBefore failing total = saves := by
  obtain ⟨m, hm, hzero⟩ := Option.map_eq_some_iff.1 h.left.symm
  have hle := h.le m hm
  rw [hm]
  show min total m = saves
  omega

/-- All saves have succeeded. -/
theorem savesBefore_of_total (h : CountedDown failing total left) :
    savesBefore failing total = total := by
  cases hf : failing with
  | none => rfl
  | some m => exact Nat.min_eq_left (h.le m hf)

end CountedDown

/-- **What a run leaves when one of its saves fails.** -/
theorem summarizeIndex_failingOnce (size_pos : 0 < size) (extensions : List Text)
    (directory message : Text) (hk : Artifact.Holds t path k)
    (hi : i.toJson.isWritable = true)
    (ho : ∀ f s, (outcome f).summaryOf? f = some s → s.toJson.isWritable = true)
    (failing : Option Nat) :
    let files := i.pending extensions
    let saves := savesBefore failing (batchCount files.length size)
    let run := (byName outcome size size_pos extensions).summarizeIndex
      ((IndexStore.onFiles directory).failingOnce message) i path (t, failing)
    run.statistics.batches = saves ∧
      run.fault = (if saves < batchCount files.length size then some (.refused message) else none) ∧
      Artifact.Holds run.state.1 path (leftBy k i outcome files saves size) := by
  intro files saves run
  have hended : Ended ((IndexStore.onFiles directory).failingOnce message) i outcome path size files
      (fun c s => Artifact.Holds s.1 path (leftBy k i outcome files c size) ∧
        CountedDown failing c s.2) run := by
    refine ended_summarizeIndex ⟨?_, .start failing⟩ ?_
    · rw [leftBy_zero]
      exact hk
    · rintro c ⟨u, left⟩ ⟨u', left'⟩ - ⟨-, hleft⟩ hsave
      obtain ⟨hsave', hne, rfl⟩ := save_failingOnce_ok hsave
      refine ⟨?_, hleft.next hne⟩
      rw [leftBy_of_pos (Nat.succ_ne_zero c)]
      exact Artifact.holds_of_save hsave'
  cases hended with
  | interrupted c s fault hc hs hfail hfault hbatches =>
    obtain ⟨u, left⟩ := s
    obtain ⟨hu, hleft⟩ := hs
    have hcount := lt_batchCount size_pos hc
    rcases save_failingOnce_error hfail with ⟨rfl, rfl, hstate⟩ | hfail
    · have hsaves : saves = c := hleft.savesBefore_of_zero hcount
      rw [hsaves, if_pos hcount, hstate]
      exact ⟨hbatches, hfault, hu⟩
    · obtain ⟨u', hu'⟩ := hu.exists_save
        (Index.isWritable_withSummaries hi ho (files.take ((c + 1) * size)))
      cases hu'.symm.trans hfail
  | completed hfault hbatches hstate =>
    have hsaves : saves = batchCount files.length size := hstate.2.savesBefore_of_total
    rw [hsaves, if_neg (lt_irrefl _)]
    exact ⟨hbatches, hfault, hstate.1⟩

/-! ## Three runs -/

/-- **The text at the path** once an interrupted run was taken up again: the index with the summaries
of all files, if there were any. -/
theorem text_leftBy_resumed {extensions : List Text} {size₁ size₂ saves : Nat}
    (pos₁ : 0 < size₁) (pos₂ : 0 < size₂) (hi : i.reread = i)
    (ho : ∀ f s, (outcome f).summaryOf? f = some s → s.toJson.Distinct)
    (hsaves : saves ≤ batchCount (i.pending extensions).length size₁) :
    let files := i.pending extensions
    let j := (i.withSummaries outcome (files.take (saves * size₁))).reread
    let rest := j.pending extensions
    (leftBy (leftBy k i outcome files saves size₁) j outcome rest
        (batchCount rest.length size₂) size₂).text =
      (if files = [] then k else i.withSummaries outcome files).text := by
  intro files j rest
  have hsplit : files = files.take (saves * size₁) ++ files.drop (saves * size₁) :=
    (List.take_append_drop _ _).symm
  have hdone : ∀ f ∈ files.take (saves * size₁), f ∈ files := fun f hf => List.mem_of_mem_take hf
  have hrest : rest = files.filter fun f =>
      !(decide (f ∈ files.take (saves * size₁)) && (i.summaryFor outcome f).isSome) :=
    Index.pending_reread_withSummaries hi hdone
  have htext : (j.withSummaries outcome rest).text = (i.withSummaries outcome files).text :=
    Index.text_resumed hi ho hsplit
  rw [leftBy_batchCount pos₂]
  by_cases hf : files = []
  · have hzero : saves = 0 := by
      have hlen : (i.pending extensions).length = 0 := List.length_eq_zero_iff.2 hf
      rw [(batchCount_eq_zero pos₁).2 hlen] at hsaves
      exact Nat.le_zero.1 hsaves
    rw [if_pos hf, hzero, leftBy_zero, if_pos]
    rw [hrest, hf]
    rfl
  · rw [if_neg hf]
    by_cases hr : rest = []
    · -- All files got their summaries before the interruption.
      have hpos : saves ≠ 0 := by
        rintro rfl
        rw [hr, eq_comm, List.filter_eq_nil_iff] at hrest
        exact hf (List.eq_nil_iff_forall_not_mem.2 fun f hm => hrest f hm (by simp))
      rw [if_pos hr, leftBy_of_pos hpos, ← htext, hr, Index.withSummaries_nil]
      exact (Index.text_reread_withSummaries hi ho hdone).symm
    · rw [if_neg hr, htext]

/-- A run over the index that is loaded from a path. -/
def loadedRun {σ : Type} (b : Batches) (store : IndexStore σ) (path : Text) (s : σ) :
    Except LoadFault (BatchRun σ) :=
  (store.load s path).map fun i => b.summarizeIndex store i path s

/-- **An interrupted run and the one after it leave the text that a single run leaves**, whatever the
sizes of the batches and whichever save fails, over an artifact that stands as a save leaves it
(`Artifact.holds_of_save`): that of the index with the summaries of all pending files. The run after
the interruption asks for the files with a prompt that the saves before have not given a summary. -/
theorem loadedRun_resumed (outcome : Text → Outcome) (size₁ size₂ size₃ : Nat)
    (pos₁ : 0 < size₁) (pos₂ : 0 < size₂) (pos₃ : 0 < size₃) (extensions : List Text)
    (directory path message : Text) (failing : Option Nat) (t : FileTree) (k : Index)
    (htidy : Path.tidy path = path) (hk : Artifact.Holds t path k)
    (hwritable : ∀ f s, (outcome f).summaryOf? f = some s → s.toJson.isWritable = true)
    (hdistinct : ∀ f s, (outcome f).summaryOf? f = some s → s.toJson.Distinct) :
    let store := IndexStore.onFiles directory
    ∃ i crashed resumed whole, store.load t path = .ok i ∧
      loadedRun (byName outcome size₁ pos₁ extensions) (store.failingOnce message) path
        (t, failing) = .ok crashed ∧
      loadedRun (byName outcome size₂ pos₂ extensions) store path crashed.state.1 = .ok resumed ∧
      loadedRun (byName outcome size₃ pos₃ extensions) store path t = .ok whole ∧
      crashed.statistics.batches =
        savesBefore failing (batchCount (i.pending extensions).length size₁) ∧
      crashed.fault = (if crashed.statistics.batches < batchCount (i.pending extensions).length size₁
        then some (.refused message) else none) ∧
      resumed.fault = none ∧ whole.fault = none ∧
      resumed.state.readText path = whole.state.readText path ∧
      whole.state.readText path = .ok (if i.pending extensions = [] then k else
        i.withSummaries outcome (i.pending extensions)).text ∧
      resumed.requests.map Request.fileName = (i.pending extensions).filter fun f =>
        Context.canPrompt i f &&
          !(decide (f ∈ (i.pending extensions).take (crashed.statistics.batches * size₁)) &&
            (i.summaryFor outcome f).isSome) := by
  intro store
  -- What is loaded first is settled: it is read back as it is.
  let i := k.reread
  have hi : i.reread = i := Index.reread_reread k
  have hiw : i.toJson.isWritable = true := Index.isWritable_reread hk.writable
  have hload : store.load t path = .ok i := hk.load htidy
  let files := i.pending extensions
  let crashed := (byName outcome size₁ pos₁ extensions).summarizeIndex (store.failingOnce message) i
    path (t, failing)
  obtain ⟨hbatches, hfault, hcrashed⟩ :=
    summarizeIndex_failingOnce pos₁ extensions directory message hk hiw hwritable failing
  let saves := savesBefore failing (batchCount files.length size₁)
  let done := files.take (saves * size₁)
  have hdone : ∀ f ∈ done, f ∈ files := fun f hf => List.mem_of_mem_take hf
  -- What is loaded after the interruption.
  let j := (i.withSummaries outcome done).reread
  have hjload : store.load crashed.state.1 path = .ok j := load_leftBy htidy rfl hi hcrashed
  have hjw : j.toJson.isWritable = true :=
    Index.isWritable_reread (Index.isWritable_withSummaries hiw hwritable done)
  have hrest : j.pending extensions = files.filter fun f =>
      !(decide (f ∈ done) && (i.summaryFor outcome f).isSome) :=
    Index.pending_reread_withSummaries hi hdone
  have hrecords : j.records = i.records := by
    show (i.withSummaries outcome done).reread.records = _
    rw [Index.reread_withSummaries hi hdone]
  obtain ⟨hnone, hresumed, hrequests⟩ :=
    summarizeIndex_onFiles pos₂ extensions directory hcrashed hjw hwritable
  obtain ⟨hnone', hwhole, -⟩ :=
    summarizeIndex_onFiles pos₃ extensions directory hk hiw hwritable
  have htext := hresumed.readText htidy
  rw [text_leftBy_resumed pos₁ pos₂ hi hdistinct
    (savesBefore_le failing (batchCount files.length size₁))] at htext
  have htext' := hwhole.readText htidy
  rw [leftBy_batchCount pos₃] at htext'
  refine ⟨i, crashed, _, _, hload, ?_, ?_, ?_, hbatches, ?_, hnone, hnone', htext.trans htext'.symm,
    htext', ?_⟩
  · rw [loadedRun]
    show (store.load t path).map _ = _
    rw [hload]
    rfl
  · rw [loadedRun, hjload]
    rfl
  · rw [loadedRun, hload]
    rfl
  · rw [hbatches]
    exact hfault
  · rw [hrequests, hbatches, hrest, List.filter_filter]
    apply List.filter_congr
    intro f _
    rw [Context.canPrompt_congr f hrecords]

/-- An index of files without records and summaries. -/
def bareIndex (files : List Text) : Index := ⟨"/r", files, [], [], none⟩

/-- A tree with a directory for artifacts in which an index was saved. -/
def treeWith (i : Index) : FileTree :=
  (Artifact.save ⟨[(["store"], .directory)], "/"⟩ i "/store/ast-r.json").2

/-- A summary with a description and a tag alone has two keys. -/
theorem distinct_brief (description : Text) (tag : Summary.Tag) :
    (⟨description, tag, .null, none, none, none⟩ : Summary).toJson.Distinct := by
  have hnodup : [Json.writeText "fileDescription", Json.writeText "tag"].Nodup := by decide +kernel
  refine .object _ hnodup fun m hm => ?_
  rcases List.mem_cons.1 hm with rfl | hm
  · exact .text description
  · rw [List.mem_singleton.1 hm]
    exact .text tag.name

theorem eq_of_allBut {failing f : Text} {s : Summary}
    (h : (allBut failing f).summaryOf? f = some s) : s = ⟨"text", .ui, .null, none, none, none⟩ := by
  unfold allBut at h
  split at h
  · cases h
  · rw [Outcome.summaryOf?, Json.member?_cons, if_pos rfl, Option.some.injEq] at h
    exact h.symm

theorem loadedRun_resumed_threeFiles :
    let store := IndexStore.onFiles "/store"
    let outcome := allBut "/r/b.json"
    let t := treeWith (bareIndex ["a.json", "b.json", "c.json"])
    ∃ crashed resumed whole,
      loadedRun (byName outcome 1 Nat.one_pos [".json"]) (store.failingOnce "disk full")
        "/store/ast-r.json" (t, some 2) = .ok crashed ∧
      loadedRun (byName outcome 2 Nat.two_pos [".json"]) store "/store/ast-r.json" crashed.state.1 =
        .ok resumed ∧
      loadedRun (byName outcome 3 (by decide) [".json"]) store "/store/ast-r.json" t = .ok whole ∧
      crashed.fault = some (.refused "disk full") ∧ resumed.fault = none ∧
      resumed.state.readText "/store/ast-r.json" = whole.state.readText "/store/ast-r.json" ∧
      resumed.requests.map Request.fileName = ["/r/b.json", "/r/c.json"] := by
  intro store outcome t
  have hsave : Artifact.save ⟨[(["store"], .directory)], "/"⟩
      (bareIndex ["a.json", "b.json", "c.json"]) "/store/ast-r.json" = (.ok (), t) :=
    Prod.ext (by rfl) rfl
  have hk := Artifact.holds_of_save hsave
  have htidy : Path.tidy "/store/ast-r.json" = Text.ofString "/store/ast-r.json" := by decide +kernel
  obtain ⟨i, crashed, resumed, whole, hload, hcrashed, hresumed, hwhole, hbatches, hfault, hnone, -,
    htext, -, hrequests⟩ :=
    loadedRun_resumed outcome 1 2 3 Nat.one_pos Nat.two_pos (by decide) [".json"] "/store"
      "/store/ast-r.json" "disk full" (some 2) t (bareIndex ["a.json", "b.json", "c.json"]) htidy hk
      (fun f s h => by rw [eq_of_allBut h]; rfl)
      (fun f s h => by rw [eq_of_allBut h]; exact distinct_brief "text" .ui)
  have hi := Except.ok.inj (hload.symm.trans (hk.load htidy))
  subst hi
  have hlength : ((bareIndex ["a.json", "b.json", "c.json"]).reread.pending [".json"]).length = 3 := by
    decide +kernel
  rw [hlength] at hbatches hfault
  have hbatches : crashed.statistics.batches = 2 := hbatches
  rw [hbatches] at hfault hrequests
  refine ⟨crashed, resumed, whole, hcrashed, hresumed, hwhole, hfault, hnone, htext, ?_⟩
  rw [hrequests]
  decide +kernel

/-! ## Where a resumed run differs -/

/-- A run of batches of one file over an index, of which the second save fails. -/
def crashedRun (outcome : Text → Outcome) (i : Index) : Option (BatchRun (FileTree × Option Nat)) :=
  (loadedRun (byName outcome 1 Nat.one_pos [".json"])
    ((IndexStore.onFiles "/store").failingOnce "disk full") "/store/ast-r.json"
    (treeWith i, some 1)).toOption

/-- A run of batches of one file over the artifact that a tree holds. -/
def runOver (outcome : Text → Outcome) (t : FileTree) : Option (BatchRun FileTree) :=
  (loadedRun (byName outcome 1 Nat.one_pos [".json"]) (IndexStore.onFiles "/store")
    "/store/ast-r.json" t).toOption

/-- The run after a run of which the second save failed. -/
def resumedRun (outcome : Text → Outcome) (i : Index) : Option (BatchRun FileTree) :=
  (crashedRun outcome i).bind fun run => runOver outcome run.state.1

/-- The text that a run leaves at the path. -/
def textLeft (run : BatchRun FileTree) : Option Text :=
  (run.state.readText "/store/ast-r.json").toOption

/-- Files of which the first one has no prompt. -/
def withoutPrompt : Index := bareIndex ["a\x00.json", "b.json"]

/-- Elements with two keys that are written alike: the halves of a pair, and what they stand for. -/
def alike : Json :=
  .object [([Point.ofNat 0xD83D, Point.ofNat 0xDE00], .int 1), ([Point.ofNat 0x1F600], .int 2)]

/-- Every file gets a summary with these elements. -/
def withElements (elements : Json) (f : Text) : Outcome :=
  .answered [(f, ⟨"text", .ui, elements, none, none, none⟩)]

/-- The run after the interruption does not ask for a file without a prompt, which no save has given
a summary; and where two keys are written alike, it leaves a shorter text than a single run. -/
theorem resumedRun_differs :
    ((crashedRun (allBut []) withoutPrompt).bind fun run =>
        (Artifact.load run.state.1 "/store/ast-r.json").toOption.map fun i => i.pending [".json"]) =
      some (["/r/a\x00.json", "/r/b.json"] : List Text) ∧
    (resumedRun (allBut []) withoutPrompt).map (fun run => run.requests.map Request.fileName) =
      some (["/r/b.json"] : List Text) ∧
    ((resumedRun (withElements alike) (bareIndex ["a.json", "b.json"])).bind textLeft).map
      List.length = some 419 ∧
    ((runOver (withElements alike) (treeWith (bareIndex ["a.json", "b.json"]))).bind textLeft).map
      List.length = some 446 := by
  refine ⟨?_, ?_, ?_, ?_⟩ <;> decide +kernel

end Batches

end SourceAtlas
