import SourceAtlas.Proofs.Batch.Resume
import SourceAtlas.Proofs.Store.Frames

/-!
# Runs over all artifacts of a store

The run over one artifact of a directory neither needs nor changes another one. What a run over all
of them leaves of each is what a run over that artifact alone leaves.

* `IndexStore.Faulty`: stores of a directory of which any save may fail;
* `Batches.Advanced`: what the files have come to after a number of saves of one artifact;
* `Batches.Settled`: an artifact has its complete final text;
* `Batches.Settled.leftAsAlone`: it is that of a run in a directory without the other artifacts;
* `Batches.finished_summarizePaths`: runs over artifacts, one after the other;
* **`Batches.summarizeStore_independent`**: runs over all artifacts of a directory.
-/

namespace SourceAtlas

/-- A store of the artifacts in a directory of which any save may fail. A save that succeeds is one
to the files, and one that fails has touched nothing but the artifact and its temporary name. -/
structure IndexStore.Faulty {σ : Type} (store : IndexStore σ) (directory : Text) : Prop where
  list : ∀ s, store.list s = Artifact.list directory (store.files s)
  load : ∀ s path, store.load s path = Artifact.load (store.files s) path
  save : ∀ s i path s', store.save s i path = (.ok (), s') →
    Artifact.save (store.files s) i path = (.ok (), store.files s')
  touches : ∀ s i name fault s', Path.IsName name →
    (store.files s).HasDirectory ((store.files s).place directory) →
    store.save s i (Path.child directory name) = (.error fault, s') →
    Artifact.Touches directory [name] (store.files s) (store.files s')

theorem IndexStore.faulty_onFiles (directory : Text) :
    (IndexStore.onFiles directory).Faulty directory where
  list _ := rfl
  load _ _ := rfl
  save _ _ _ _ h := h
  touches _ _ _ _ _ hn hd h := Artifact.touches_of_save hn hd h

theorem IndexStore.Faulty.failingOnce {σ : Type} {store : IndexStore σ} {directory : Text}
    (h : store.Faulty directory) (message : Text) : (store.failingOnce message).Faulty directory where
  list s := h.list s.1
  load s path := h.load s.1 path
  save s i path s' hs := h.save s.1 i path s'.1 (Batches.save_failingOnce_ok hs).1
  touches s i name fault s' hn hd hs := by
    rcases Batches.save_failingOnce_error hs with ⟨-, -, he⟩ | hs
    · show Artifact.Touches directory [name] (store.files s.1) (store.files s'.1)
      rw [he]
      exact .refl directory [name] _
    · exact h.touches s.1 i name fault s'.1 hn hd hs

/-- Fewer summaries can be written, too. -/
theorem Index.isWritable_withSummaries_of_subset {i : Index} {outcome : Text → Outcome}
    {done files : List Text} (hs : done ⊆ files)
    (h : (i.withSummaries outcome files).toJson.isWritable = true) :
    (i.withSummaries outcome done).toJson.isWritable = true := by
  rw [isWritable_iff] at h ⊢
  refine ⟨fun m hm => h.1 m ?_, h.2⟩
  rcases List.mem_append.1 hm with hm | hm
  · exact List.mem_append_left _ hm
  · obtain ⟨f, hf, hm⟩ := List.mem_filterMap.1 hm
    refine List.mem_append_right _ (List.mem_filterMap.2 ⟨f, ?_, hm⟩)
    exact List.mem_eraseDups.2 (hs (List.mem_eraseDups.1 hf))

namespace Batches

open Artifact

variable {σ : Type} {store : IndexStore σ} {outcome : Text → Outcome} {size : Nat}
  {extensions names : List Text} {directory name temporary : Text} {t u v : FileTree} {i : Index}
  {s : σ}

/-! ## One artifact -/

/-- What the files have come to after a number of saves of an artifact, the last one of this index. -/
structure Advanced (directory name : Text) (t : FileTree) (last : Index) (saves : Nat)
    (u : FileTree) : Prop where
  touches : Touches directory [name] t u
  above : u.HasDirectory (u.place directory)
  start : saves = 0 → u = t
  replaced : saves ≠ 0 → Replaced directory name t u last

/-- One more save. -/
theorem Advanced.next {last j : Index} {saves : Nat} (h : Advanced directory name t last saves u)
    (hn : Path.IsName name) (hf : t.LacksDirectory (t.place directory ++ [name]))
    (hs : Artifact.save u j (Path.child directory name) = (.ok (), v)) :
    Advanced directory name t j (saves + 1) v := by
  obtain ⟨hkeeps, hcurrent, -⟩ := keeps_of_save hs
  refine ⟨?_, ?_, nofun, fun _ => ?_⟩
  · exact (h.touches.trans (touches_of_save hn h.above hs)).mono (by simp)
  · rw [FileTree.place_of_current hcurrent]
    exact hkeeps.hasDirectory h.above
  · by_cases hz : saves = 0
    · obtain rfl := h.start hz
      exact replaced_of_save hn h.above hf hs
    · exact (h.replaced hz).next hn h.above hs

/-- An artifact has its complete final text: the index with the summaries of all pending files, or
what stood there if there were none. -/
inductive Settled (outcome : Text → Outcome) (extensions : List Text) (directory name : Text)
    (t u : FileTree) : Prop
  | unchanged (i : Index) : load t (Path.child directory name) = .ok i →
      i.pending extensions = [] → Agrees directory name t u →
      Settled outcome extensions directory name t u
  | replaced (i : Index) : load t (Path.child directory name) = .ok i →
      i.pending extensions ≠ [] →
      Replaced directory name t u (i.withSummaries outcome (i.pending extensions)) →
      Settled outcome extensions directory name t u

namespace Settled

/-- From what was there before other artifacts were saved. -/
theorem of_agrees (h : Settled outcome extensions directory name u v)
    (ha : Agrees directory name t u) (hn : Path.IsName name) :
    Settled outcome extensions directory name t v := by
  cases h with
  | unchanged i hload hp hsame => exact .unchanged i (ha.load hn ▸ hload) hp (ha.trans hsame)
  | replaced i hload hp hrep => exact .replaced i (ha.load hn ▸ hload) hp (hrep.of_agrees ha hn)

/-- To what is there after other artifacts were saved. -/
theorem agrees (h : Settled outcome extensions directory name t u)
    (ha : Agrees directory name u v) (hn : Path.IsName name) :
    Settled outcome extensions directory name t v := by
  cases h with
  | unchanged i hload hp hsame => exact .unchanged i hload hp (hsame.trans ha)
  | replaced i hload hp hrep => exact .replaced i hload hp (hrep.agrees ha hn)

end Settled

/-- **The run over one artifact** settles it, or one of its saves fails. -/
theorem run_of_load (outcome : Text → Outcome) (size_pos : 0 < size) (extensions : List Text)
    (hstore : store.Faulty directory) (hn : Path.IsName name)
    (hd : (store.files s).HasDirectory ((store.files s).place directory))
    (hload : load (store.files s) (Path.child directory name) = .ok i) :
    let run := (byName outcome size size_pos extensions).summarizeIndex store i
      (Path.child directory name) s
    Touches directory [name] (store.files s) (store.files run.state) ∧
      ((run.fault = none ∧ run.statistics.path = Path.child directory name ∧
          (store.files run.state).HasDirectory ((store.files run.state).place directory) ∧
          Settled outcome extensions directory name (store.files s) (store.files run.state)) ∨
        ∃ fault, run.fault = some fault ∧
          ∃ s' j, store.save s' j (Path.child directory name) = (.error fault, run.state)) := by
  intro run
  let files := i.pending extensions
  have hf : (store.files s).LacksDirectory ((store.files s).place directory ++ [name]) := by
    obtain ⟨content, hread⟩ := exists_read_of_load hload
    intro n hnode
    rw [← FileTree.place_child hn, FileTree.node?_of_read hread] at hnode
    cases hnode
    rfl
  have hended : Ended store i outcome (Path.child directory name) size files
      (fun c s' => Advanced directory name (store.files s)
        (i.withSummaries outcome (files.take (c * size))) c (store.files s')) run := by
    refine ended_summarizeIndex ⟨.refl _ _ _, hd, fun _ => rfl, fun h => absurd rfl h⟩ ?_
    intro c s₁ s₂ _ h hsave
    exact h.next hn hf (hstore.save _ _ _ _ hsave)
  cases hended with
  | interrupted c s' fault _ h hfail hfault =>
    refine ⟨?_, .inr ⟨fault, hfault, s', _, hfail⟩⟩
    exact (h.touches.trans (hstore.touches _ _ _ _ _ hn h.above hfail)).mono (by simp)
  | completed hfault _ h hprogress =>
    refine ⟨h.touches, .inl ⟨hfault, hprogress.path, h.above, ?_⟩⟩
    by_cases hp : files = []
    · have hz : batchCount files.length size = 0 := (batchCount_eq_zero size_pos).2 (by rw [hp]; rfl)
      refine .unchanged i hload hp ?_
      rw [h.start hz]
      exact .refl _ _ _
    · have hrep := h.replaced (batchCount_ne_zero size_pos hp)
      rw [List.take_of_length_le (le_batchCount_mul _ size_pos)] at hrep
      exact .replaced i hload hp hrep

/-! ## The artifact alone -/

/-- A run over an artifact that is ready to be saved completes. -/
theorem run_of_ready (size_pos : 0 < size) (directory : Text) {path : Text}
    (hr : Ready t path temporary) (hp : i.pending extensions ≠ [])
    (hw : (i.withSummaries outcome (i.pending extensions)).toJson.isWritable = true) :
    let run := (byName outcome size size_pos extensions).summarizeIndex
      (IndexStore.onFiles directory) i path t
    run.fault = none ∧ Holds run.state path (i.withSummaries outcome (i.pending extensions)) := by
  intro run
  let files := i.pending extensions
  have hended : Ended (IndexStore.onFiles directory) i outcome path size files
      (fun c u => (∃ temporary, Ready u path temporary) ∧
        (c ≠ 0 → Holds u path (i.withSummaries outcome (files.take (c * size))))) run := by
    refine ended_summarizeIndex ⟨⟨temporary, hr⟩, fun h => absurd rfl h⟩ ?_
    intro c u v _ _ hsave
    have hholds := holds_of_save hsave
    exact ⟨hholds.ready, fun _ => hholds⟩
  cases hended with
  | interrupted c u fault _ h hfail =>
    obtain ⟨⟨temporary, hr⟩, -⟩ := h
    obtain ⟨u', hu'⟩ := Artifact.exists_save hr (Index.isWritable_withSummaries_of_subset
      (List.take_subset ((c + 1) * size) files) hw)
    cases hu'.symm.trans hfail
  | completed hfault _ h =>
    have hholds := h.2 (batchCount_ne_zero size_pos hp)
    rw [List.take_of_length_le (le_batchCount_mul _ size_pos)] at hholds
    exact ⟨hfault, hholds⟩

/-- What a tree holds of an artifact is what a run over it leaves that is made in the directory
without the other artifacts. -/
def LeftAsAlone (b : Batches) (directory path : Text) (t u : FileTree) : Prop :=
  Artifact.list directory (alone directory path t) = [path] ∧
    ∃ run content, loadedRun b (IndexStore.onFiles directory) path (alone directory path t) = .ok run ∧
      run.fault = none ∧ run.state.read path = .ok content ∧ u.read path = .ok content

/-- **The complete final text of an artifact** is that of a run over the artifact alone. -/
theorem Settled.leftAsAlone (size_pos : 0 < size)
    (h : Settled outcome extensions directory name t u) (ht : t.Named)
    (hnodup : (t.names directory).Nodup) (hn : Path.IsName name)
    (hlist : Path.child directory name ∈ Artifact.list directory t) :
    LeftAsAlone (byName outcome size size_pos extensions) directory (Path.child directory name)
      t u := by
  let path := Path.child directory name
  let a := alone directory path t
  let b := byName outcome size size_pos extensions
  have ha : Agrees directory name t a := agrees_alone ht
  refine ⟨list_alone ht hnodup hlist, ?_⟩
  have hrun : ∀ {i}, load t path = .ok i → loadedRun b (IndexStore.onFiles directory) path a =
      .ok (b.summarizeIndex (IndexStore.onFiles directory) i path a) := by
    intro i hload
    have : load a path = .ok i := (ha.load hn).trans hload
    show (load a path).map _ = _
    rw [this]
    rfl
  cases h with
  | unchanged i hload hp hsame =>
    obtain ⟨content, hread⟩ := exists_read_of_load hload
    have hdone : b.summarizeIndex (IndexStore.onFiles directory) i path a =
        ⟨i, a, ⟨path, 0, 0, [], 0⟩, [], none⟩ := by
      unfold summarizeIndex
      rw [extensions_byName, hp, continueRun_nil]
      rfl
    refine ⟨_, content, hrun hload, ?_, ?_, (hsame.read hn).trans hread⟩
    · rw [hdone]
    · rw [hdone]
      exact (ha.read hn).trans hread
  | replaced i hload hp hrep =>
    obtain ⟨temporary, hr⟩ := hrep.ready
    have htidy := Path.tidy_child directory name
    obtain ⟨hfault, hholds⟩ := run_of_ready size_pos directory (ha.ready hn hr) hp
      hrep.holds.writable
    exact ⟨_, _, hrun hload, hfault, hholds.read htidy, hrep.holds.read htidy⟩

/-! ## One artifact after the other -/

/-- The fault is that of the load of an artifact, or of one of its saves. -/
def StoreFault.IsAt (store : IndexStore σ) (path : Text) (t : FileTree) (state : σ) :
    StoreFault → Prop
  | .load fault => Artifact.load t path = .error fault
  | .save fault => ∃ s i, store.save s i path = (.error fault, state)

/-- How runs over artifacts end: all of them are settled, or those before one that fails. -/
inductive Finished (store : IndexStore σ) (outcome : Text → Outcome) (extensions : List Text)
    (directory : Text) (t : FileTree) (names : List Text) (run : StoreRun σ) : Prop
  | completed (results : List Statistics) : run.result = .ok results →
      results.map Statistics.path = names.map (Path.child directory) →
      (∀ x ∈ names, Settled outcome extensions directory x t (store.files run.state)) →
      Touches directory names t (store.files run.state) →
      Finished store outcome extensions directory t names run
  | interrupted (before : List Text) (name : Text) (after : List Text) (fault : StoreFault) :
      names = before ++ name :: after → run.result = .error fault →
      fault.IsAt store (Path.child directory name) t run.state →
      (∀ x ∈ before, Settled outcome extensions directory x t (store.files run.state)) →
      Touches directory (before ++ [name]) t (store.files run.state) →
      Finished store outcome extensions directory t names run

/-- One artifact more, before the others. -/
theorem Finished.cons {run : StoreRun σ} {statistics : Statistics} {requests : List Request}
    (hnames : ∀ x ∈ name :: names, isNamed x = true ∧ Path.IsName x)
    (hnodup : (name :: names).Nodup) (htouches : Touches directory [name] t u)
    (hpath : statistics.path = Path.child directory name)
    (hsettled : Settled outcome extensions directory name t u)
    (h : Finished store outcome extensions directory u names run) :
    Finished store outcome extensions directory t (name :: names)
      { run with
        result := run.result.map fun results => statistics :: results
        requests } := by
  obtain ⟨hnotin, -⟩ := List.nodup_cons.1 hnodup
  obtain ⟨⟨hnamed, hn⟩, hothers⟩ := List.forall_mem_cons.1 hnames
  -- What was done for the first artifact concerns no other one, and the other way round.
  have hbefore : ∀ x ∈ names, Agrees directory x t u := by
    intro x hx
    refine htouches.agrees (hothers x hx).1 (by simpa using hnamed) ?_
    rw [List.mem_singleton]
    rintro rfl
    exact hnotin hx
  have hafter : ∀ {more v}, more ⊆ names → Touches directory more u v →
      Settled outcome extensions directory name t v := by
    intro more v hs htouches'
    refine hsettled.agrees (htouches'.agrees hnamed (fun x hx => (hothers x (hs hx)).1) ?_) hn
    exact fun hx => hnotin (hs hx)
  cases h with
  | completed results hresult hpaths hall htouches' =>
    refine .completed (statistics :: results) ?_ ?_ ?_ (htouches.trans htouches')
    · dsimp only
      rw [hresult]
      rfl
    · rw [List.map_cons, List.map_cons, hpath, hpaths]
    · rw [List.forall_mem_cons]
      refine ⟨hafter (List.Subset.refl names) htouches', fun x hx => ?_⟩
      exact (hall x hx).of_agrees (hbefore x hx) (hothers x hx).2
  | interrupted before y after fault hsplit hresult hat hall htouches' =>
    subst hsplit
    have hy : y ∈ before ++ y :: after := by simp
    refine .interrupted (name :: before) y after fault rfl ?_ ?_ ?_ (htouches.trans htouches')
    · dsimp only
      rw [hresult]
      rfl
    · cases fault with
      | load fault => exact ((hbefore y hy).load (hothers y hy).2).symm.trans hat
      | save fault => exact hat
    · rw [List.forall_mem_cons]
      refine ⟨hafter (fun x hx => ?_) htouches', fun x hx => ?_⟩
      · rcases List.mem_append.1 hx with hx | hx
        · exact List.mem_append_left _ hx
        · exact List.mem_singleton.1 hx ▸ hy
      · have hmem : x ∈ before ++ y :: after := List.mem_append_left _ hx
        exact (hall x hx).of_agrees (hbefore x hmem) (hothers x hmem).2

/-- **Runs over artifacts, one after the other**, up to the first fault. -/
theorem finished_summarizePaths (outcome : Text → Outcome) (size_pos : 0 < size)
    (extensions : List Text) (hstore : store.Faulty directory)
    (hnames : ∀ x ∈ names, isNamed x = true ∧ Path.IsName x) (hnodup : names.Nodup)
    (hd : names ≠ [] → (store.files s).HasDirectory ((store.files s).place directory)) :
    Finished store outcome extensions directory (store.files s) names
      ((byName outcome size size_pos extensions).summarizePaths store
        (names.map (Path.child directory)) s) := by
  induction names generalizing s with
  | nil => exact .completed [] rfl rfl nofun (.refl _ _ _)
  | cons name names ih =>
    obtain ⟨⟨-, hn⟩, hothers⟩ := List.forall_mem_cons.1 hnames
    rw [List.map_cons, summarizePaths, hstore.load]
    cases hload : Artifact.load (store.files s) (Path.child directory name) with
    | error fault => exact .interrupted [] name names (.load fault) rfl rfl hload nofun (.refl _ _ _)
    | ok i =>
      dsimp only
      obtain ⟨htouches, hend⟩ := run_of_load outcome size_pos extensions hstore hn
        (hd (List.cons_ne_nil name names)) hload
      rcases hend with ⟨hfault, hpath, hd', hsettled⟩ | ⟨fault, hfault, hsave⟩
      · rw [hfault]
        exact .cons hnames hnodup htouches hpath hsettled
          (ih hothers (List.nodup_cons.1 hnodup).2 fun _ => hd')
      · rw [hfault]
        exact .interrupted [] name names (.save fault) rfl rfl hsave nofun htouches

/-! ## All artifacts -/

/-- **What has become of a place** when artifacts were settled and one has failed. -/
theorem node?_of_settled {before : List Text} (hn : Path.IsName name)
    (hnames : ∀ x ∈ before, Path.IsName x)
    (hall : ∀ x ∈ before, Settled outcome extensions directory x t u)
    (htouches : Touches directory (before ++ [name]) t u) (k : List Text) :
    u.node? k = t.node? k ∨ (∃ x ∈ before ++ [name], k = t.place (Path.child directory x)) ∨
      (∃ temporary, temporary? (Path.child directory name) = some temporary ∧
        k = t.place temporary) ∨
      u.node? k = none ∧ ∃ x ∈ before, ∃ temporary,
        temporary? (Path.child directory x) = some temporary ∧ k = t.place temporary := by
  by_cases hself : ∃ x ∈ before ++ [name], k = t.place directory ++ [x]
  · obtain ⟨x, hx, rfl⟩ := hself
    refine .inr (.inl ⟨x, hx, (FileTree.place_child ?_).symm⟩)
    rcases List.mem_append.1 hx with hx | hx
    · exact hnames x hx
    · rwa [List.mem_singleton.1 hx]
  · by_cases htemp : ∃ x ∈ before ++ [name], k = t.place directory ++ [x ++ ".tmp"]
    · obtain ⟨x, hx, rfl⟩ := htemp
      rcases List.mem_append.1 hx with hx | hx
      · obtain ⟨temporary, ht, hplace⟩ := exists_temporary t directory (hnames x hx)
        cases hall x hx with
        | unchanged i _ _ hsame => exact .inl hsame.node?_temporary
        | replaced i _ _ hrep =>
          have hnone := hrep.node?_temporary
          rw [FileTree.place_of_current htouches.current] at hnone
          exact .inr (.inr (.inr ⟨hnone, x, hx, temporary, ht, hplace.symm⟩))
      · obtain ⟨temporary, ht, hplace⟩ := exists_temporary t directory hn
        rw [List.mem_singleton.1 hx]
        exact .inr (.inr (.inl ⟨temporary, ht, hplace.symm⟩))
    · refine .inl (htouches.node k fun x hx => ⟨fun he => hself ⟨x, hx, he⟩, fun he => ?_⟩)
      exact htemp ⟨x, hx, he⟩

/-- **Artifacts are independent** in runs over all of them, whichever of their loads and saves fail.
They come in the order of their paths. Where all runs complete, there is one result for each, and
what is left of each is what a run over it alone leaves. Where a load or save of one fails, this is
so for those before it; those after it are as they were; and nothing else has changed but what
stands at its path or under its temporary name, and that nothing stands any more under the temporary
name of one before it. -/
theorem summarizeStore_independent (outcome : Text → Outcome) (size : Nat) (size_pos : 0 < size)
    (extensions : List Text) (directory : Text) (store : IndexStore σ)
    (hstore : store.Faulty directory) (s : σ) (ht : (store.files s).Named)
    (hnodup : ((store.files s).names directory).Nodup) :
    let b := byName outcome size size_pos extensions
    let t := store.files s
    let paths := Artifact.list directory t
    let run := b.summarizeStore store s
    let u := store.files run.state
    paths.Pairwise (fun p q => Text.le p q = true ∧ p ≠ q) ∧
      match run.result with
      | .ok results => results.map Statistics.path = paths ∧
          ∀ path ∈ paths, LeftAsAlone b directory path t u
      | .error fault => ∃ before path after, paths = before ++ path :: after ∧
          fault.IsAt store path t run.state ∧
          (∀ p ∈ before, LeftAsAlone b directory p t u) ∧
          (∀ p ∈ after, u.read p = t.read p) ∧
          ∀ k, u.node? k = t.node? k ∨ (∃ p ∈ before ++ [path], k = t.place p) ∨
            (∃ temporary, temporary? path = some temporary ∧ k = t.place temporary) ∨
            u.node? k = none ∧ ∃ p ∈ before, ∃ temporary, temporary? p = some temporary ∧
              k = t.place temporary := by
  intro b t paths run u
  obtain ⟨names, hlist, hsorted, hnames⟩ := exists_names ht hnodup
  have hpaths : paths = names.map (Path.child directory) := hlist
  have hnames' : ∀ x ∈ names, isNamed x = true ∧ Path.IsName x := fun x hx =>
    ⟨(hnames x hx).1, (hnames x hx).2.1⟩
  have hdistinct : names.Nodup := hsorted.imp fun h => h.2
  have halone : ∀ x ∈ names, Settled outcome extensions directory x t u →
      LeftAsAlone b directory (Path.child directory x) t u := by
    intro x hx h
    exact h.leftAsAlone size_pos ht hnodup (hnames' x hx).2 (hlist ▸ List.mem_map_of_mem hx)
  refine ⟨?_, ?_⟩
  · rw [hpaths, List.pairwise_map]
    refine hsorted.imp_of_mem fun {x y} hx hy hxy => ?_
    have hxc := (hnames' x hx).2.toIsComponent
    have hyc := (hnames' y hy).2.toIsComponent
    rw [Path.le_child hxc hyc, Ne, Path.child_inj hxc hyc]
    exact hxy
  · have hrun : run = b.summarizePaths store (names.map (Path.child directory)) s := by
      show b.summarizePaths store (store.list s) s = _
      rw [hstore.list, hlist]
    have hfinished : Finished store outcome extensions directory t names run := by
      rw [hrun]
      refine finished_summarizePaths outcome size_pos extensions hstore hnames'
        hdistinct fun hne => ?_
      obtain ⟨x, hx⟩ := List.exists_mem_of_ne_nil names hne
      exact (hnames x hx).2.2
    cases hfinished with
    | completed results hresult hresults hall _ =>
      rw [hresult]
      refine ⟨hresults.trans hpaths.symm, fun path hpath => ?_⟩
      obtain ⟨x, hx, rfl⟩ := List.mem_map.1 (hpaths ▸ hpath)
      exact halone x hx (hall x hx)
    | interrupted before name after fault hsplit hresult hat hall htouches =>
      subst hsplit
      have hbefore : ∀ x ∈ before, x ∈ before ++ name :: after := fun x hx =>
        List.mem_append_left _ hx
      have hn : Path.IsName name := (hnames' name (by simp)).2
      rw [hresult]
      refine ⟨before.map (Path.child directory), Path.child directory name,
        after.map (Path.child directory), by rw [hpaths, List.map_append, List.map_cons], hat,
        fun p hp => ?_, fun p hp => ?_, fun k => ?_⟩
      · obtain ⟨x, hx, rfl⟩ := List.mem_map.1 hp
        exact halone x (hbefore x hx) (hall x hx)
      · obtain ⟨x, hx, rfl⟩ := List.mem_map.1 hp
        have hmem : x ∈ before ++ name :: after :=
          List.mem_append_right before (List.mem_cons_of_mem name hx)
        have hne : x ∉ before ++ [name] := by
          rw [List.append_cons] at hdistinct
          exact fun h => List.disjoint_of_nodup_append hdistinct h hx
        have hfirst : ∀ y ∈ before ++ [name], isNamed y = true := by
          intro y hy
          refine (hnames' y ?_).1
          rw [List.append_cons]
          exact List.mem_append_left after hy
        exact (htouches.agrees (hnames' x hmem).1 hfirst hne).read (hnames' x hmem).2
      · have hk := node?_of_settled hn (fun x hx => (hnames' x (hbefore x hx)).2) hall htouches k
        simpa using hk

/-- Three artifacts, of which the second one holds no index, and a file under the temporary name of
the first one. -/
def threeArtifacts : FileTree where
  nodes := [(["store"], .directory),
    (["store", "ast-a.json"], .file (Utf8.encode (bareIndex ["a.json"]).text)),
    (["store", "ast-a.json.tmp"], .file (Utf8.encode "stale")),
    (["store", "ast-b.json"], .file (Utf8.encode "not json")),
    (["store", "ast-c.json"], .file (Utf8.encode (bareIndex ["c.json"]).text))]
  current := "/"

/-- The paths of the three artifacts. -/
def threePaths : List Text := ["/store/ast-a.json", "/store/ast-b.json", "/store/ast-c.json"]

theorem list_threeArtifacts : Artifact.list "/store" threeArtifacts = threePaths := by
  let names : List Text := ["ast-a.json", "ast-b.json", "ast-c.json"]
  have hd : threeArtifacts.isOpen "/store" = true := by decide +kernel
  have hnames : (threeArtifacts.names "/store").filter isNamed = names := by decide +kernel
  have hsorted : Text.sorted names = names := List.mergeSort_of_pairwise (by decide +kernel)
  have hlist : Artifact.list "/store" threeArtifacts =
      (Text.sorted ((threeArtifacts.names "/store").filter isNamed)).map (Path.child "/store") := by
    rw [Artifact.list, if_pos hd]
    rfl
  rw [hlist, hnames, hsorted]
  decide +kernel

theorem summarizeStore_threeArtifacts (hstore : store.Faulty "/store")
    (hs : store.files s = threeArtifacts) (b : Batches) :
    b.summarizeStore store s = b.summarizePaths store threePaths s := by
  rw [summarizeStore, hstore.list, hs, list_threeArtifacts]

/-- The fault of the load that a run ended with. -/
def loadFault? : Except StoreFault (List Statistics) → Option LoadFault
  | .error (.load fault) => some fault
  | _ => none

theorem loadFault?_eq_some {result : Except StoreFault (List Statistics)} {fault : LoadFault} :
    loadFault? result = some fault ↔ result = .error (.load fault) := by
  unfold loadFault?
  split <;> simp_all

theorem summarizeStore_independent_threeArtifacts :
    let b := byName (allBut []) 1 Nat.one_pos [".json"]
    let run := b.summarizeStore ((IndexStore.onFiles "/store").failingOnce "disk full")
      (threeArtifacts, some 1)
    (∃ fault, run.result = .error (.load fault)) ∧
      LeftAsAlone b "/store" "/store/ast-a.json" threeArtifacts run.state.1 ∧
      run.state.1.read "/store/ast-c.json" = threeArtifacts.read "/store/ast-c.json" := by
  intro b run
  have hstore := (IndexStore.faulty_onFiles "/store").failingOnce "disk full"
  obtain ⟨fault, hresult⟩ : ∃ fault, run.result = .error (.load fault) := by
    have h : (loadFault? run.result).isSome = true := by
      rw [show run = _ from summarizeStore_threeArtifacts hstore rfl b]
      decide +kernel
    obtain ⟨fault, h⟩ := Option.isSome_iff_exists.1 h
    exact ⟨fault, loadFault?_eq_some.1 h⟩
  obtain ⟨-, h⟩ := summarizeStore_independent (allBut []) 1 Nat.one_pos [".json"] "/store"
    ((IndexStore.onFiles "/store").failingOnce "disk full") hstore (threeArtifacts, some 1)
    (FileTree.named_of_nodes (by decide) (by decide +kernel)) (by decide +kernel)
  rw [hresult] at h
  obtain ⟨before, path, after, hsplit, hat, hbefore, hafter, -⟩ := h
  have hloads : ∀ p, (Artifact.load threeArtifacts p).isOk = true → path ≠ p := by
    rintro p hp rfl
    have hfault : Artifact.load threeArtifacts path = .error fault := hat
    rw [hfault] at hp
    cases hp
  have ha := hloads "/store/ast-a.json" (by decide +kernel)
  have hc := hloads "/store/ast-c.json" (by decide +kernel)
  -- The load that fails is that of the second artifact.
  have hsplit : threePaths = before ++ path :: after := list_threeArtifacts.symm.trans hsplit
  rcases before with _ | ⟨x, _ | ⟨y, before⟩⟩
  · exact absurd (List.cons.inj hsplit).1.symm ha
  · obtain ⟨hx, hrest⟩ := List.cons.inj hsplit
    obtain ⟨-, hafter'⟩ := List.cons.inj hrest
    refine ⟨⟨fault, hresult⟩, hbefore _ ?_, hafter _ ?_⟩
    · exact List.mem_singleton.2 hx
    · rw [← hafter']
      exact List.mem_singleton_self _
  · have hlength := congrArg List.length hsplit
    have hnil : before = [] := by
      rw [List.length_append, List.length_cons, List.length_cons, List.length_cons] at hlength
      have : threePaths.length = 3 := rfl
      exact List.length_eq_zero_iff.1 (by omega)
    subst hnil
    exact absurd (List.cons.inj (List.cons.inj (List.cons.inj hsplit).2).2).1.symm hc

/-- A file under the temporary name of an artifact before the one that fails is gone when that
artifact was saved: more has changed than the artifacts up to the one that fails and what stands
under its own temporary name. -/
theorem staleTemporary_gone :
    let b := byName (allBut []) 1 Nat.one_pos [".json"]
    let run := b.summarizeStore (IndexStore.onFiles "/store") threeArtifacts
    Artifact.list "/store" threeArtifacts = threePaths ∧ run.result.isOk = false ∧
      (Artifact.load threeArtifacts "/store/ast-a.json").isOk = true ∧
      (Artifact.load threeArtifacts "/store/ast-b.json").isOk = false ∧
      ¬ ∀ p, p ∉ threePaths.take 2 → temporary? "/store/ast-b.json" ≠ some p →
        run.state.read p = threeArtifacts.read p := by
  intro b run
  have hrun : run = b.summarizePaths (IndexStore.onFiles "/store") threePaths threeArtifacts :=
    summarizeStore_threeArtifacts (IndexStore.faulty_onFiles "/store") rfl b
  refine ⟨list_threeArtifacts, ?_, by decide +kernel, by decide +kernel, fun h => ?_⟩
  · rw [hrun]
    decide +kernel
  · have hstale := h "/store/ast-a.json.tmp" (by decide +kernel) (by decide +kernel)
    rw [hrun] at hstale
    revert hstale
    decide +kernel

end Batches

end SourceAtlas
