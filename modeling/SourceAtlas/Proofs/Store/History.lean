import SourceAtlas.Indexing
import SourceAtlas.Proofs.Batch.Resume
import SourceAtlas.Proofs.Store.Artifacts

/-!
# Histories of a store

Indexing and summarizing write into one directory, any number of times, and any of their saves may
fail. Through all of it the artifacts in the directory only gain summaries.

* `Artifact.persists_of_failingOnce`: one save, of which it is open whether it is the one that fails;
* `Indexer.persists_indexAll`: indexing changes no artifact;
* `Batches.Underwent`, `Batches.persists_summarizeIndex`, `Batches.persists_summarizePaths`: runs of
  batches make artifacts grow;
* `Operation`, `Step`, `Step.persists`: what is done to a store in one step;
* **`Step.history_grows`**: what the artifacts are after any history.
-/

namespace SourceAtlas

/-! ## Saves that may fail -/

/-- A save of a store of which one save fails is a save of the store, or it changes nothing. -/
theorem IndexStore.save_failingOnce_cases {σ : Type} {store : IndexStore σ} {message path : Text}
    {i : Index} {s s' : σ × Option Nat} {result : Except SaveFault Unit}
    (h : (store.failingOnce message).save s i path = (result, s')) :
    store.save s.1 i path = (result, s'.1) ∨ s'.1 = s.1 ∧ result = .error (.refused message) := by
  obtain ⟨s, left⟩ := s
  obtain ⟨s', left'⟩ := s'
  cases result with
  | ok u => exact .inl (Batches.save_failingOnce_ok h).1
  | error fault =>
    rcases Batches.save_failingOnce_error h with ⟨-, rfl, hs⟩ | hs
    · exact .inr ⟨hs, rfl⟩
    · exact .inl hs

open Artifact (Sound Persists At Stands)

section Failing

variable {directory message path : Text} {i : Index} {s s' : FileTree × Option Nat}
  {result : Except SaveFault Unit} {R : Index → Index → Prop}

/-- One save, of which it is open whether it is the one that fails. -/
theorem Artifact.persists_of_failingOnce (hR : ∀ i, R i i) (hs : Sound directory s.1)
    (h : ((IndexStore.onFiles directory).failingOnce message).save s i path = (result, s'))
    (hi : ∀ name k, s.1.place path = s.1.place directory ++ [name] → At directory s.1 name k →
      result = .ok () → R k i) : Sound directory s'.1 ∧ Persists R directory s.1 s'.1 := by
  rcases IndexStore.save_failingOnce_cases h with h | ⟨he, -⟩
  · exact ⟨sound_of_save hs h, persists_of_save hR h hi⟩
  · rw [he]
    exact ⟨hs, .refl hR _ _⟩

end Failing

/-! ## Indexing -/

/-- Two indexes of one text. -/
def Index.SameText (i j : Index) : Prop := i.text = j.text

theorem Index.SameText.refl (i : Index) : i.SameText i := rfl

theorem Index.SameText.trans {i j k : Index} (h : i.SameText j) (h' : j.SameText k) : i.SameText k :=
  Eq.trans h h'

namespace Indexer

/-- The name of an artifact can stand in a directory. -/
theorem isName_artifactName (repository : Text) : Path.IsName (artifactName repository) := by
  let front : Text := Text.trimEndBy (fun c => decide (c = Point.ofChar '/')) repository.trim
  have hslash : Point.ofChar '/' ∉ Path.fileName front := by
    rw [Path.fileName, List.getLastD_eq_getLast?]
    cases hl : (Path.components front).getLast? with
    | none => exact List.not_mem_nil
    | some c => exact (Path.isComponent_of_mem (List.mem_of_getLast? hl)).noSlash
  refine Path.isName_of_length ?_ ?_
  · have h : (Text.ofString "ast-").length = 4 := by decide
    rw [artifactName, List.length_append, List.length_append, h]
    omega
  · rw [artifactName, List.mem_append, List.mem_append, not_or, not_or]
    exact ⟨⟨by decide, hslash⟩, by decide⟩

/-- **Indexing changes no artifact that is there.** -/
theorem persists_indexAll (indexer : Indexer) (host : Host) (directory message : Text)
    (repositories : List Text) (s : FileTree × Option Nat) (hs : Sound directory s.1) :
    let s' := (indexer.indexAll host ((IndexStore.onFiles directory).failingOnce message) false
      repositories s).2
    Sound directory s'.1 ∧ Persists Index.SameText directory s.1 s'.1 := by
  intro s'
  induction repositories generalizing s with
  | nil => exact ⟨hs, .refl Index.SameText.refl _ _⟩
  | cons r rs ih =>
    have hstep : ∀ {i result u}, s.1.isFile (Path.child directory (artifactName r.trim)) = false →
        ((IndexStore.onFiles directory).failingOnce message).save s i
          (Path.child directory (artifactName r.trim)) = (result, u) →
        Sound directory u.1 ∧ Persists Index.SameText directory s.1 u.1 := by
      intro i result u hfile hsave
      refine Artifact.persists_of_failingOnce Index.SameText.refl hs hsave fun name k hplace hk _ => ?_
      rw [FileTree.place_child (isName_artifactName r.trim), List.append_cancel_left_eq] at hplace
      rw [List.singleton_inj.1 hplace, Artifact.isFile_of_read (hk.read hs.named)] at hfile
      cases hfile
    show Sound directory (indexer.indexAll host _ false (r :: rs) s).2.1 ∧
      Persists Index.SameText directory s.1 (indexer.indexAll host _ false (r :: rs) s).2.1
    unfold indexAll
    dsimp only
    split
    · exact ⟨hs, .refl Index.SameText.refl _ _⟩
    · split
      · exact ih s hs
      · rename_i hholds
        have hfile : s.1.isFile (Path.child directory (artifactName r.trim)) = false := by
          simpa [IndexStore.failingOnce, IndexStore.onFiles] using hholds
        split
        · exact ⟨hs, .refl Index.SameText.refl _ _⟩
        · split
          · rename_i hsave
            exact hstep hfile hsave
          · rename_i u hsave
            obtain ⟨hu, hpersists⟩ := hstep hfile hsave
            have hrest := ih u hu
            have htrans : ∀ {u'}, Persists Index.SameText directory u.1 u' →
                Persists Index.SameText directory s.1 u' :=
              fun h => hpersists.trans (fun _ _ _ => .trans) h
            split <;> rename_i hall <;> rw [hall] at hrest <;> exact ⟨hrest.1, htrans hrest.2⟩

end Indexer

/-! ## Summarizing -/

/-- What is read back of one index grows into what is read back of another. -/
def Index.Outgrown (i j : Index) : Prop := i.reread.Grows j.reread

theorem Index.Outgrown.refl (i : Index) : i.Outgrown i := Index.Grows.refl i.reread

theorem Index.Outgrown.trans {i j k : Index} (h : i.Outgrown j) (h' : j.Outgrown k) :
    i.Outgrown k :=
  Index.Grows.trans h h'

theorem Index.SameText.outgrown {i j : Index} (hi : i.toJson.isWritable = true)
    (hj : j.toJson.isWritable = true) (h : i.SameText j) : i.Outgrown j := by
  show i.reread.Grows j.reread
  rw [Artifact.reread_of_text hi hj h]
  exact .refl j.reread

namespace Batches

/-- A batch makes the index grow. -/
theorem grows_summarizeBatch {σ : Type} (b : Batches) (store : IndexStore σ)
    (run : BatchRun σ) (batch : List Text) :
    run.index.Grows (b.summarizeBatch store run batch).index := by
  rw [index_summarizeBatch]
  exact ⟨rfl, rfl, rfl, rfl, fun f hf => Json.mem_keys_insertAll.2 (.inl hf)⟩

variable {b : Batches} {directory message path : Text} {t : FileTree} {failing : Option Nat}

/-- A run has kept the artifacts so far, and what stands at its path is what was saved last. -/
structure Underwent (directory path : Text) (t : FileTree) (run : BatchRun (FileTree × Option Nat)) :
    Prop where
  sound : Sound directory run.state.1
  persists : Persists Index.Outgrown directory t run.state.1
  target : run.statistics.path = path
  index : ∀ k, Stands run.state.1 (run.state.1.place path) k → k.reread = run.index.reread

theorem Underwent.next {run : BatchRun (FileTree × Option Nat)} {batch : List Text}
    {result : Except SaveFault Unit} {s : FileTree × Option Nat} (h : Underwent directory path t run)
    (hsave : ((IndexStore.onFiles directory).failingOnce message).save run.state
      (b.summarizeBatch ((IndexStore.onFiles directory).failingOnce message) run batch).index
      run.statistics.path = (result, s)) :
    Sound directory s.1 ∧ Persists Index.Outgrown directory t s.1 := by
  rw [h.target] at hsave
  have hrelated : ∀ k, Stands run.state.1 (run.state.1.place path) k → k.Outgrown
      (b.summarizeBatch ((IndexStore.onFiles directory).failingOnce message) run batch).index := by
    intro k hk
    show k.reread.Grows _
    rw [h.index k hk]
    exact (grows_summarizeBatch b _ run batch).reread
  obtain ⟨hs, hp⟩ := Artifact.persists_of_failingOnce Index.Outgrown.refl h.sound hsave
    fun name k hplace hk _ => hrelated k (hplace ▸ hk.stands)
  exact ⟨hs, h.persists.trans (fun _ _ _ => .trans) hp⟩

/-- **A run over the index of an artifact keeps the artifacts.** -/
theorem persists_summarizeIndex (b : Batches) (message : Text) (failing : Option Nat) {i : Index}
    (hs : Sound directory t) (hload : Artifact.load t path = .ok i) :
    let run := b.summarizeIndex ((IndexStore.onFiles directory).failingOnce message) i path (t, failing)
    Sound directory run.state.1 ∧ Persists Index.Outgrown directory t run.state.1 := by
  intro run
  refine continueRun_induction (fun run _ => Underwent directory path t run)
    (fun run => Sound directory run.state.1 ∧ Persists Index.Outgrown directory t run.state.1)
    (fun run h => ⟨h.sound, h.persists⟩) (fun run pending fault s _ h hsave => h.next hsave)
    (fun run pending s _ h hsave => ?_) _ _ ?_
  · obtain ⟨hsound, hpersists⟩ := h.next hsave
    refine ⟨hsound, hpersists, h.target, fun k hk => ?_⟩
    rw [h.target] at hsave
    obtain hsave | ⟨-, hr⟩ := IndexStore.save_failingOnce_cases hsave
    · have hholds := Artifact.holds_of_save hsave
      exact hk.reread_eq ⟨hholds.writable, hholds.node⟩
    · cases hr
  · refine ⟨hs, .refl Index.Outgrown.refl _ _, rfl, fun k hk => ?_⟩
    have hi := Stands.load_eq hk hload
    show k.reread = i.reread
    rw [hi, Index.reread_reread]

/-- **Runs over artifacts keep them all.** -/
theorem persists_summarizePaths (b : Batches) (message : Text) (paths : List Text)
    (s : FileTree × Option Nat) (hs : Sound directory s.1) :
    let s' := (b.summarizePaths ((IndexStore.onFiles directory).failingOnce message) paths s).state
    Sound directory s'.1 ∧ Persists Index.Outgrown directory s.1 s'.1 := by
  intro s'
  induction paths generalizing s with
  | nil => exact ⟨hs, .refl Index.Outgrown.refl _ _⟩
  | cons path paths ih =>
    show Sound directory (b.summarizePaths _ (path :: paths) s).state.1 ∧
      Persists Index.Outgrown directory s.1 (b.summarizePaths _ (path :: paths) s).state.1
    rw [summarizePaths]
    split
    · exact ⟨hs, .refl Index.Outgrown.refl _ _⟩
    · rename_i i hload
      obtain ⟨hrun, hpersists⟩ := persists_summarizeIndex b message s.2 hs hload
      dsimp only
      split
      · exact ⟨hrun, hpersists⟩
      · obtain ⟨hrest, hpersists'⟩ := ih _ hrun
        exact ⟨hrest, hpersists.trans (fun _ _ _ => .trans) hpersists'⟩

end Batches

/-! ## Steps -/

/-- What is done to a store: the artifacts of repositories that have none are written, or all
artifacts are summarized, or one artifact is loaded and summarized. -/
inductive Operation where
  | index (indexer : Indexer) (host : Host) (repositories : List Text)
  | summarizeStore (b : Batches)
  | summarize (b : Batches) (path : Text)

/-- An operation, of which one save may fail. -/
structure Step where
  operation : Operation
  failing : Option Nat
  message : Text

namespace Step

/-- The operation writes the artifacts of repositories that have none. -/
def indexes (step : Step) : Prop :=
  ∃ indexer host repositories, step.operation = .index indexer host repositories

/-- The tree after a step over the store of a directory. -/
def run (directory : Text) (t : FileTree) (step : Step) : FileTree :=
  let store := (IndexStore.onFiles directory).failingOnce step.message
  match step.operation with
  | .index indexer host repositories =>
    (indexer.indexAll host store false repositories (t, step.failing)).2.1
  | .summarizeStore b => (b.summarizeStore store (t, step.failing)).state.1
  | .summarize b path =>
    match Batches.loadedRun b store path (t, step.failing) with
    | .ok run => run.state.1
    | .error _ => t

/-- The tree after a history of steps. -/
def after (directory : Text) (t : FileTree) (history : List Step) : FileTree :=
  history.foldl (run directory) t

variable {directory : Text} {t : FileTree} {history more : List Step}

/-- **One step keeps the artifacts**, and indexing changes none. -/
theorem persists (hs : Sound directory t) (step : Step) :
    Sound directory (step.run directory t) ∧
      Persists Index.Outgrown directory t (step.run directory t) ∧
      (step.indexes → Persists Index.SameText directory t (step.run directory t)) := by
  obtain ⟨operation, failing, message⟩ := step
  cases operation with
  | index indexer host repositories =>
    obtain ⟨hsound, hsame⟩ :=
      indexer.persists_indexAll host directory message repositories (t, failing) hs
    exact ⟨hsound, hsame.mono fun _ _ hi hj h => h.outgrown hi hj, fun _ => hsame⟩
  | summarizeStore b =>
    obtain ⟨hsound, hpersists⟩ :=
      b.persists_summarizePaths message (Artifact.list directory t) (t, failing) hs
    refine ⟨hsound, hpersists, ?_⟩
    rintro ⟨_, _, _, h⟩
    cases h
  | summarize b path =>
    let store := (IndexStore.onFiles directory).failingOnce message
    cases hload : Artifact.load t path with
    | error fault =>
      have hrun : run directory t ⟨.summarize b path, failing, message⟩ = t := by
        have hl : store.load (t, failing) path = .error fault := hload
        simp only [run, Batches.loadedRun, store] at hl ⊢
        rw [hl]
        rfl
      rw [hrun]
      refine ⟨hs, .refl Index.Outgrown.refl _ _, ?_⟩
      rintro ⟨_, _, _, h⟩
      cases h
    | ok i =>
      have hrun : run directory t ⟨.summarize b path, failing, message⟩ =
          (b.summarizeIndex store i path (t, failing)).state.1 := by
        have hl : store.load (t, failing) path = .ok i := hload
        simp only [run, Batches.loadedRun, store] at hl ⊢
        rw [hl]
        rfl
      rw [hrun]
      obtain ⟨hsound, hpersists⟩ := b.persists_summarizeIndex message failing hs hload
      refine ⟨hsound, hpersists, ?_⟩
      rintro ⟨_, _, _, h⟩
      cases h

/-- **A history of steps keeps the artifacts**, and changes none if it only indexes. -/
theorem persists_after (hs : Sound directory t) (history : List Step) :
    Sound directory (after directory t history) ∧
      Persists Index.Outgrown directory t (after directory t history) ∧
      ((∀ step ∈ history, step.indexes) →
        Persists Index.SameText directory t (after directory t history)) := by
  induction history generalizing t with
  | nil =>
    exact ⟨hs, .refl Index.Outgrown.refl _ _, fun _ => .refl Index.SameText.refl _ _⟩
  | cons step history ih =>
    obtain ⟨hstep, hpersists, hsame⟩ := persists hs step
    obtain ⟨hrest, hpersists', hsame'⟩ := ih hstep
    refine ⟨hrest, hpersists.trans (fun _ _ _ => .trans) hpersists', fun h => ?_⟩
    exact (hsame (h step List.mem_cons_self)).trans (fun _ _ _ => .trans)
      (hsame' fun other ho => h other (List.mem_cons_of_mem step ho))

/-- **Artifacts only gain summaries.** Through every history that starts where saves have written
all artifacts, and from any point of it to any later one, each artifact is still there and loads, has
a summary of each file that had one, and is the same otherwise. Where all that was done between the
two points is indexing, it is the same to the letter. -/
theorem history_grows (directory : Text) (t : FileTree) (hs : Sound directory t)
    (history more : List Step) (path : Text) :
    let before := after directory t history
    let later := after directory before more
    path ∈ Artifact.list directory before → before.isFile path = true →
      path ∈ Artifact.list directory later ∧ later.isFile path = true ∧
      (∃ i j, Artifact.load before path = .ok i ∧ Artifact.load later path = .ok j ∧ i.Grows j) ∧
      ((∀ step ∈ more, step.indexes) → later.read path = before.read path) := by
  intro before later hp hf
  obtain ⟨hbefore, -, -⟩ := persists_after hs history
  obtain ⟨hlater, hpersists, hsame⟩ := persists_after hbefore more
  obtain ⟨name, i, hi, rfl⟩ := Artifact.exists_at hbefore hp hf
  obtain ⟨j, hj, hij⟩ := hpersists.at hi
  refine ⟨hj.mem_list, Artifact.isFile_of_read (hj.read hlater.named),
    ⟨i.reread, j.reread, hi.load hbefore.named, hj.load hlater.named, hij⟩, fun h => ?_⟩
  obtain ⟨k, hk, hik⟩ := (hsame h).at hi
  rw [hk.read hlater.named, hi.read hbefore.named]
  exact congrArg (fun text => Except.ok (Utf8.encode text)) (Eq.symm hik)

/-- A directory for artifacts in which nothing stands. -/
theorem sound_emptyDirectory : Sound "/store" ⟨[(["store"], .directory)], "/"⟩ := by
  refine ⟨FileTree.named_of_nodes (by decide) (by decide), fun name n _ hnode _ => ?_⟩
  · have hplace : (⟨[(["store"], .directory)], "/"⟩ : FileTree).place "/store" = ["store"] := by
      decide +kernel
    obtain ⟨m, hm, hkey⟩ := (FileTree.exists_mem_nodes_iff (by simp)).1
      (Option.isSome_iff_exists.2 ⟨n, hnode⟩)
    rw [List.mem_singleton.1 hm, hplace] at hkey
    cases hkey

/-- All artifacts are summarized and a save fails; then the missing artifacts are written. -/
theorem history_grows_twoSteps :
    let t := Batches.treeWith (Batches.bareIndex ["a.json", "b.json"])
    let indexer : Indexer := ⟨fun _ _ => none, [], ".ts"⟩
    let host : Host := ⟨"/", fun _ _ => .finished [] [] 0⟩
    let b := Batches.byName (Batches.allBut "/r/b.json") 1 Nat.one_pos [".json"]
    let before := after "/store" t [⟨.summarizeStore b, some 1, "disk full"⟩]
    let later := after "/store" before [⟨.index indexer host ["/store", "/r"], none, []⟩]
    before.isFile "/store/ast-store.json" = false ∧ later.isFile "/store/ast-store.json" = true ∧
      (∃ i j, Artifact.load before "/store/ast-r.json" = .ok i ∧
        Artifact.load later "/store/ast-r.json" = .ok j ∧ i.Grows j) ∧
      later.read "/store/ast-r.json" = before.read "/store/ast-r.json" := by
  intro t indexer host b before later
  have hsave : Artifact.save ⟨[(["store"], .directory)], "/"⟩
      (Batches.bareIndex ["a.json", "b.json"]) "/store/ast-r.json" = (.ok (), t) :=
    Prod.ext (by rfl) rfl
  obtain ⟨-, -, hloads, hsame⟩ := history_grows "/store" t
    (Artifact.sound_of_save sound_emptyDirectory hsave)
    [⟨.summarizeStore b, some 1, "disk full"⟩] [⟨.index indexer host ["/store", "/r"], none, []⟩]
    "/store/ast-r.json" (by decide +kernel) (by decide +kernel)
  refine ⟨by decide +kernel, by decide +kernel, hloads, hsame fun step hstep => ?_⟩
  rw [List.mem_singleton.1 hstep]
  exact ⟨_, _, _, rfl⟩

end Step

end SourceAtlas
