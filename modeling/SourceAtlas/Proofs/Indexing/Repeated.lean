import SourceAtlas.Proofs.Indexing.OwnArtifacts
import SourceAtlas.Proofs.Store.Atomic

/-!
# Indexing once more

Repositories whose artifacts are there are passed over. So what was indexed once is not indexed
again, in whatever order and however often the repositories are named, and whatever happens to them
in the meantime.

* `Artifact.isFile_of_save`, `Artifact.isFile_of_save_iff`: the artifacts that are there after a save;
* `Indexer.Writes`, `Indexer.indexAll_eq_ok`: a run over several repositories as the steps that it
  takes, and the saves that they make;
* `Indexer.Writes.isFile`, `Indexer.Writes.holds`, `Indexer.Writes.fileAt?`: what a run leaves;
* `Indexer.Writes.map_fst`: the artifacts that it writes;
* **`Indexer.indexAll_once`**: a run, and what is left for later ones.
-/

namespace SourceAtlas

/-! ## Artifacts that are there -/

namespace Artifact

variable {t u : FileTree} {directory name other : Text} {i : Index}

/-- **The artifact that was saved is there.** -/
theorem isFile_of_save_self (hs : save t i (Path.child directory name) = (.ok (), u)) :
    u.isFile (Path.child directory name) = true :=
  isFile_of_read ((holds_of_save hs).read (Path.tidy_child directory name))

/-- **An artifact that was there is there** after a save. -/
theorem isFile_of_save {path : Text} (ho : IsOwnName other)
    (h : t.isFile (Path.child directory other) = true) (hs : save t i path = (.ok (), u)) :
    u.isFile (Path.child directory other) = true := by
  obtain ⟨hkeeps, hcurrent, -⟩ := keeps_of_save hs
  obtain ⟨n, hstat, hd⟩ := FileTree.isFile_eq_true.1 h
  obtain ⟨hv, hw, hn, hslash⟩ := FileTree.stat_eq_ok.1 hstat
  have hslash := hslash.resolve_left (by rw [hd]; exact Bool.false_ne_true)
  have hstays : ∀ m, u.node? (t.place (Path.child directory other)) = some m →
      m.isDirectory = false → u.isFile (Path.child directory other) = true := by
    intro m hm hd
    rw [← FileTree.place_of_current hcurrent] at hw hm
    exact FileTree.isFile_eq_true.2
      ⟨m, FileTree.stat_eq_ok.2 ⟨hv, hkeeps.walk hw, hm, .inr hslash⟩, hd⟩
  rcases node?_of_save hs ho.isNamed (FileTree.place_child ho.isName) with he | ⟨hnone, -⟩ |
    ⟨-, -, -, hnode⟩
  · exact hstays n (he.trans hn) hd
  · rw [hn] at hnone
    cases hnone
  · exact hstays _ hnode rfl

/-- The directory of what stands in it can be found, if it can be once there are more. -/
def Finds (directory : Text) (t : FileTree) : Prop :=
  ∀ u c, FileTree.KeepsDirectories t u → u.HasDirectory (t.place directory) →
    (t.node? (t.place directory ++ [c])).isSome = true → t.HasDirectory (t.place directory)

/-- **No other artifact is there** after a save, if what stands in the directory could be found. -/
theorem isFile_of_save_iff (hn : IsOwnName name) (ho : IsOwnName other)
    (hfound : Finds directory t) (hs : save t i (Path.child directory name) = (.ok (), u)) :
    u.isFile (Path.child directory other) = true ↔
      other = name ∨ t.isFile (Path.child directory other) = true := by
  constructor
  · intro h
    obtain ⟨n, hstat, hd⟩ := FileTree.isFile_eq_true.1 h
    obtain ⟨hv, hw, hnode, hslash⟩ := FileTree.stat_eq_ok.1 hstat
    have hplace : t.place (Path.child directory other) = t.place directory ++ [other] :=
      FileTree.place_child ho.isName
    obtain ⟨hkeeps, hcurrent, -⟩ := keeps_of_save hs
    rw [FileTree.place_of_current hcurrent] at hw hnode
    rcases node?_of_save hs ho.isNamed hplace with he | ⟨-, hdirectory⟩ | ⟨he, -⟩
    · rw [he] at hnode
      rw [hplace, FileTree.walk_concat] at hw
      have hd' := hfound u other hkeeps hw.1 (by rw [← hplace, hnode]; rfl)
      refine .inr (FileTree.isFile_eq_true.2 ⟨n, FileTree.stat_eq_ok.2 ⟨hv, ?_, hnode, hslash⟩, hd⟩)
      rw [hplace]
      exact FileTree.walk_concat.2 ⟨hd', hw.2⟩
    · rw [hdirectory] at hnode
      cases hnode
      cases hd
    · rw [hplace, FileTree.place_child hn.isName, List.append_cancel_left_eq,
        List.singleton_inj] at he
      exact .inl he
  · rintro (rfl | h)
    · exact isFile_of_save_self hs
    · exact isFile_of_save ho h hs

end Artifact

/-! ## Runs -/

namespace Indexer

section Runs

variable {σ : Type} {indexer : Indexer} {host : Host} {store : IndexStore σ} {s s' : σ}
  {repositories paths : List Text} {saves : List (Text × Index)}

/-- **The steps of a run** over several repositories, and the saves that they make: a repository
whose artifact is there is passed over, and the index of any other is saved. -/
inductive Writes (indexer : Indexer) (host : Host) (store : IndexStore σ) :
    σ → List Text → List (Text × Index) → σ → Prop where
  | done (s : σ) : Writes indexer host store s [] [] s
  | passed {s s' : σ} {r : Text} {repositories : List Text} {saves : List (Text × Index)} :
      store.refusal? s r.trim = none → store.holds s r.trim = true →
      Writes indexer host store s repositories saves s' →
      Writes indexer host store s (r :: repositories) saves s'
  | saved {s u s' : σ} {r : Text} {i : Index} {repositories : List Text}
      {saves : List (Text × Index)} : store.refusal? s r.trim = none →
      store.holds s r.trim = false → indexer.index host (store.files s) r.trim = .ok i →
      store.save s i (store.pathFor r.trim) = (.ok (), u) →
      Writes indexer host store u repositories saves s' →
      Writes indexer host store s (r :: repositories) ((store.pathFor r.trim, i) :: saves) s'

/-- **A run that succeeds** is one of such steps, and returns the paths of its saves. -/
theorem indexAll_eq_ok : indexer.indexAll host store false repositories s = (.ok paths, s') ↔
    ∃ saves, Writes indexer host store s repositories saves s' ∧ saves.map Prod.fst = paths := by
  constructor
  · intro h
    induction repositories generalizing s paths with
    | nil =>
      cases h
      exact ⟨[], .done _, rfl⟩
    | cons r rs ih =>
      rw [indexAll, Bool.not_false, Bool.and_true] at h
      cases hnone : store.refusal? s r.trim with
      | some fault =>
        rw [hnone] at h
        cases h
      | none =>
        rw [hnone] at h
        dsimp only at h
        cases hholds : store.holds s r.trim with
        | true =>
          rw [hholds, if_pos rfl] at h
          obtain ⟨saves, hsteps, hpaths⟩ := ih h
          exact ⟨saves, .passed hnone hholds hsteps, hpaths⟩
        | false =>
          rw [hholds, if_neg Bool.false_ne_true] at h
          split at h
          · cases h
          · rename_i i hi
            split at h
            · cases h
            · rename_i u hsave
              split at h
              · rename_i rest v hrest
                cases h
                obtain ⟨saves, hsteps, rfl⟩ := ih hrest
                exact ⟨_, .saved hnone hholds hi hsave hsteps, rfl⟩
              · cases h
  · rintro ⟨saves, hsteps, rfl⟩
    induction hsteps with
    | done s => rfl
    | passed hnone hholds _ ih => exact (indexAll_of_holds hnone hholds).trans ih
    | saved hnone hholds hi hsave _ ih => exact indexAll_of_saved hnone hholds hi hsave ih

/-- Repositories whose artifacts are there are all passed over. -/
theorem indexAll_of_forall_holds (h : ∀ r ∈ repositories,
    store.refusal? s r.trim = none ∧ store.holds s r.trim = true) :
    indexer.indexAll host store false repositories s = (.ok [], s) := by
  induction repositories with
  | nil => rfl
  | cons r rs ih =>
    obtain ⟨hr, hrs⟩ := List.forall_mem_cons.1 h
    exact (indexAll_of_holds hr.1 hr.2).trans (ih hrs)

/-- A run with a record of its saves. -/
theorem Writes.recording (h : Writes indexer host store s repositories saves s')
    (log : List (Text × Index)) :
    Writes indexer host store.recording (s, log) repositories saves (s', log ++ saves) := by
  induction h generalizing log with
  | done s =>
    rw [List.append_nil]
    exact .done _
  | passed hnone hholds _ ih => exact .passed hnone hholds (ih log)
  | @saved s u s' r i rs saves hnone hholds hi hsave _ ih =>
    have hrest := ih (log ++ [(store.pathFor r.trim, i)])
    rw [List.append_assoc, List.singleton_append] at hrest
    exact .saved hnone hholds hi (Batches.save_recording log hsave) hrest

end Runs

/-! ## What a run leaves -/

section Files

variable {indexer : Indexer} {host : Host} {directory r : Text} {t u : FileTree} {i : Index}
  {repositories : List Text} {saves : List (Text × Index)}

/-- **An artifact that is there stays** there. -/
theorem Writes.isFile_of_isFile {name : Text}
    (h : Writes indexer host (.onFiles directory) t repositories saves u)
    (hn : Artifact.IsOwnName name) (hf : t.isFile (Path.child directory name) = true) :
    u.isFile (Path.child directory name) = true := by
  induction h with
  | done => exact hf
  | passed _ _ _ ih => exact ih hf
  | saved _ _ _ hsave _ ih => exact ih (Artifact.isFile_of_save hn hf hsave)

/-- **Each repository has its artifact** after a run. -/
theorem Writes.isFile (h : Writes indexer host (.onFiles directory) t repositories saves u)
    (hr : r ∈ repositories) : u.isFile (Path.child directory (artifactName r)) = true := by
  induction h with
  | done => cases hr
  | passed _ hholds hrest ih =>
    rcases List.mem_cons.1 hr with rfl | hr
    · rw [holds_trim] at hholds
      exact hrest.isFile_of_isFile (isOwnName_artifactName r) hholds
    · exact ih hr
  | saved _ hholds _ hsave hrest ih =>
    rcases List.mem_cons.1 hr with rfl | hr
    · rw [pathFor_trim] at hsave
      exact hrest.isFile_of_isFile (isOwnName_artifactName r) (Artifact.isFile_of_save_self hsave)
    · exact ih hr

/-- An artifact that holds an index is not written again. -/
theorem Writes.holds_of_holds {name : Text}
    (h : Writes indexer host (.onFiles directory) t repositories saves u)
    (hn : Artifact.IsOwnName name) (hi : Artifact.Holds t (Path.child directory name) i) :
    Artifact.Holds u (Path.child directory name) i := by
  induction h with
  | done => exact hi
  | passed _ _ _ ih => exact ih hi
  | @saved t _ _ r _ _ _ _ hholds _ hsave _ ih =>
    rw [holds_trim] at hholds
    rw [pathFor_trim] at hsave
    refine ih (hi.of_save (isOwnName_artifactName r) hn ?_ hsave)
    rintro rfl
    rw [Artifact.isFile_of_read (hi.read (Path.tidy_child directory _))] at hholds
    cases hholds

/-- **What was saved is held** after the run: no save of a run replaces another. -/
theorem Writes.holds (h : Writes indexer host (.onFiles directory) t repositories saves u)
    {save : Text × Index} (hs : save ∈ saves) : Artifact.Holds u save.1 save.2 := by
  induction h with
  | done => cases hs
  | passed _ _ _ ih => exact ih hs
  | @saved _ _ _ r _ _ _ _ _ _ hsave hrest ih =>
    rcases List.mem_cons.1 hs with rfl | hs
    · rw [pathFor_trim] at hsave ⊢
      exact hrest.holds_of_holds (isOwnName_artifactName r) (Artifact.holds_of_save hsave)
    · exact ih hs

/-- **No other file changes**: a run leaves all files but those at the paths of its saves. What had
one of their temporary names is gone. -/
theorem Writes.fileAt? {key : List Text}
    (h : Writes indexer host (.onFiles directory) t repositories saves u)
    (hkey : ∀ path ∈ saves.map Prod.fst, key ≠ t.place path) :
    u.fileAt? key = t.fileAt? key ∨ u.fileAt? key = none ∧ ∃ path ∈ saves.map Prod.fst,
      ∃ temporary, Artifact.temporary? path = some temporary ∧ key = t.place temporary := by
  induction h with
  | done => exact .inl rfl
  | passed _ _ _ ih => exact ih hkey
  | @saved t v u r i rs saves _ _ _ hsave hrest ih =>
    obtain ⟨hne, hkey⟩ := List.forall_mem_cons.1 hkey
    have hplace := FileTree.place_of_current (Artifact.keeps_of_save hsave).2.1
    simp only [hplace] at ih
    rcases ih hkey with hu | ⟨hu, path, hpath, htemporary⟩
    · obtain ⟨temporary, -, -, ht, -⟩ := Artifact.save_eq_ok.1 hsave
      by_cases he : key = t.place temporary
      · refine .inr ⟨?_, _, List.mem_cons_self, temporary, ht, he⟩
        rw [hu, he, FileTree.fileAt?, Artifact.node?_temporary ht hsave, Option.filter_none]
      · exact .inl (hu.trans (Artifact.fileAt?_of_save ht hsave he (.inl hne)))
    · exact .inr ⟨hu, path, List.mem_cons_of_mem _ hpath, htemporary⟩

theorem Writes.grounded (h : Writes indexer host (.onFiles directory) t repositories saves u)
    (ht : t.Grounded) : u.Grounded := by
  induction h with
  | done => exact ht
  | passed _ _ _ ih => exact ih ht
  | saved _ _ _ hsave _ ih => exact ih (Artifact.grounded_of_save hsave ht)

/-- **The artifacts that a run writes** are those of its repositories that were not there, each
once, in the order in which they are first named. -/
theorem Writes.map_fst (h : Writes indexer host (.onFiles directory) t repositories saves u)
    (hfound : Artifact.Finds directory t) : saves.map Prod.fst =
      ((repositories.map (IndexStore.onFiles directory).pathFor).filter
        fun p => !t.isFile p).eraseDups := by
  induction h with
  | done => rfl
  | @passed t _ r _ _ _ hholds _ ih =>
    rw [holds_trim] at hholds
    have hr : t.isFile ((IndexStore.onFiles directory).pathFor r) = true := hholds
    rw [ih hfound, List.map_cons, List.filter_cons_of_neg (by rw [hr]; exact Bool.false_ne_true)]
  | @saved t v _ r _ rs _ _ hholds _ hsave _ ih =>
    rw [holds_trim] at hholds
    rw [pathFor_trim] at hsave ⊢
    have hr : t.isFile ((IndexStore.onFiles directory).pathFor r) = false := hholds
    -- The directory of the new artifact is found from then on.
    obtain ⟨temporary, hready⟩ := (Artifact.holds_of_save hsave).ready
    have hd := hready.hasDirectory (isName_artifactName r)
    have hnew : ∀ s, v.isFile ((IndexStore.onFiles directory).pathFor s) =
        ((IndexStore.onFiles directory).pathFor s == Path.child directory (artifactName r) ||
          t.isFile ((IndexStore.onFiles directory).pathFor s)) := by
      intro s
      rw [Bool.eq_iff_iff, Bool.or_eq_true, beq_iff_eq]
      exact (Artifact.isFile_of_save_iff (isOwnName_artifactName r) (isOwnName_artifactName s)
        hfound hsave).trans (or_congr_left (Path.child_inj (isName_artifactName s).toIsComponent
          (isName_artifactName r).toIsComponent).symm)
    rw [List.map_cons, ih fun _ _ _ _ _ => hd, List.map_cons,
      List.filter_cons_of_pos (by rw [hr]; rfl), List.eraseDups_cons, List.filter_filter]
    congr 2
    refine List.filter_congr fun p hp => ?_
    obtain ⟨s, -, rfl⟩ := List.mem_map.1 hp
    rw [hnew, Bool.not_or]
    rfl

end Files

/-- **What was indexed once is not indexed again.** A run that succeeds writes one artifact for each
path that its repositories have and at which no file was, in the order in which they are first
named. Each holds the index that was saved there. No other file changes, and none is left under a
temporary name. From then on, as long as the artifacts are there, a run over any of the repositories,
in any order and as often as they are named, writes nothing, whatever has become of the
repositories. The trees are those of `FileTree`. -/
theorem indexAll_once (indexer : Indexer) (host : Host) (directory : Text) (t u : FileTree)
    (repositories paths : List Text) (ht : t.Grounded)
    (h : indexer.indexAll host (.onFiles directory) false repositories t = (.ok paths, u)) :
    let store := IndexStore.onFiles directory
    paths = ((repositories.map store.pathFor).filter fun path => !t.isFile path).eraseDups ∧
      (∃ saves, indexer.indexAll host store.recording false repositories (t, []) =
          (.ok paths, (u, saves)) ∧
        saves.map Prod.fst = paths ∧ ∀ save ∈ saves, Artifact.Holds u save.1 save.2) ∧
      (∀ key, (∀ path ∈ paths, key ≠ t.place path) → u.fileAt? key = t.fileAt? key ∨
        u.fileAt? key = none ∧ ∃ path ∈ paths,
          ∃ temporary, Artifact.temporary? path = some temporary ∧ key = t.place temporary) ∧
      u.Grounded ∧
      ∀ (later : Indexer) (host' : Host) (again : List Text) (v : FileTree), again ⊆ repositories →
        (∀ r ∈ repositories, v.isFile (store.pathFor r) = u.isFile (store.pathFor r)) →
        later.indexAll host' store false again v = (.ok [], v) := by
  intro store
  obtain ⟨saves, hsteps, rfl⟩ := indexAll_eq_ok.1 h
  refine ⟨hsteps.map_fst fun _ _ => ht.hasDirectory, ⟨saves, ?_, rfl, fun _ => hsteps.holds⟩,
    fun _ => hsteps.fileAt?, hsteps.grounded ht, fun later host' again v hagain hv => ?_⟩
  · exact indexAll_eq_ok.2 ⟨saves, hsteps.recording [], rfl⟩
  · refine indexAll_of_forall_holds fun r hr => ?_
    have hfile := (hv r (hagain hr)).trans (hsteps.isFile (hagain hr))
    rw [refusal?_trim, holds_trim]
    exact ⟨FileTree.refusal?_of_isFile hfile, hfile⟩

/-- Two repositories share an artifact, one is named again with a slash at its end, and one has its
artifact already. -/
theorem indexAll_once_sharedArtifact :
    let t : FileTree := ⟨[(["r"], .directory), (["r", "one"], .directory), (["x"], .directory),
      (["x", "one"], .directory), (["store"], .directory), (["store", "ast-two.json"], .file [])],
      "/"⟩
    let indexer : Indexer := ⟨fun _ _ => none, [], ".ts"⟩
    let host : Host := ⟨"/", fun _ _ => .finished [] [] 0⟩
    let store := IndexStore.onFiles "/store"
    let repositories : List Text := ["/r/one/", " /r/two ", "/x/one", "/r/one"]
    ∃ u, t.Grounded ∧ indexer.indexAll host store false repositories t =
        (.ok ([.ofString "/store/ast-one.json"] : List Text), u) ∧
      ∀ (later : Indexer) (host' : Host),
        later.indexAll host' store false ["/x/one", " /r/two "] u = (.ok [], u) := by
  intro t indexer host store repositories
  have ht : t.Grounded := by decide +kernel
  have hpaths : (indexer.indexAll host store false repositories t).1.toOption =
      some ([.ofString "/store/ast-one.json"] : List Text) := by
    decide +kernel
  obtain ⟨u, hrun⟩ : ∃ u, indexer.indexAll host store false repositories t =
      (.ok ([.ofString "/store/ast-one.json"] : List Text), u) := by
    have hresult := Except.toOption_eq_some.1 hpaths
    generalize indexer.indexAll host store false repositories t = run at hresult
    exact ⟨run.2, Prod.ext hresult rfl⟩
  obtain ⟨-, -, -, -, hlater⟩ := indexAll_once indexer host "/store" t u repositories _ ht hrun
  exact ⟨u, ht, hrun, fun later host' =>
    hlater later host' _ u (by decide +kernel) fun _ _ => rfl⟩

end Indexer

end SourceAtlas
