import SourceAtlas.Proofs.Blank
import SourceAtlas.Proofs.Indexing.OneFile
import SourceAtlas.Proofs.Store.Frames
import SourceAtlas.Proofs.Store.History

/-!
# The artifacts of repositories

Repositories that have no artifact yet are indexed one after the other, each into the artifact that
its text names. The name is the last component of the text alone, and a repository whose artifact is
there is passed over: of repositories with one name, the first has the artifact.

* `artifactName_trim`, `isOwnName_artifactName`: names of artifacts;
* `Artifact.Accepts`, `Artifact.Accepts.exists_save`: where any index can be saved;
* `Artifact.Accepts.of_save`, `Artifact.Holds.of_save`: one save takes nothing from another
  artifact;
* `Indexer.Passes`, `Indexer.Passes.exists_index`: the trees that lie on the way of indexing, and
  repositories that can be indexed on each of them;
* `Indexer.Indexed`, `Indexer.Indexed.next`: the artifacts that are there so far, and one more;
* **`Indexer.indexAll_firsts`**: what is written when several repositories are indexed;
* **`Indexer.ownArtifact_iff`**: each repository has its own artifact exactly if no two repositories
  have one name.
-/

namespace SourceAtlas

/-! ## Names of artifacts -/

theorem artifactName_trim (repository : Text) :
    artifactName (Text.trim repository) = artifactName repository := by
  rw [artifactName, artifactName, Text.trim_trim]

/-- The name of an artifact in a directory. -/
structure Artifact.IsOwnName (name : Text) : Prop where
  isName : Path.IsName name
  isNamed : Artifact.isNamed name = true

theorem isOwnName_artifactName (repository : Text) :
    Artifact.IsOwnName (artifactName repository) := by
  refine ⟨Indexer.isName_artifactName repository, ?_⟩
  rw [Artifact.isNamed, artifactName, Bool.and_eq_true, Text.startsWith_iff, Text.endsWith_iff]
  refine ⟨?_, List.suffix_append _ _⟩
  rw [List.append_assoc]
  exact List.prefix_append _ _

-- The name does not tell where the repository is.
example : artifactName "/repo" = artifactName "/x/repo" := by decide

/-! ## Where indexes can be saved -/

namespace Artifact

variable {t u v : FileTree} {directory path name other : Text} {i j : Index}

/-- An index can be saved at a path: its directory is there or can be made, and then nothing is in
the way. -/
def Accepts (t : FileTree) (path : Text) : Prop :=
  ∃ t₁ temporary, t.makeDirectories (Path.parent path) = (.ok (), t₁) ∧ Ready t₁ path temporary

/-- The directory of an artifact that is ready is there. -/
theorem Ready.hasDirectory {temporary : Text} (h : Ready t (Path.child directory name) temporary)
    (hn : Path.IsName name) : t.HasDirectory (t.place directory) := by
  have hw := h.walk
  rw [FileTree.place_child hn] at hw
  exact (FileTree.walk_concat.1 hw).1

/-- A save is one where the directory of the artifact is there. -/
theorem exists_save_made (hn : Path.IsName name)
    (h : save t i (Path.child directory name) = (.ok (), u)) : ∃ t₁,
      t.makeDirectories (Path.parent (Path.child directory name)) = (.ok (), t₁) ∧
        t₁.HasDirectory (t₁.place directory) ∧
        save t₁ i (Path.child directory name) = (.ok (), u) := by
  obtain ⟨temporary, t₁, t₂, htemp, hmake, hw, hwrite, hmove⟩ := save_eq_ok.1 h
  have hwalk := (FileTree.write_eq_ok.1 hwrite).1.walk
  rw [place_temporary_child hn htemp] at hwalk
  have hagain := FileTree.makeDirectories_of_isDirectory (FileTree.isDirectory_of_makeDirectories hmake)
  exact ⟨t₁, hmake, (FileTree.walk_concat.1 hwalk).1,
    save_eq_ok.2 ⟨temporary, t₁, t₂, htemp, hagain, hw, hwrite, hmove⟩⟩

/-- What a save replaces is no directory. -/
theorem lacksDirectory_of_save (hn : Path.IsName name) (hd : t.HasDirectory (t.place directory))
    (h : save t i (Path.child directory name) = (.ok (), u)) :
    t.LacksDirectory (t.place directory ++ [name]) := by
  have hs := saved_of_hasDirectory (by rwa [place_parent_child hn]) h
  cases hs with
  | moved ht hcan _ hmove =>
    have hne : t.place directory ++ [name] ≠ t.place directory ++ [name ++ ".tmp"] := by
      rw [Ne, List.append_cancel_left_eq, List.singleton_inj]
      exact (append_tmp_ne name).symm
    intro n hnode
    refine hmove.free n ?_
    rwa [FileTree.place_put, FileTree.place_child hn, FileTree.node?_put (by simp),
      place_temporary_child hn ht, if_neg hne]

/-- Where one index was saved, any can be. -/
theorem accepts_of_save_self (hn : Path.IsName name)
    (h : save t i (Path.child directory name) = (.ok (), u)) :
    Accepts t (Path.child directory name) := by
  obtain ⟨t₁, hmake, hd, hs⟩ := exists_save_made hn h
  obtain ⟨temporary, hr⟩ := ready_of_save hn hd (lacksDirectory_of_save hn hd hs) hs
  exact ⟨t₁, temporary, hmake, hr⟩

theorem Accepts.exists_save (h : Accepts t path) (hw : i.toJson.isWritable = true) :
    ∃ u, save t i path = (.ok (), u) := by
  obtain ⟨t₁, temporary, hmake, hr⟩ := h
  obtain ⟨u, hs⟩ := Artifact.exists_save hr hw
  obtain ⟨temporary, t₁', t₂, htemp, hmake', hw, hwrite, hmove⟩ := save_eq_ok.1 hs
  cases hmake'.symm.trans (FileTree.makeDirectories_of_isDirectory hr.above)
  exact ⟨u, save_eq_ok.2 ⟨temporary, t₁, t₂, htemp, hmake, hw, hwrite, hmove⟩⟩

theorem accepts_of_ready {temporary : Text} (h : Ready t path temporary) : Accepts t path :=
  ⟨t, temporary, FileTree.makeDirectories_of_isDirectory h.above, h⟩

/-- It can be told what stands where an index can be saved. -/
theorem Accepts.refusal? (h : Accepts t path) : t.refusal? path = none := by
  obtain ⟨t₁, temporary, hmake, hr⟩ := h
  have hdeep := FileTree.deepened_of_makeDirectories t (Path.parent path)
  rw [hmake] at hdeep
  exact hdeep.keepsDirectories.refusal? hdeep.current hr.valid hr.walk

/-- One save of an artifact whose directory is there changes nothing that another one needs. -/
theorem agrees_of_save (hn : IsOwnName name) (ho : IsOwnName other) (hne : other ≠ name)
    (hd : t.HasDirectory (t.place directory))
    (hs : save t i (Path.child directory name) = (.ok (), u)) : Agrees directory other t u :=
  (touches_of_save hn.isName hd hs).agrees ho.isNamed (by simpa using hn.isNamed)
    (by simpa using hne)

/-- **One save of an artifact does not take from another** the place that it can be saved at. -/
theorem Accepts.of_save (h : Accepts t (Path.child directory other)) (hn : IsOwnName name)
    (ho : IsOwnName other) (hs : save t i (Path.child directory name) = (.ok (), u)) :
    Accepts u (Path.child directory other) := by
  by_cases he : other = name
  · obtain ⟨temporary, hr⟩ := (holds_of_save hs).ready
    exact he ▸ accepts_of_ready hr
  · obtain ⟨t₁, temporary, hmake, hr⟩ := h
    obtain ⟨t₁', hmake', hd, hs'⟩ := exists_save_made hn.isName hs
    rw [Path.parent_child ho.isName.toIsComponent] at hmake
    rw [Path.parent_child hn.isName.toIsComponent] at hmake'
    cases hmake.symm.trans hmake'
    exact accepts_of_ready ((agrees_of_save hn ho he hd hs').ready ho.isName hr)

/-- **One save of an artifact leaves another as it stands.** -/
theorem Holds.of_save (h : Holds t (Path.child directory other) j) (hn : IsOwnName name)
    (ho : IsOwnName other) (hne : other ≠ name)
    (hs : save t i (Path.child directory name) = (.ok (), u)) :
    Holds u (Path.child directory other) j := by
  obtain ⟨temporary, hr⟩ := h.ready
  exact (agrees_of_save hn ho hne (hr.hasDirectory ho.isName) hs).holds ho.isName h

/-- What has another name is not touched. -/
theorem Touches.node?_of_name {names : List Text} (h : Touches directory names t u)
    (hnames : ∀ x ∈ names, isNamed x = true) (hn : isNamed other = false)
    (ht : Text.endsWith other ".tmp" = false) (key : List Text) :
    u.node? (key ++ [other]) = t.node? (key ++ [other]) := by
  refine h.node _ fun x hx => ⟨fun he => ?_, fun he => ?_⟩
  · have hx' := hnames x hx
    rw [← List.singleton_inj.1 (List.append_inj' he rfl).2, hn] at hx'
    cases hx'
  · have htmp : other = x ++ ".tmp" := List.singleton_inj.1 (List.append_inj' he rfl).2
    rw [Text.endsWith_iff.2 ⟨x, htmp.symm⟩] at ht
    cases ht

end Artifact

/-! ## Indexing one after the other -/

namespace Indexer

section Steps

variable {σ : Type} {indexer : Indexer} {host : Host} {store : IndexStore σ} {s u v : σ} {r : Text}
  {repositories paths : List Text} {i : Index}

/-- A repository is passed over if the store has its artifact. -/
theorem indexAll_of_holds (hf : store.refusal? s r.trim = none) (h : store.holds s r.trim = true) :
    indexer.indexAll host store false (r :: repositories) s =
      indexer.indexAll host store false repositories s := by
  rw [indexAll, hf, h]
  rfl

/-- The index of a repository is saved if the store does not have its artifact. -/
theorem indexAll_of_saved (hf : store.refusal? s r.trim = none) (h : store.holds s r.trim = false)
    (hi : indexer.index host (store.files s) r.trim = .ok i)
    (hs : store.save s i (store.pathFor r.trim) = (.ok (), u))
    (hrest : indexer.indexAll host store false repositories u = (.ok paths, v)) :
    indexer.indexAll host store false (r :: repositories) s =
      (.ok (store.pathFor r.trim :: paths), v) := by
  rw [indexAll, hf, h, hi, Bool.false_and]
  simp only [Bool.false_eq_true, if_false]
  rw [hs]
  dsimp only
  rw [hrest]

end Steps

theorem pathFor_trim (directory r : Text) : (IndexStore.onFiles directory).pathFor r.trim =
    Path.child directory (artifactName r) :=
  congrArg (Path.child directory) (artifactName_trim r)

theorem holds_trim (directory r : Text) (t : FileTree) :
    (IndexStore.onFiles directory).holds t r.trim =
      t.isFile (Path.child directory (artifactName r)) :=
  congrArg (fun name => t.isFile (Path.child directory name)) (artifactName_trim r)

theorem refusal?_trim (directory r : Text) (t : FileTree) :
    (IndexStore.onFiles directory).refusal? t r.trim =
      t.refusal? (Path.child directory (artifactName r)) :=
  congrArg (fun name => t.refusal? (Path.child directory name)) (artifactName_trim r)

variable {indexer : Indexer} {host : Host} {directory : Text} {all repositories : List Text}
  {done : List Text} {t u v : FileTree} {i : Index} {r : Text}

theorem rootOf_congr (h : u.current = t.current) (repository : Text) :
    rootOf host u repository = rootOf host t repository := by
  rw [rootOf, rootOf, h]

/-- A fresh index can be written. -/
theorem isWritable_of_index (h : indexer.index host t r = .ok i) : i.toJson.isWritable = true := by
  obtain ⟨root, files, paths, -, -, -, -, rfl⟩ := index_eq_ok.1 h
  exact Index.isWritable_iff.2 ⟨fun m hm => (nomatch hm), fun s hs => (nomatch hs)⟩

theorem rootOf_of_index (h : indexer.index host t r = .ok i) :
    rootOf host t r = .ok i.repository := by
  obtain ⟨root, files, paths, hroot, -, -, -, rfl⟩ := index_eq_ok.1 h
  exact hroot

/-- The trees that lie on the way of indexing some repositories: each of them is left by a save of
the index of one. -/
inductive Passes (indexer : Indexer) (host : Host) (directory : Text) (all : List Text) :
    FileTree → FileTree → Prop
  | refl (t : FileTree) : Passes indexer host directory all t t
  | save {t u v : FileTree} {r : Text} {i : Index} : r ∈ all →
      indexer.index host t (Text.trim r) = .ok i →
      Artifact.save t i (Path.child directory (artifactName r)) = (.ok (), u) →
      Passes indexer host directory all u v → Passes indexer host directory all t v

/-- Indexing takes no directory away, and touches nothing but the artifacts of the repositories. -/
theorem Passes.touches (h : Passes indexer host directory all t u)
    (hd : t.HasDirectory (t.place directory)) : FileTree.KeepsDirectories t u ∧
      Artifact.Touches directory (all.map artifactName) t u := by
  induction h with
  | refl t => exact ⟨fun _ _ _ hk => hk, .refl directory _ t⟩
  | @save t u v r i hr hi hs hrest ih =>
    obtain ⟨hkeeps, hcurrent, -⟩ := Artifact.keeps_of_save hs
    have hplace := FileTree.place_of_current hcurrent directory
    obtain ⟨hkeeps', htouches⟩ := ih (hplace ▸ hkeeps.hasDirectory hd)
    refine ⟨hkeeps.trans hkeeps', ?_⟩
    refine ((Artifact.touches_of_save (isName_artifactName r) hd hs).trans htouches).mono ?_
    exact List.append_subset.2 ⟨by simpa using ⟨r, hr, rfl⟩, List.Subset.refl _⟩

/-- A directory that can be entered has no options on any tree on the way if it has none at first. -/
theorem Passes.ofRepository {root : Text} (h : Passes indexer host directory all t u)
    (hd : t.HasDirectory (t.place directory)) (hopen : t.HasDirectory (t.place root))
    (hv : Path.Valid (Path.child root "tsconfig.json"))
    (hnone : t.node? (t.place (Path.child root "tsconfig.json")) = none) :
    ModulePaths.ofRepository u root = .ok ⟨root, []⟩ := by
  obtain ⟨hkeeps, htouches⟩ := h.touches hd
  have hplace := FileTree.place_of_current htouches.current
  have hname : Path.IsName "tsconfig.json" := by decide
  have hnode : u.node? (u.place (Path.child root "tsconfig.json")) = none := by
    rw [hplace, FileTree.place_child hname,
      htouches.node?_of_name (by simpa using fun s _ => (isOwnName_artifactName s).isNamed)
        (by decide) (by decide), ← FileTree.place_child hname, hnone]
  have hwalk : u.walk [] (u.place (Path.child root "tsconfig.json")) = .ok () := by
    rw [hplace, FileTree.place_child hname]
    exact FileTree.walk_concat.2 ⟨hkeeps.hasDirectory hopen, by decide⟩
  have hsame : FileTree.KeepsDirectories u u := fun _ _ _ hk => hk
  have hrefusal := hsame.refusal? rfl hv hwalk
  have hfile : u.isFile (Path.child root "tsconfig.json") = false := by
    rw [← Bool.not_eq_true, FileTree.isFile_eq_true]
    rintro ⟨n, hstat, -⟩
    rw [(FileTree.stat_eq_ok.1 hstat).2.2.1] at hnode
    cases hnode
  unfold ModulePaths.ofRepository
  dsimp only
  rw [hrefusal, hfile]
  rfl

/-- **A repository without options can be indexed on each tree on the way**, if its files are listed
there. -/
theorem Passes.exists_index {root stdout stderr : Text}
    (h : Passes indexer host directory all t u) (hd : t.HasDirectory (t.place directory))
    (hroot : rootOf host t (Text.trim r) = .ok root) (hopen : t.isOpen root = true)
    (hv : Path.Valid (Path.child root "tsconfig.json"))
    (hnone : t.node? (t.place (Path.child root "tsconfig.json")) = none)
    (hgit : host.git u root = .finished stdout stderr 0)
    (hfit : ∀ f ∈ Repository.listed indexer.excluded stdout, Path.isFit f = true) :
    ∃ i, indexer.index host u (Text.trim r) = .ok i := by
  obtain ⟨hkeeps, htouches⟩ := h.touches hd
  obtain ⟨hvalid, hhas⟩ := FileTree.isOpen_eq_true.1 hopen
  have hdir := hkeeps.isDirectory htouches.current (hhas.isDirectory hvalid)
  refine ⟨_, index_eq_ok.2 ⟨root, _, _, (rootOf_congr htouches.current _).trans hroot,
    Repository.trackedFiles_eq_ok.2 ⟨hdir, stdout, stderr, hgit, rfl⟩,
    h.ofRepository hd hhas hv hnone, fun p hp => ?_, rfl⟩⟩
  obtain ⟨f, hf, -, rfl⟩ := mem_sources.1 hp
  exact Path.fit_child hvalid.fit (hfit f hf)

/-- The artifacts that are there when some repositories have been indexed. No other file has the
name of an artifact. -/
structure Indexed (directory : Text) (t : FileTree) (done : List Text) : Prop where
  holds : ∀ r ∈ done, ∃ i, Artifact.Holds t (Path.child directory (artifactName r)) i
  fresh : ∀ name, Artifact.isNamed name = true → name ∉ done.map artifactName →
    t.node? (t.place directory ++ [name]) = none ∨
      t.node? (t.place directory ++ [name]) = some .directory

/-- A repository has an artifact if one of its name was indexed. -/
theorem Indexed.isFile_iff (h : Indexed directory t done) (r : Text) :
    t.isFile (Path.child directory (artifactName r)) = true ↔
      artifactName r ∈ done.map artifactName := by
  constructor
  · intro hf
    by_contra hne
    obtain ⟨n, hstat, hd⟩ := FileTree.isFile_eq_true.1 hf
    have hn := (FileTree.stat_eq_ok.1 hstat).2.2.1
    rw [FileTree.place_child (isName_artifactName r)] at hn
    rcases h.fresh _ (isOwnName_artifactName r).isNamed hne with hnode | hnode <;>
      rw [hnode] at hn <;> cases hn
    cases hd
  · intro hmem
    obtain ⟨s, hs, he⟩ := List.mem_map.1 hmem
    obtain ⟨i, hi⟩ := h.holds s hs
    rw [← he]
    exact Artifact.isFile_of_read (hi.read (Path.tidy_child directory _))

/-- A new artifact leaves those that are there as they stand. -/
theorem holds_of_save_new {j : Index} {s : Text} (hr : artifactName r ∉ done.map artifactName)
    (hs : Artifact.save t i (Path.child directory (artifactName r)) = (.ok (), u)) (hd : s ∈ done)
    (hj : Artifact.Holds t (Path.child directory (artifactName s)) j) :
    Artifact.Holds u (Path.child directory (artifactName s)) j := by
  refine hj.of_save (isOwnName_artifactName r) (isOwnName_artifactName s) (fun he => hr ?_) hs
  exact he ▸ List.mem_map_of_mem hd

/-- **One repository is indexed** that has no artifact yet. -/
theorem Indexed.next (h : Indexed directory t done) (hr : artifactName r ∉ done.map artifactName)
    (hs : Artifact.save t i (Path.child directory (artifactName r)) = (.ok (), u)) :
    Indexed directory u (r :: done) := by
  have hcurrent := (Artifact.keeps_of_save hs).2.1
  refine ⟨fun s hmem => ?_, fun name hn hne => ?_⟩
  · rcases List.mem_cons.1 hmem with rfl | hmem
    · exact ⟨i, Artifact.holds_of_save hs⟩
    · obtain ⟨j, hj⟩ := h.holds s hmem
      exact ⟨j, holds_of_save_new hr hs hmem hj⟩
  · rw [List.map_cons, List.mem_cons, not_or] at hne
    rw [FileTree.place_of_current hcurrent]
    rcases Artifact.node?_of_save hs hn rfl with he | ⟨-, hd⟩ | ⟨hplace, -⟩
    · rw [he]
      exact h.fresh name hn hne.2
    · exact .inr hd
    · rw [FileTree.place_child (isName_artifactName r), List.append_cancel_left_eq,
        List.singleton_inj] at hplace
      exact absurd hplace hne.1

/-- A repository that has an artifact is passed over. -/
theorem indexAll_of_isFile (h : t.isFile (Path.child directory (artifactName r)) = true) :
    indexer.indexAll host (.onFiles directory) false (r :: repositories) t =
      indexer.indexAll host (.onFiles directory) false repositories t :=
  indexAll_of_holds ((refusal?_trim directory r t).trans (FileTree.refusal?_of_isFile h))
    ((holds_trim directory r t).trans h)

/-- The artifact of a repository that has none is written. -/
theorem indexAll_of_save {paths : List Text}
    (hf : t.refusal? (Path.child directory (artifactName r)) = none)
    (h : t.isFile (Path.child directory (artifactName r)) = false)
    (hi : indexer.index host t (Text.trim r) = .ok i)
    (hs : Artifact.save t i (Path.child directory (artifactName r)) = (.ok (), u))
    (hrest : indexer.indexAll host (.onFiles directory) false repositories u = (.ok paths, v)) :
    indexer.indexAll host (.onFiles directory) false (r :: repositories) t =
      (.ok (Path.child directory (artifactName r) :: paths), v) := by
  rw [← pathFor_trim] at hs ⊢
  exact indexAll_of_saved ((refusal?_trim directory r t).trans hf)
    ((holds_trim directory r t).trans h) hi hs hrest

/-- The names of the artifacts that repositories add to those of others, each once. -/
def newNames (done repositories : List Text) : List Text :=
  ((repositories.map artifactName).filter fun n => n ∉ done.map artifactName).eraseDups

theorem newNames_of_mem (h : artifactName r ∈ done.map artifactName) :
    newNames done (r :: repositories) = newNames done repositories := by
  rw [newNames, List.map_cons, List.filter_cons_of_neg (by simpa using h), newNames]

theorem newNames_of_not_mem (h : artifactName r ∉ done.map artifactName) :
    newNames done (r :: repositories) = artifactName r :: newNames (r :: done) repositories := by
  rw [newNames, List.map_cons, List.filter_cons_of_pos (by simpa using h), List.eraseDups_cons,
    List.filter_filter, newNames]
  congr 2
  refine List.filter_congr fun n _ => ?_
  by_cases hn : n = artifactName r <;> simp [hn]

/-- **What is written when several repositories are indexed**: one artifact for each name that is
new, which holds the index of the first repository of that name. -/
theorem indexAll_firsts (hall : repositories ⊆ all)
    (hindex : ∀ v, Passes indexer host directory all u v → ∀ r ∈ all,
      ∃ i, indexer.index host v (Text.trim r) = .ok i)
    (haccepts : ∀ r ∈ repositories, Artifact.Accepts u (Path.child directory (artifactName r)))
    (hdone : Indexed directory u done) : ∃ w,
      indexer.indexAll host (.onFiles directory) false repositories u =
        (.ok ((newNames done repositories).map (Path.child directory)), w) ∧
      (∀ r ∈ done, ∀ i, Artifact.Holds u (Path.child directory (artifactName r)) i →
        Artifact.Holds w (Path.child directory (artifactName r)) i) ∧
      ∀ r ∈ repositories, artifactName r ∉ done.map artifactName → ∃ s i,
        repositories.find? (fun s => artifactName s = artifactName r) = some s ∧
          Artifact.Holds w (Path.child directory (artifactName r)) i ∧
          rootOf host u (Text.trim s) = .ok i.repository := by
  -- `done` grows by what is saved, so that each name has its artifact from the first of that name.
  induction repositories generalizing u done with
  | nil => exact ⟨u, rfl, fun _ _ _ => id, fun _ hr => nomatch hr⟩
  | cons r rs ih =>
    obtain ⟨hr, hrs⟩ := List.cons_subset.1 hall
    by_cases hmem : artifactName r ∈ done.map artifactName
    · obtain ⟨w, hrun, hkept, hfirst⟩ :=
        ih hrs hindex (fun s hs => haccepts s (List.mem_cons_of_mem r hs)) hdone
      refine ⟨w, ?_, hkept, fun s hs hnew => ?_⟩
      · rw [indexAll_of_isFile ((hdone.isFile_iff r).2 hmem), hrun, newNames_of_mem hmem]
      · have hne : artifactName r ≠ artifactName s := fun he => hnew (he ▸ hmem)
        rw [List.find?_cons_of_neg (by simpa using hne)]
        rcases List.mem_cons.1 hs with rfl | hs
        · exact absurd rfl hne
        · exact hfirst s hs hnew
    · have hf : u.isFile (Path.child directory (artifactName r)) = false := by
        rw [← Bool.not_eq_true, hdone.isFile_iff]
        exact hmem
      obtain ⟨i, hi⟩ := hindex u (.refl u) r hr
      obtain ⟨v, hs⟩ := (haccepts r List.mem_cons_self).exists_save (isWritable_of_index hi)
      have hcurrent := (Artifact.keeps_of_save hs).2.1
      obtain ⟨w, hrun, hkept, hfirst⟩ := @ih (r :: done) v hrs
        (fun x hx => hindex x (.save hr hi hs hx))
        (fun s hmem => (haccepts s (List.mem_cons_of_mem r hmem)).of_save (isOwnName_artifactName r)
          (isOwnName_artifactName s) hs)
        (hdone.next hmem hs)
      refine ⟨w, ?_, fun s hd j hj => ?_, fun s hmem' hnew => ?_⟩
      · rw [indexAll_of_save (haccepts r List.mem_cons_self).refusal? hf hi hs hrun,
          newNames_of_not_mem hmem, List.map_cons]
      · exact hkept s (List.mem_cons_of_mem r hd) j (holds_of_save_new hmem hs hd hj)
      · by_cases he : artifactName s = artifactName r
        · refine ⟨r, i, List.find?_cons_of_pos (by simpa using he.symm), ?_, rootOf_of_index hi⟩
          rw [he]
          exact hkept r List.mem_cons_self i (Artifact.holds_of_save hs)
        · rw [List.find?_cons_of_neg (by simpa using Ne.symm he)]
          rcases List.mem_cons.1 hmem' with rfl | hmem'
          · exact absurd rfl he
          · obtain ⟨o, j, ho, hj, hroot⟩ := hfirst s hmem' (by simp [he, hnew])
            exact ⟨o, j, ho, hj, (rootOf_congr hcurrent _).symm.trans hroot⟩

/-- **Each repository has its own artifact exactly if no two repositories have one name.** In a
directory without artifacts, where each repository can be indexed and its artifact be saved,
indexing writes one artifact for each name, which holds the index of the first repository of that
name. -/
theorem ownArtifact_iff (indexer : Indexer) (host : Host) (directory : Text) (t : FileTree)
    (repositories : List Text)
    (hempty : ∀ name, Artifact.isNamed name = true → t.node? (t.place directory ++ [name]) = none)
    (hroots : repositories.Pairwise fun r s =>
      rootOf host t (Text.trim r) ≠ rootOf host t (Text.trim s))
    (hpairs : ∀ r ∈ repositories, ∀ root, rootOf host t (Text.trim r) = .ok root → root.HasNoPair)
    (hindex : ∀ u, Passes indexer host directory repositories t u → ∀ r ∈ repositories,
      ∃ i, indexer.index host u (Text.trim r) = .ok i)
    (hsave : ∀ r ∈ repositories,
      ∃ i u, Artifact.save t i (Path.child directory (artifactName r)) = (.ok (), u)) :
    let store := IndexStore.onFiles directory
    ∃ paths u, indexer.indexAll host store false repositories t = (.ok paths, u) ∧
      paths = (repositories.map artifactName).eraseDups.map (Path.child directory) ∧
      (∀ r ∈ repositories, ∃ s i,
        repositories.find? (fun s => artifactName s = artifactName r) = some s ∧
          store.load u (store.pathFor r) = .ok i ∧ rootOf host t (Text.trim s) = .ok i.repository) ∧
      (paths.length = repositories.length ↔ (repositories.map artifactName).Nodup) ∧
      ((∀ r ∈ repositories, ∃ i, store.load u (store.pathFor r) = .ok i ∧
        rootOf host t (Text.trim r) = .ok i.repository) ↔
          (repositories.map artifactName).Nodup) := by
  intro store
  have hnew : newNames [] repositories = (repositories.map artifactName).eraseDups := by
    rw [newNames, List.map_nil, List.filter_eq_self.2]
    simp
  have haccepts : ∀ r ∈ repositories,
      Artifact.Accepts t (Path.child directory (artifactName r)) := by
    intro r hr
    obtain ⟨i, u, hs⟩ := hsave r hr
    exact Artifact.accepts_of_save_self (isName_artifactName r) hs
  have hnone : Indexed directory t [] := by
    exact ⟨fun _ hr => (nomatch hr), fun name hn _ => .inl (hempty name hn)⟩
  obtain ⟨u, hrun, -, hfirst⟩ :=
    indexAll_firsts (List.Subset.refl repositories) hindex haccepts hnone
  rw [hnew] at hrun
  have hload : ∀ r ∈ repositories, ∃ s i,
      repositories.find? (fun s => artifactName s = artifactName r) = some s ∧
        store.load u (store.pathFor r) = .ok i ∧
        rootOf host t (Text.trim s) = .ok i.repository := by
    intro r hr
    obtain ⟨s, i, hs, hi, hroot⟩ := hfirst r hr (by simp)
    have hrepository : i.reread.repository = i.repository :=
      Text.joinPairs_of_hasNoPair (hpairs s (List.mem_of_find?_eq_some hs) _ hroot)
    exact ⟨s, i.reread, hs, hi.load (Path.tidy_child directory _), hrepository ▸ hroot⟩
  refine ⟨_, u, hrun, rfl, hload, ?_, fun hown => ?_, fun hn r hr => ?_⟩
  · have hlength : (repositories.map artifactName).length = repositories.length :=
      List.length_map artifactName
    rw [List.length_map, ← hlength]
    exact Json.length_eraseDups_eq_iff
  · rw [List.Nodup, List.pairwise_map]
    refine hroots.imp_of_mem fun {r s} hr hs hne he => hne ?_
    obtain ⟨i, hi, hroot⟩ := hown r hr
    obtain ⟨j, hj, hroot'⟩ := hown s hs
    have hpath : store.pathFor r = store.pathFor s := congrArg (Path.child directory) he
    rw [hpath, hj] at hi
    rw [hroot, hroot', Except.ok.inj hi]
  · obtain ⟨s, i, hs, hi, hroot⟩ := hload r hr
    have he : artifactName s = artifactName r := by simpa using List.find?_some hs
    rw [List.inj_on_of_nodup_map hn (List.mem_of_find?_eq_some hs) hr he] at hroot
    exact ⟨i, hi, hroot⟩

/-- Two repositories of different names, without files and options. -/
theorem ownArtifact_iff_twoRepositories :
    let t : FileTree := ⟨[(["r"], .directory), (["r", "one"], .directory),
      (["r", "two"], .directory), (["store"], .directory)], "/"⟩
    let indexer : Indexer := ⟨fun _ _ => none, [], ".ts"⟩
    let host : Host := ⟨"/", fun _ _ => .finished [] [] 0⟩
    let store := IndexStore.onFiles "/store"
    let repositories : List Text := ["/r/one", " /r/two/"]
    ∃ paths u, indexer.indexAll host store false repositories t = (.ok paths, u) ∧
      paths = ([.ofString "/store/ast-one.json", .ofString "/store/ast-two.json"] : List Text) ∧
      ∀ r ∈ repositories, ∃ i, store.load u (store.pathFor r) = .ok i ∧
        rootOf host t (Text.trim r) = .ok i.repository := by
  intro t indexer host store repositories
  have hplace : t.place "/store" = ([.ofString "store"] : List Text) := by decide +kernel
  have hd : t.HasDirectory (t.place "/store") := by
    rw [hplace]
    exact ⟨by decide +kernel, by decide +kernel⟩
  have hone : rootOf host t (Text.trim "/r/one") = .ok "/r/one" := by rfl
  have htwo : rootOf host t (Text.trim " /r/two/") = .ok "/r/two" := by rfl
  have hempty : ∀ name, Artifact.isNamed name = true →
      t.node? (t.place "/store" ++ [name]) = none := by
    intro name _
    have hbelow : ∀ m ∈ t.nodes, m.1.dropLast ≠ ([.ofString "store"] : List Text) := by
      decide +kernel
    rw [hplace]
    by_contra hne
    obtain ⟨m, hm, hkey⟩ := (FileTree.exists_mem_nodes_iff (by simp)).1
      (Option.isSome_iff_ne_none.2 hne)
    exact hbelow m hm (by rw [hkey, List.dropLast_concat])
  have hsaved : ∀ r ∈ repositories, (Artifact.save t ⟨[], [], [], [], none⟩
      (Path.child "/store" (artifactName r))).1 = .ok () := by
    decide +kernel
  have hroots : repositories.Pairwise fun r s =>
      rootOf host t (Text.trim r) ≠ rootOf host t (Text.trim s) := by
    rw [List.pairwise_pair, hone, htwo, Ne, Except.ok.injEq]
    decide +kernel
  have hpairs : ∀ r ∈ repositories, ∀ root, rootOf host t (Text.trim r) = .ok root →
      root.HasNoPair := by
    intro r hr root hroot
    rcases List.mem_pair.1 hr with rfl | rfl
    · cases hone.symm.trans hroot
      exact Text.hasNoPair_ofString "/r/one"
    · cases htwo.symm.trans hroot
      exact Text.hasNoPair_ofString "/r/two"
  have hindex : ∀ u, Passes indexer host "/store" repositories t u → ∀ r ∈ repositories,
      ∃ i, indexer.index host u (Text.trim r) = .ok i := by
    intro u hu r hr
    have hlisted : ∀ f ∈ Repository.listed indexer.excluded [], Path.isFit f = true := by decide
    rcases List.mem_pair.1 hr with rfl | rfl
    · exact hu.exists_index hd hone (by decide +kernel) (by decide +kernel)
        (by decide +kernel) rfl hlisted
    · exact hu.exists_index hd htwo (by decide +kernel) (by decide +kernel)
        (by decide +kernel) rfl hlisted
  obtain ⟨paths, u, hrun, hpaths, -, -, hown⟩ := ownArtifact_iff indexer host "/store" t
    repositories hempty hroots hpairs hindex fun r hr => ⟨_, _, Prod.ext (hsaved r hr) rfl⟩
  exact ⟨paths, u, hrun, hpaths.trans (by decide +kernel), hown.2 (by decide +kernel)⟩

end Indexer

end SourceAtlas
