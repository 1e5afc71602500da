import SourceAtlas.Proofs.Points
import SourceAtlas.Proofs.Store.Changes

/-!
# What an artifact has to itself

Saves of one artifact touch two places in its directory: its own and that of its temporary name.
What is read of another artifact, and whether it can be saved, does not depend on them.

* `Artifact.exists_names`: the artifacts of a directory, in order;
* `Artifact.Touches`: nothing but the two places of some artifacts has changed;
* `Artifact.touches_of_save`, `Artifact.ready_of_save`: one save of an artifact whose directory is
  there;
* `Artifact.Agrees`: two trees agree on what an artifact of a directory needs;
* `Artifact.Touches.agrees`: what some artifacts touch, no other needs;
* `Artifact.Agrees.read`, `Artifact.Agrees.load`, **`Artifact.Agrees.ready`**: what depends on no more;
* `Artifact.Replaced`: an artifact that was saved;
* `Artifact.alone`, `Artifact.list_alone`, `Artifact.agrees_alone`: the tree without the other
  artifacts.
-/

namespace SourceAtlas

namespace FileTree

variable {t u : FileTree} {path : Text} {done rest : List Text}

/-- A way by what stands on it. -/
theorem walk_congr
    (h : ∀ j < rest.length, u.node? (done ++ rest.take j) = t.node? (done ++ rest.take j)) :
    u.walk done rest = t.walk done rest := by
  induction rest generalizing done with
  | nil => rfl
  | cons c cs ih =>
    have hd : u.node? done = t.node? done := by simpa using h 0 (by simp)
    have hcs : u.walk (done ++ [c]) cs = t.walk (done ++ [c]) cs := by
      refine ih fun j hj => ?_
      simpa using h (j + 1) (by simpa using hj)
    rw [walk, walk, hd, hcs]

theorem stat_congr (hp : u.place path = t.place path)
    (hw : u.walk [] (t.place path) = t.walk [] (t.place path))
    (hn : u.node? (t.place path) = t.node? (t.place path)) : u.stat path = t.stat path := by
  have hreach : u.reach path = t.reach path := by rw [reach, reach, hp, hw]
  have hgo : ∀ key, t.reach path = .ok key → u.standing path key = t.standing path key := by
    intro key hkey
    rw [standing, standing, (reach_eq_ok.1 hkey).2.2.2, hn]
  rw [stat, stat, atPlace, atPlace, hreach]
  cases hkey : t.reach path with
  | error why => rfl
  | ok key => simp only [bind, Except.bind, hgo key hkey]

theorem read_congr (hp : u.place path = t.place path)
    (hw : u.walk [] (t.place path) = t.walk [] (t.place path))
    (hn : u.node? (t.place path) = t.node? (t.place path)) : u.read path = t.read path := by
  rw [read, read, stat_congr hp hw hn]

/-- The tree with nothing at some places. -/
def removeAll (t : FileTree) (keys : List (List Text)) : FileTree := keys.foldl remove t

theorem current_removeAll (t : FileTree) (keys : List (List Text)) :
    (t.removeAll keys).current = t.current := by
  induction keys generalizing t with
  | nil => rfl
  | cons key keys ih => exact ih (t.remove key)

theorem node?_removeAll {k : List Text} (hk : k ≠ []) (t : FileTree) (keys : List (List Text)) :
    (t.removeAll keys).node? k = if k ∈ keys then none else t.node? k := by
  induction keys generalizing t with
  | nil => rfl
  | cons key keys ih =>
    show ((t.remove key).removeAll keys).node? k = _
    rw [ih, node?_remove hk]
    by_cases hmem : k ∈ keys
    · simp [hmem]
    · by_cases he : k = key
      · simp [he]
      · simp [hmem, he]

theorem names_removeAll (t : FileTree) (keys : List (List Text)) (directory : Text) :
    ((t.removeAll keys).names directory).Sublist (t.names directory) := by
  induction keys generalizing t with
  | nil => exact List.Sublist.refl _
  | cons key keys ih =>
    refine (ih (t.remove key)).trans ?_
    rw [names, names, place_remove]
    exact List.filter_sublist.filterMap _

theorem Named.removeAll (h : t.Named) (keys : List (List Text)) : (t.removeAll keys).Named := by
  induction keys generalizing t with
  | nil => exact h
  | cons key keys ih => exact ih (h.remove key)

end FileTree

namespace Path

theorem parent_child {a name : Text} (h : IsComponent name) : parent (child a name) = tidy a := by
  rw [parent, root_child h, components_child h, List.dropLast_concat, tidy]

theorem child_inj {a name other : Text} (hn : IsComponent name) (ho : IsComponent other) :
    child a name = child a other ↔ name = other := by
  refine ⟨fun h => ?_, fun h => h ▸ rfl⟩
  rw [← fileName_child hn (a := a), h, fileName_child ho]

/-- The paths of names in a directory are in the order of the names. -/
theorem le_child {a name other : Text} (hn : IsComponent name) (ho : IsComponent other) :
    Text.le (child a name) (child a other) = Text.le name other := by
  have heq : ∀ x, IsComponent x → child a x = root a ++ Text.joinWith "/" (components a ++ [x]) := by
    intro x hx
    have hne : (components a ++ [x]).isEmpty = false := by simp
    rw [child_eq hx, assemble, hne, Bool.and_false, if_neg Bool.false_ne_true]
  have hjoin : ∀ x, Text.joinWith "/" (components a ++ [x]) =
      (components a).flatMap (fun c => c ++ Text.ofString "/") ++ x := by
    intro x
    induction components a with
    | nil => rfl
    | cons c cs ih =>
      obtain ⟨d, ds, hds⟩ := List.exists_cons_of_ne_nil (show cs ++ [x] ≠ [] by simp)
      rw [List.cons_append, List.flatMap_cons, List.append_assoc, List.append_assoc, ← ih, hds,
        Text.joinWith_cons_cons, List.append_assoc]
  rw [heq name hn, heq other ho, hjoin, hjoin, Text.le_append_left, Text.le_append_left]

end Path

namespace Artifact

variable {t u v : FileTree} {directory name temporary : Text} {names : List Text} {i : Index}
  {result : Except SaveFault Unit}

/-! ## Artifacts of a directory -/

/-- **The artifacts of a directory**, in the order of their names. -/
theorem exists_names (ht : t.Named) (hn : (t.names directory).Nodup) :
    ∃ names : List Text, list directory t = names.map (Path.child directory) ∧
      names.Pairwise (fun a b => Text.le a b = true ∧ a ≠ b) ∧
      ∀ x ∈ names, isNamed x = true ∧ Path.IsName x ∧ t.HasDirectory (t.place directory) := by
  by_cases hd : t.isOpen directory = true
  · refine ⟨Text.sorted ((t.names directory).filter isNamed), ?_, ?_, fun x hx => ?_⟩
    · rw [list, if_pos hd]
      rfl
    · refine (Text.pairwise_sorted _).and ?_
      exact (List.mergeSort_perm _ _).nodup_iff.2 (hn.filter _)
    · obtain ⟨hmem, hnamed⟩ := List.mem_filter.1 ((List.mergeSort_perm _ _).mem_iff.1 hx)
      refine ⟨hnamed, ?_, (FileTree.isOpen_eq_true.1 hd).2⟩
      exact (ht.last (FileTree.mem_names.1 hmem)).1
  · refine ⟨[], ?_, List.Pairwise.nil, fun x hx => nomatch hx⟩
    rw [list, if_neg hd]
    rfl

theorem nodup_list (ht : t.Named) (hn : (t.names directory).Nodup) : (list directory t).Nodup := by
  obtain ⟨names, hlist, hsorted, hnames⟩ := exists_names ht hn
  rw [hlist, List.Nodup, List.pairwise_map]
  refine hsorted.imp_of_mem fun {x y} hx hy hxy he => hxy.2 ?_
  exact (Path.child_inj (hnames x hx).2.1.toIsComponent (hnames y hy).2.1.toIsComponent).1 he

/-! ## Places of an artifact -/

theorem append_tmp_ne (name : Text) : name ++ Text.ofString ".tmp" ≠ name := by
  intro h
  have hlen := congrArg List.length h
  have htmp : (Text.ofString ".tmp").length = 4 := by decide
  rw [List.length_append] at hlen
  omega

theorem place_parent_child (h : Path.IsName name) :
    t.place (Path.parent (Path.child directory name)) = t.place directory := by
  rw [Path.parent_child h.toIsComponent, FileTree.place_tidy]

theorem place_temporary_child (h : Path.IsName name)
    (ht : temporary? (Path.child directory name) = some temporary) :
    t.place temporary = t.place directory ++ [name ++ ".tmp"] := by
  rw [place_temporary ht, place_parent_child h, Path.fileName_child h.toIsComponent]

theorem exists_temporary (t : FileTree) (directory : Text) (hn : Path.IsName name) :
    ∃ temporary, temporary? (Path.child directory name) = some temporary ∧
      t.place temporary = t.place directory ++ [name ++ ".tmp"] := by
  have hne : (Path.fileName (Path.child directory name)).isEmpty = false := by
    rw [Path.fileName_child hn.toIsComponent]
    simpa using hn.nonempty
  obtain ⟨temporary, ht⟩ : ∃ temporary, temporary? (Path.child directory name) = some temporary := by
    rw [temporary?, Path.withFileName, hne]
    exact ⟨_, rfl⟩
  exact ⟨temporary, ht, place_temporary_child hn ht⟩

/-- Nothing has changed but at the places of some artifacts and at those of their temporary names. -/
structure Touches (directory : Text) (names : List Text) (t u : FileTree) : Prop where
  current : u.current = t.current
  node : ∀ k, (∀ x ∈ names, k ≠ t.place directory ++ [x] ∧ k ≠ t.place directory ++ [x ++ ".tmp"]) →
    u.node? k = t.node? k

theorem Touches.refl (directory : Text) (names : List Text) (t : FileTree) :
    Touches directory names t t := ⟨rfl, fun _ _ => rfl⟩

theorem Touches.trans {more : List Text} (h : Touches directory names t u)
    (h' : Touches directory more u v) : Touches directory (names ++ more) t v := by
  refine ⟨h'.current.trans h.current, fun k hk => ?_⟩
  have hplace := FileTree.place_of_current h.current directory
  rw [h'.node k fun x hx => ?_, h.node k fun x hx => hk x (List.mem_append_left more hx)]
  rw [hplace]
  exact hk x (List.mem_append_right names hx)

theorem Touches.mono {more : List Text} (h : Touches directory names t u) (hs : names ⊆ more) :
    Touches directory more t u :=
  ⟨h.current, fun k hk => h.node k fun x hx => hk x (hs hx)⟩

/-- What a save comes to where the directory is there. -/
theorem saved_of_hasDirectory {path : Text} (hd : t.HasDirectory (t.place (Path.parent path)))
    (h : save t i path = (result, u)) : Saved t i path result u := by
  obtain ⟨t₁, rfl | rfl, hs⟩ := exists_prepared h
  · exact hs
  · rwa [FileTree.makeDirectories_of_hasDirectory (Path.parent_ne_nil path) hd] at hs

/-- **One save of an artifact touches no other place.** -/
theorem touches_of_save (hn : Path.IsName name) (hd : t.HasDirectory (t.place directory))
    (h : save t i (Path.child directory name) = (result, u)) : Touches directory [name] t u := by
  have hs := saved_of_hasDirectory (by rwa [place_parent_child hn]) h
  refine ⟨hs.current, fun k hk => ?_⟩
  obtain ⟨hself, htemp⟩ := hk name (List.mem_singleton_self name)
  refine hs.node?_of_ne ?_ fun temporary ht => ?_
  · rwa [FileTree.place_child hn]
  · rwa [place_temporary_child hn ht]

/-- What is left under the temporary name once the file was moved. -/
theorem node?_temporary_of_save (hn : Path.IsName name) (hd : t.HasDirectory (t.place directory))
    (h : save t i (Path.child directory name) = (.ok (), u)) :
    u.node? (t.place directory ++ [name ++ ".tmp"]) = none := by
  have hs := saved_of_hasDirectory (by rwa [place_parent_child hn]) h
  cases hs with
  | moved ht hcan _ _ =>
    have hplace := place_temporary_child (t := t) hn ht
    have hne : t.place directory ++ [name ++ Text.ofString ".tmp"] ≠
        t.place (Path.child directory name) := by
      rw [FileTree.place_child hn, Ne, List.append_cancel_left_eq, List.singleton_inj]
      exact append_tmp_ne name
    rw [FileTree.node?_put (by simp), if_neg hne, FileTree.node?_remove (by simp), hplace, if_pos rfl]

/-- An artifact whose directory is there is ready to be saved if a save has succeeded. -/
theorem ready_of_save (hn : Path.IsName name) (hd : t.HasDirectory (t.place directory))
    (hf : t.LacksDirectory (t.place directory ++ [name]))
    (h : save t i (Path.child directory name) = (.ok (), u)) :
    ∃ temporary, Ready t (Path.child directory name) temporary := by
  have hparent : t.place (Path.parent (Path.child directory name)) = t.place directory :=
    place_parent_child hn
  obtain ⟨temporary, t₁, -, ht, hmake, -⟩ := save_eq_ok.1 h
  have habove := FileTree.isDirectory_of_makeDirectories hmake
  have hsame := FileTree.makeDirectories_of_hasDirectory (Path.parent_ne_nil _) (hparent.symm ▸ hd)
  rw [hmake] at hsame
  obtain rfl : t₁ = t := hsame
  have hs := saved_of_hasDirectory (by rwa [hparent]) h
  cases hs with
  | moved ht hcan _ hmove =>
    have hwalk := hmove.walk
    rw [FileTree.place_put, FileTree.place_child hn, FileTree.walk_concat] at hwalk
    refine ⟨_, ht, habove, hcan, hmove.valid.2, ?_, ?_⟩
    · rw [FileTree.place_child hn, FileTree.walk_concat]
      exact ⟨hd, hwalk.2⟩
    · rwa [FileTree.place_child hn]

/-! ## What an artifact needs -/

/-- Two trees agree on all places but those of other names in the directory. -/
structure Agrees (directory name : Text) (t u : FileTree) : Prop where
  current : u.current = t.current
  node : ∀ k, (∀ x, k = t.place directory ++ [x] → x = name ∨ x = name ++ ".tmp") →
    u.node? k = t.node? k

namespace Agrees

theorem refl (directory name : Text) (t : FileTree) : Agrees directory name t t :=
  ⟨rfl, fun _ _ => rfl⟩

theorem place (h : Agrees directory name t u) (path : Text) : u.place path = t.place path :=
  FileTree.place_of_current h.current path

theorem trans (h : Agrees directory name t u) (h' : Agrees directory name u v) :
    Agrees directory name t v := by
  refine ⟨h'.current.trans h.current, fun k hk => ?_⟩
  rw [h'.node k (h.place directory ▸ hk), h.node k hk]

theorem symm (h : Agrees directory name t u) : Agrees directory name u t :=
  ⟨h.current.symm, fun k hk => (h.node k (h.place directory ▸ hk)).symm⟩

/-- The artifact itself. -/
theorem node?_self (h : Agrees directory name t u) :
    u.node? (t.place directory ++ [name]) = t.node? (t.place directory ++ [name]) := by
  refine h.node _ fun x hx => ?_
  rw [List.append_cancel_left_eq, List.singleton_inj] at hx
  exact .inl hx.symm

theorem node?_temporary (h : Agrees directory name t u) :
    u.node? (t.place directory ++ [name ++ ".tmp"]) =
      t.node? (t.place directory ++ [name ++ ".tmp"]) := by
  refine h.node _ fun x hx => ?_
  rw [List.append_cancel_left_eq, List.singleton_inj] at hx
  exact .inr hx.symm

/-- The directory and those above it. -/
theorem node?_take (h : Agrees directory name t u) (j : Nat) :
    u.node? ((t.place directory).take j) = t.node? ((t.place directory).take j) := by
  refine h.node _ fun x hx => ?_
  have := congrArg List.length hx
  rw [List.length_take, List.length_append, List.length_singleton] at this
  omega

theorem walk (h : Agrees directory name t u) (x : Text) :
    u.walk [] (t.place directory ++ [x]) = t.walk [] (t.place directory ++ [x]) := by
  refine FileTree.walk_congr fun j hj => ?_
  rw [List.length_append, List.length_singleton] at hj
  rw [List.nil_append, List.take_append_of_le_length (by omega)]
  exact h.node?_take j

theorem hasDirectory (h : Agrees directory name t u) (hd : t.HasDirectory (t.place directory)) :
    u.HasDirectory (t.place directory) := by
  have hw := h.walk []
  rw [FileTree.walk_concat.2 ⟨hd, rfl⟩, FileTree.walk_concat] at hw
  exact hw.1

/-- **What is read of the artifact** is the same. -/
theorem read (h : Agrees directory name t u) (hn : Path.IsName name) :
    u.read (Path.child directory name) = t.read (Path.child directory name) := by
  refine FileTree.read_congr (h.place _) ?_ ?_ <;> rw [FileTree.place_child hn]
  · exact h.walk name
  · exact h.node?_self

theorem load (h : Agrees directory name t u) (hn : Path.IsName name) :
    Artifact.load u (Path.child directory name) = Artifact.load t (Path.child directory name) := by
  rw [Artifact.load, Artifact.load, FileTree.readText, FileTree.readText, h.read hn]

/-- **Whether the artifact can be saved** is the same. -/
theorem ready (h : Agrees directory name t u) (hn : Path.IsName name)
    (hr : Ready t (Path.child directory name) temporary) :
    Ready u (Path.child directory name) temporary := by
  have htemp := place_temporary_child (t := t) hn hr.name
  have hparent : t.place (Path.parent (Path.child directory name)) = t.place directory :=
    place_parent_child hn
  have hwalk := hr.walk
  have hfree := hr.free
  rw [FileTree.place_child hn] at hwalk hfree
  have hd : t.HasDirectory (t.place directory) := (FileTree.walk_concat.1 hwalk).1
  obtain ⟨n, hstat, -⟩ := FileTree.isDirectory_eq_true.1 hr.above
  have habove := (FileTree.stat_eq_ok.1 hstat).1
  refine ⟨hr.name, ?_, ⟨hr.canWrite.valid, hr.canWrite.noSlash, ?_, ?_⟩, hr.valid, ?_, ?_⟩
  · refine FileTree.HasDirectory.isDirectory ?_ habove
    rw [h.place, hparent]
    exact h.hasDirectory hd
  · rw [h.place, htemp, h.walk, ← htemp]
    exact hr.canWrite.walk
  · rw [h.place, htemp, h.node?_temporary, ← htemp]
    exact hr.canWrite.node
  · rw [h.place, FileTree.place_child hn, h.walk]
    exact hwalk
  · rw [h.place, FileTree.place_child hn, FileTree.LacksDirectory, h.node?_self]
    exact hfree

theorem holds (h : Agrees directory name t u) (hn : Path.IsName name)
    (hi : Holds t (Path.child directory name) i) : Holds u (Path.child directory name) i := by
  obtain ⟨temporary, hr⟩ := hi.ready
  refine ⟨⟨temporary, h.ready hn hr⟩, hi.writable, ?_⟩
  have hnode := hi.node
  rw [FileTree.place_child hn] at hnode
  rw [h.place, FileTree.place_child hn, h.node?_self]
  exact hnode

end Agrees

/-- **What some artifacts touch, no other needs.** -/
theorem Touches.agrees (h : Touches directory names t u) (hn : isNamed name = true)
    (hnames : ∀ x ∈ names, isNamed x = true) (hne : name ∉ names) : Agrees directory name t u := by
  refine ⟨h.current, fun k hk => h.node k fun x hx => ⟨?_, ?_⟩⟩
  · rintro rfl
    rcases hk x rfl with rfl | he
    · exact hne hx
    · have := hnames x hx
      rw [he, isNamed_tmp] at this
      cases this
  · rintro rfl
    rcases hk _ rfl with he | he
    · rw [← he, isNamed_tmp] at hn
      cases hn
    · rw [List.append_cancel_right_eq] at he
      exact hne (he ▸ hx)

/-! ## Artifacts that were saved -/

/-- An artifact was saved: it was ready to be, the index stands at its path, and nothing stands
under its temporary name any more. -/
structure Replaced (directory name : Text) (t u : FileTree) (i : Index) : Prop where
  ready : ∃ temporary, Ready t (Path.child directory name) temporary
  holds : Holds u (Path.child directory name) i
  node?_temporary : u.node? (u.place directory ++ [name ++ ".tmp"]) = none

/-- One save. -/
theorem replaced_of_save (hn : Path.IsName name) (hd : t.HasDirectory (t.place directory))
    (hf : t.LacksDirectory (t.place directory ++ [name]))
    (h : save t i (Path.child directory name) = (.ok (), u)) : Replaced directory name t u i := by
  refine ⟨ready_of_save hn hd hf h, holds_of_save h, ?_⟩
  rw [FileTree.place_of_current (touches_of_save hn hd h).current]
  exact node?_temporary_of_save hn hd h

namespace Replaced

variable {j : Index}

/-- One more save. -/
theorem next (h : Replaced directory name t u i) (hn : Path.IsName name)
    (hd : u.HasDirectory (u.place directory))
    (hs : save u j (Path.child directory name) = (.ok (), v)) : Replaced directory name t v j := by
  have hfree : u.LacksDirectory (u.place directory ++ [name]) := by
    intro n hnode
    rw [← FileTree.place_child hn, h.holds.node] at hnode
    cases hnode
    rfl
  have hlast := replaced_of_save hn hd hfree hs
  exact ⟨h.ready, hlast.holds, hlast.node?_temporary⟩

theorem of_agrees (h : Replaced directory name u v i) (ha : Agrees directory name t u)
    (hn : Path.IsName name) : Replaced directory name t v i := by
  obtain ⟨temporary, hr⟩ := h.ready
  exact ⟨⟨temporary, ha.symm.ready hn hr⟩, h.holds, h.node?_temporary⟩

theorem agrees (h : Replaced directory name t u i) (ha : Agrees directory name u v)
    (hn : Path.IsName name) : Replaced directory name t v i := by
  refine ⟨h.ready, ha.holds hn h.holds, ?_⟩
  rw [ha.place, ha.node?_temporary]
  exact h.node?_temporary

end Replaced

/-! ## The tree without other artifacts -/

/-- The tree without the other artifacts of a directory. -/
def alone (directory path : Text) (t : FileTree) : FileTree :=
  t.removeAll (((list directory t).filter fun other => other ≠ path).map t.place)

theorem agrees_alone (ht : t.Named) :
    Agrees directory name t (alone directory (Path.child directory name) t) := by
  refine ⟨FileTree.current_removeAll _ _, fun k hk => ?_⟩
  by_cases hnil : k = []
  · rw [hnil, FileTree.node?_nil, FileTree.node?_nil]
  · rw [alone, FileTree.node?_removeAll hnil, if_neg]
    intro hmem
    obtain ⟨path, hpath, rfl⟩ := List.mem_map.1 hmem
    obtain ⟨hlist, hne⟩ := List.mem_filter.1 hpath
    obtain ⟨-, other, ho, hnode, rfl⟩ := mem_list.1 hlist
    have hname := (ht.last hnode).1
    rcases hk other (FileTree.place_child hname) with rfl | rfl
    · simp at hne
    · rw [isNamed_tmp] at ho
      cases ho

/-- **The artifact is the only one there.** -/
theorem list_alone {path : Text} (ht : t.Named) (hn : (t.names directory).Nodup)
    (h : path ∈ list directory t) : list directory (alone directory path t) = [path] := by
  obtain ⟨hd, name, hname, hnode, rfl⟩ := mem_list.1 h
  let a := alone directory (Path.child directory name) t
  have hagrees : Agrees directory name t a := agrees_alone ht
  have hplace : a.place directory = t.place directory := hagrees.place directory
  have hnodup : (list directory a).Nodup :=
    nodup_list (ht.removeAll _) (hn.sublist (FileTree.names_removeAll _ _ _))
  have hd' : a.isOpen directory = true := by
    obtain ⟨hv, hdir⟩ := FileTree.isOpen_eq_true.1 hd
    exact FileTree.isOpen_eq_true.2 ⟨hv, hplace ▸ hagrees.hasDirectory hdir⟩
  refine List.perm_singleton.1 ((List.perm_ext_iff_of_nodup hnodup (List.nodup_singleton _)).2 ?_)
  intro p
  rw [List.mem_singleton]
  constructor
  · intro hp
    obtain ⟨-, other, ho, hother, rfl⟩ := mem_list.1 hp
    by_contra hne
    rw [hplace] at hother
    unfold a alone at hother
    rw [FileTree.node?_removeAll (by simp)] at hother
    split at hother
    · cases hother
    · rename_i hmem
      have hlisted : Path.child directory other ∈ list directory t :=
        mem_list.2 ⟨hd, other, ho, hother, rfl⟩
      refine hmem (List.mem_map.2 ⟨_, List.mem_filter.2 ⟨hlisted, by simpa using hne⟩, ?_⟩)
      exact FileTree.place_child (ht.last hother).1
  · rintro rfl
    refine mem_list.2 ⟨hd', name, hname, ?_, rfl⟩
    rw [hplace, hagrees.node?_self]
    exact hnode

end Artifact

end SourceAtlas
