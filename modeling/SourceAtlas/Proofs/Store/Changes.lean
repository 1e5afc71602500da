import SourceAtlas.Proofs.Places
import SourceAtlas.Proofs.Store

/-!
# What a save changes

A save writes a file under a temporary name and moves it to its path. Nothing else changes but for
directories above the path that are new.

* `FileTree.mem_names`: the names in a directory; `FileTree.Named`: trees of proper names;
* `FileTree.Grounded`, `FileTree.Grounded.hasDirectory`: trees in which all that stands somewhere
  stands in a directory that can be found;
* `FileTree.Deepened`, `FileTree.deepened_of_makeDirectories`: trees with more directories;
* `Artifact.place_temporary`: where the temporary name leads;
* `Artifact.Saved`, **`Artifact.exists_saved`**: what a save may come to;
* `Artifact.Saved.node?_of_ne`, `Artifact.Saved.node?_of_error`, `Artifact.Saved.node?_of_ok`: what
  stands at each place afterwards;
* `Artifact.isNamed`, `Artifact.mem_list`: the artifacts of a directory;
* **`Artifact.node?_of_save`**: what becomes of an artifact when something is saved.
-/

namespace SourceAtlas

namespace FileTree

variable {t t' : FileTree} {path name directory : Text} {k : List Text}

/-! ## Names in a directory -/

theorem exists_mem_nodes_iff (hk : k ≠ []) : (t.node? k).isSome = true ↔ ∃ m ∈ t.nodes, m.1 = k := by
  rw [node?_of_ne_nil hk, Option.isSome_map, List.find?_isSome]
  simp

/-- The names in a directory are those of what stands there. -/
theorem mem_names :
    name ∈ t.names directory ↔ (t.node? (t.place directory ++ [name])).isSome = true := by
  rw [exists_mem_nodes_iff (by simp), names, List.mem_filterMap]
  constructor
  · rintro ⟨⟨key, n⟩, hm, h⟩
    dsimp only at h
    split at h
    · rename_i hkey
      obtain ⟨front, rfl⟩ := List.getLast?_eq_some_iff.1 h
      have hlen := hkey.1
      rw [List.length_append, List.length_singleton, Nat.add_right_cancel_iff] at hlen
      refine ⟨_, hm, ?_⟩
      show front ++ [name] = _
      rw [← hkey.2, ← hlen, List.take_left]
    · cases h
  · rintro ⟨⟨key, n⟩, hm, rfl⟩
    refine ⟨_, hm, ?_⟩
    dsimp only
    rw [if_pos, List.getLast?_concat]
    exact ⟨by simp, List.take_left⟩

/-- Every component of a place is a name. -/
theorem isName_of_mem_place {c : Text} (h : c ∈ t.place path) : Path.IsName c := by
  rw [place_eq] at h
  refine ⟨?_, ?_⟩
  · rcases List.mem_append.1 ((Path.mem_collapse h).resolve_left List.not_mem_nil) with hc | hc
    · unfold origin at hc
      split at hc
      · exact Path.isComponent_of_mem hc
      · cases hc
    · exact Path.isComponent_of_mem hc
  · exact Path.ne_up_of_mem_collapse (by simp) h

/-- The points of a place are those of its path and of the working directory. -/
theorem mem_of_mem_place {c : Text} {p : Point} (h : c ∈ t.place path) (hp : p ∈ c) :
    p ∈ t.current ∨ p ∈ path := by
  rw [place_eq] at h
  rcases List.mem_append.1 ((Path.mem_collapse h).resolve_left List.not_mem_nil) with hc | hc
  · unfold origin at hc
    split at hc
    · exact .inl ((Path.mem_components hc).2.2.subset hp)
    · cases hc
  · exact .inr ((Path.mem_components hc).2.2.subset hp)

/-- No name of the tree has a slash or the point zero in it, or stands for a directory or its
parent. -/
structure Named (t : FileTree) : Prop where
  current : Point.zero ∉ t.current
  node : ∀ k, (t.node? k).isSome = true → ∀ c ∈ k, Path.IsName c ∧ Point.zero ∉ c

/-- The name of what stands in a directory. -/
theorem Named.last (h : t.Named) (hk : (t.node? (k ++ [name])).isSome = true) :
    Path.IsName name ∧ Point.zero ∉ name :=
  h.node (k ++ [name]) hk name (List.mem_append_right _ (List.mem_singleton_self name))

theorem named_of_nodes (hz : Point.zero ∉ t.current)
    (h : ∀ m ∈ t.nodes, ∀ c ∈ m.1, Path.IsName c ∧ Point.zero ∉ c) : t.Named := by
  refine ⟨hz, fun k hk => ?_⟩
  by_cases hnil : k = []
  · rw [hnil]
    exact fun c hc => nomatch hc
  · obtain ⟨m, hm, rfl⟩ := (exists_mem_nodes_iff hnil).1 hk
    exact h m hm

theorem Named.put (h : t.Named) (hfit : Path.isFit path = true) (n : Node) :
    (t.put (t.place path) n).Named := by
  refine ⟨h.current, fun k hk => ?_⟩
  by_cases hnil : k = []
  · rw [hnil]
    exact fun c hc => nomatch hc
  · rw [node?_put hnil] at hk
    split at hk
    · rename_i he
      rw [he]
      refine fun c hc => ⟨isName_of_mem_place hc, fun hp => ?_⟩
      rcases mem_of_mem_place hc hp with hp | hp
      · exact h.current hp
      · exact absurd (List.all_eq_true.1 hfit _ hp) (by decide)
    · exact h.node k hk

theorem Named.remove (h : t.Named) (key : List Text) : (t.remove key).Named := by
  refine ⟨h.current, fun k hk => ?_⟩
  by_cases hnil : k = []
  · rw [hnil]
    exact fun c hc => nomatch hc
  · rw [node?_remove hnil] at hk
    split at hk
    · cases hk
    · exact h.node k hk

/-! ## Directories above -/

section Grounded

variable {n : Node} {c : Text} {content : Bytes} {source target : Text}

/-- Each place where something stands lies in a directory, as in every file system. -/
def Grounded (t : FileTree) : Prop :=
  ∀ m ∈ t.nodes, (t.node? m.1.dropLast).any Node.isDirectory = true

instance (t : FileTree) : Decidable t.Grounded :=
  inferInstanceAs (Decidable (∀ m ∈ t.nodes, _))

theorem Grounded.node?_above (h : t.Grounded) (hc : (t.node? (k ++ [c])).isSome = true) :
    ∃ n, t.node? k = some n ∧ n.isDirectory = true := by
  obtain ⟨m, hm, he⟩ := (exists_mem_nodes_iff (by simp)).1 hc
  have hany := h m hm
  rw [he, List.dropLast_concat] at hany
  exact (Option.any_eq_true _ _).1 hany

/-- **The directory of what stands somewhere can be found**, if it can be once there are more. -/
theorem Grounded.hasDirectory (h : t.Grounded) (hkeeps : KeepsDirectories t t')
    (hk : t'.HasDirectory k) (hc : (t.node? (k ++ [c])).isSome = true) : t.HasDirectory k := by
  induction k using List.reverseRecOn generalizing c with
  | nil => exact ⟨rfl, rfl⟩
  | append_singleton k d ih =>
    obtain ⟨habove, hd⟩ := walk_concat.1 hk.walk
    obtain ⟨n, hn, hdir⟩ := h.node?_above hc
    have hsame := hkeeps _ n hdir hn
    rw [hk.node] at hsame
    cases hsame
    exact ⟨walk_concat.2 ⟨ih habove (by rw [hn]; rfl), hd⟩, hn⟩

theorem Grounded.put (h : t.Grounded) (hw : walk t [] k = .ok ()) (hfree : t.LacksDirectory k)
    (n : Node) : (t.put k n).Grounded := by
  intro m hm
  have hkept : (t.node? m.1.dropLast).any Node.isDirectory = true →
      ((t.put k n).node? m.1.dropLast).any Node.isDirectory = true := by
    rw [Option.any_eq_true, Option.any_eq_true]
    rintro ⟨d, hd, hdir⟩
    exact ⟨d, KeepsDirectories.put hfree n _ d hdir hd, hdir⟩
  refine hkept ?_
  have hmem : m.1 = k ∨ m ∈ t.nodes := by
    rw [FileTree.put] at hm
    dsimp only at hm
    split at hm
    · obtain ⟨m', hm', rfl⟩ := List.mem_map.1 hm
      split
      · exact .inl rfl
      · exact .inr hm'
    · rcases List.mem_append.1 hm with hm | hm
      · exact .inr hm
      · exact .inl (List.mem_singleton.1 hm ▸ rfl)
  rcases hmem with rfl | hmem
  · rcases List.eq_nil_or_concat m.1 with hnil | ⟨front, last, hlast⟩
    · rw [hnil, List.dropLast_nil, node?_nil]
      rfl
    · rw [hlast, List.concat_eq_append] at hw ⊢
      rw [List.dropLast_concat, (walk_concat.1 hw).1.node]
      rfl
  · exact h m hmem

theorem Grounded.remove (h : t.Grounded) (hfree : t.LacksDirectory k) : (t.remove k).Grounded := by
  intro m hm
  obtain ⟨d, hd, hdir⟩ := (Option.any_eq_true _ _).1 (h m (List.mem_filter.1 hm).1)
  exact (Option.any_eq_true _ _).2 ⟨d, KeepsDirectories.remove hfree _ d hdir hd, hdir⟩

theorem Grounded.write (h : t.Grounded) (hc : CanWrite t path) :
    (t.put (t.place path) (.file content)).Grounded :=
  h.put hc.walk hc.lacksDirectory _

theorem Grounded.move (h : t.Grounded) (hm : CanMove t source target content) :
    ((t.remove (t.place source)).put (t.place target) (.file content)).Grounded :=
  (h.remove hm.lacksDirectory_source).put
    ((KeepsDirectories.remove hm.lacksDirectory_source).walk hm.walk) hm.lacksDirectory_target _

end Grounded

theorem place_of_current (h : t'.current = t.current) (path : Text) : t'.place path = t.place path := by
  rw [place, place, h]

/-- The content of a file in a directory. -/
theorem read_child {content : Bytes} (hd : t.HasDirectory (t.place directory))
    (hn : Path.IsName name) (hs : Path.isShortName name = true)
    (hv : Path.Valid (Path.child directory name))
    (h : t.node? (t.place directory ++ [name]) = some (.file content)) :
    t.read (Path.child directory name) = .ok content := by
  have hfile := Path.fileName_child (a := directory) hn.toIsComponent
  have hne : Path.fileName (Path.child directory name) ≠ [] := by
    rw [hfile]
    exact hn.nonempty
  refine read_of_node hv (Path.noSlash_of_tidy (Path.tidy_child directory name) hne) ?_ ?_
  · rw [place_child hn, walk_concat]
    exact ⟨hd, hs⟩
  · rw [place_child hn]
    exact h

/-! ## More directories -/

/-- A tree with more directories, and nothing else that is new. -/
structure Deepened (t t' : FileTree) : Prop where
  current : t'.current = t.current
  node : ∀ k, t'.node? k = t.node? k ∨ t.node? k = none ∧ t'.node? k = some .directory
  named : t.Named → t'.Named

theorem Deepened.refl (t : FileTree) : Deepened t t := ⟨rfl, fun _ => .inl rfl, id⟩

theorem Deepened.trans {t'' : FileTree} (h : Deepened t t') (h' : Deepened t' t'') :
    Deepened t t'' := by
  refine ⟨h'.current.trans h.current, fun k => ?_, h'.named ∘ h.named⟩
  rcases h.node k with hk | ⟨hn, hd⟩
  · rw [← hk]
    exact h'.node k
  · rcases h'.node k with hk | ⟨hk, -⟩
    · exact .inr ⟨hn, hk.trans hd⟩
    · rw [hd] at hk
      cases hk

theorem Deepened.keepsDirectories (h : Deepened t t') : KeepsDirectories t t' := by
  intro k n _ hk
  rcases h.node k with he | ⟨hnone, -⟩
  · rw [he, hk]
  · rw [hnone] at hk
    cases hk

theorem deepened_of_makeDirectory (h : t.makeDirectory path = .ok t') : Deepened t t' := by
  obtain ⟨hv, -, hnone, rfl⟩ := makeDirectory_eq_ok.1 h
  refine ⟨rfl, fun k => ?_, fun hnamed => hnamed.put hv.fit _⟩
  by_cases hnil : k = []
  · rw [hnil, node?_nil, node?_nil]
    exact .inl rfl
  · rw [node?_put hnil]
    split
    · rename_i he
      exact .inr ⟨he ▸ hnone, rfl⟩
    · exact .inl rfl

theorem deepened_of_makeDirectories (t : FileTree) (path : Text) :
    Deepened t (t.makeDirectories path).2 :=
  FileOperations.of_makeDirectories path (.refl t) fun hu hm =>
    hu.trans (deepened_of_makeDirectory hm)

theorem Grounded.makeDirectory (h : t.Grounded) (hm : t.makeDirectory path = .ok t') :
    t'.Grounded := by
  obtain ⟨-, hw, hnone, rfl⟩ := makeDirectory_eq_ok.1 hm
  refine h.put hw (fun n hn => ?_) _
  rw [hnone] at hn
  cases hn

end FileTree

/-! ## Temporary names -/

namespace Artifact

variable {t t' : FileTree} {i : Index} {path temporary name directory : Text} {k : List Text}
  {result : Except SaveFault Unit}

/-- The temporary name is a name. -/
theorem isName_temporary (h : Path.fileName path ≠ []) :
    Path.IsName (Path.fileName path ++ ".tmp") := by
  have hmem := Path.isComponent_of_mem (Path.fileName_mem_components (Path.components_ne_nil h))
  have htmp : (Text.ofString ".tmp").length = 4 := by decide
  refine Path.isName_of_length ?_ ?_
  · rw [List.length_append, htmp]
    omega
  · rw [List.mem_append, not_or]
    exact ⟨hmem.noSlash, by decide⟩

/-- The path under the temporary name. -/
theorem temporary_eq (h : temporary? path = some temporary) :
    temporary = Path.assemble (Path.root path)
      ((Path.components path).dropLast ++ [Path.fileName path ++ ".tmp"]) := by
  have hne := fileName_ne_nil h
  rw [temporary?, Path.withFileName, if_neg (by simpa using hne), Option.some.injEq] at h
  exact h.symm

/-- The temporary name stands beside the last component. -/
theorem temporary_parts (h : temporary? path = some temporary) :
    Path.root temporary = Path.root path ∧ Path.components temporary =
      (Path.components path).dropLast ++ [Path.fileName path ++ ".tmp"] := by
  have hcomponents : ∀ c ∈ (Path.components path).dropLast ++ [Path.fileName path ++ ".tmp"],
      Path.IsComponent c := by
    intro c hc
    rcases List.mem_append.1 hc with hc | hc
    · exact FileTree.isComponent_of_mem_dropLast hc
    · rw [List.mem_singleton.1 hc]
      exact (isName_temporary (fileName_ne_nil h)).toIsComponent
  rw [temporary_eq h]
  exact ⟨Path.root_assemble (Path.root_eq path) hcomponents,
    Path.components_assemble (Path.root_eq path) hcomponents⟩

/-- **Where the temporary name leads**: beside the path. -/
theorem place_temporary (h : temporary? path = some temporary) :
    t.place temporary = t.place (Path.parent path) ++ [Path.fileName path ++ ".tmp"] := by
  rw [temporary_eq h, FileTree.place_assemble (Path.root_eq path)
    (fun _ hc => FileTree.isComponent_of_mem_dropLast hc) (isName_temporary (fileName_ne_nil h))]
  rfl

/-- The name of an artifact. -/
def isNamed (name : Text) : Bool := name.startsWith "ast-" && name.endsWith ".json"

theorem isNamed_tmp (name : Text) : isNamed (name ++ ".tmp") = false := by
  have h : Text.endsWith (name ++ Text.ofString ".tmp") ".json" = false := by
    rw [Text.endsWith, List.reverse_append]
    rfl
  rw [isNamed, h, Bool.and_false]

/-- No artifact is in the way of a temporary name. -/
theorem place_ne_temporary (h : temporary? path = some temporary) (hn : isNamed name = true)
    (key : List Text) : key ++ [name] ≠ t.place temporary := by
  intro he
  rw [place_temporary h] at he
  have hl := congrArg List.getLast? he
  rw [List.getLast?_concat, List.getLast?_concat, Option.some.injEq] at hl
  rw [hl, isNamed_tmp] at hn
  cases hn

/-! ## What a save comes to -/

/-- What a save may come to once the directories above the path are there: it is refused, or the
temporary file is written and not moved, or the file stands at the path. -/
inductive Saved (t : FileTree) (i : Index) (path : Text) : Except SaveFault Unit → FileTree → Prop where
  | refused (fault : SaveFault) : Saved t i path (.error fault) t
  | written {temporary : Text} (fault : SaveFault) : temporary? path = some temporary →
      t.CanWrite temporary →
      Saved t i path (.error fault) (t.put (t.place temporary) (.file (Utf8.encode i.text)))
  | moved {temporary : Text} : temporary? path = some temporary → t.CanWrite temporary →
      i.toJson.isWritable = true →
      FileTree.CanMove (t.put (t.place temporary) (.file (Utf8.encode i.text))) temporary path
        (Utf8.encode i.text) →
      Saved t i path (.ok ()) (((t.put (t.place temporary) (.file (Utf8.encode i.text))).remove
        (t.place temporary)).put (t.place path) (.file (Utf8.encode i.text)))

/-- What a save may come to, and the tree in which the directories above the path are made as far as
they can be. -/
theorem exists_prepared (h : save t i path = (result, t')) :
    ∃ t₁, (t₁ = t ∨ t₁ = (t.makeDirectories (Path.parent path)).2) ∧
      Saved t₁ i path result t' := by
  cases result with
  | error fault =>
    rcases saveBy_eq_error h with ⟨-, rfl⟩ | ⟨temporary, message, htemp, rfl, rfl | ⟨t₁, hmake, hwrite⟩⟩
    · exact ⟨t', .inl rfl, .refused _⟩
    · exact ⟨_, .inr rfl, .refused _⟩
    · obtain ⟨hcan, rfl⟩ := FileTree.write_eq_ok.1 hwrite
      exact ⟨t₁, .inr (congrArg Prod.snd hmake).symm, .written _ htemp hcan⟩
  | ok u =>
    obtain ⟨temporary, t₁, t₂, htemp, hmake, hw, hwrite, hmove⟩ := save_eq_ok.1 h
    obtain ⟨hcan, rfl⟩ := FileTree.write_eq_ok.1 hwrite
    have hfile : (t₁.put (t₁.place temporary) (.file (Utf8.encode i.text))).node?
        ((t₁.put (t₁.place temporary) (.file (Utf8.encode i.text))).place temporary) =
          some (.file (Utf8.encode i.text)) := by
      rw [FileTree.place_put, FileTree.node?_put hcan.place_ne_nil, if_pos rfl]
    obtain ⟨hcanMove, rfl⟩ := (FileTree.move_eq_ok hfile).1 hmove
    exact ⟨t₁, .inr (by rw [hmake]), .moved htemp hcan hw hcanMove⟩

/-- **What a save may come to**, from a tree with more directories. -/
theorem exists_saved (h : save t i path = (result, t')) :
    ∃ t₁, FileTree.Deepened t t₁ ∧ Saved t₁ i path result t' := by
  obtain ⟨t₁, rfl | rfl, hs⟩ := exists_prepared h
  · exact ⟨t₁, .refl t₁, hs⟩
  · exact ⟨_, FileTree.deepened_of_makeDirectories t _, hs⟩

namespace Saved

theorem current (h : Saved t i path result t') : t'.current = t.current := by
  cases h <;> rfl

/-- A save changes nothing but what stands at the path and under the temporary name. -/
theorem node?_of_ne (h : Saved t i path result t') (hp : k ≠ t.place path)
    (ht : ∀ temporary, temporary? path = some temporary → k ≠ t.place temporary) :
    t'.node? k = t.node? k := by
  cases h with
  | refused fault => rfl
  | written fault htemp _ => exact FileTree.node?_put_of_ne (ht _ htemp) _
  | moved htemp _ _ _ =>
    rw [FileTree.node?_put_of_ne hp, FileTree.node?_remove_of_ne (ht _ htemp),
      FileTree.node?_put_of_ne (ht _ htemp)]

/-- A save that fails changes nothing but what stands under the temporary name. -/
theorem node?_of_error {fault : SaveFault} (h : Saved t i path (.error fault) t')
    (ht : ∀ temporary, temporary? path = some temporary → k ≠ t.place temporary) :
    t'.node? k = t.node? k := by
  cases h with
  | refused fault => rfl
  | written fault htemp _ => exact FileTree.node?_put_of_ne (ht _ htemp) _

/-- What a save that succeeds leaves at the path. -/
theorem node?_of_ok (h : Saved t i path (.ok ()) t') : i.toJson.isWritable = true ∧
    t'.node? (t.place path) = some (.file (Utf8.encode i.text)) := by
  cases h with
  | moved htemp _ hw hmove =>
    have hnil : t.place path ≠ [] := hmove.place_ne_nil
    exact ⟨hw, by rw [FileTree.node?_put hnil, if_pos rfl]⟩

theorem named (h : Saved t i path result t') (ht : t.Named) : t'.Named := by
  cases h with
  | refused fault => exact ht
  | written fault _ hcan => exact ht.put hcan.valid.fit _
  | moved _ hcan _ hmove => exact ((ht.put hcan.valid.fit _).remove _).put hmove.valid.2.fit _

/-- No save takes a directory away. -/
theorem keepsDirectories (h : Saved t i path result t') : FileTree.KeepsDirectories t t' := by
  have hput : ∀ {temporary}, t.CanWrite temporary → FileTree.KeepsDirectories t
      (t.put (t.place temporary) (.file (Utf8.encode i.text))) := by
    intro temporary hcan
    exact .write (FileTree.write_eq_ok.2 ⟨hcan, rfl⟩)
  cases h with
  | refused fault => exact fun _ _ _ hk => hk
  | written fault _ hcan => exact hput hcan
  | moved _ hcan _ hmove => exact (hput hcan).trans (.move hmove)

end Saved

/-! ## Artifacts -/

/-- The artifacts of a directory. -/
theorem mem_list : path ∈ list directory t ↔ t.isOpen directory = true ∧
    ∃ name, isNamed name = true ∧ (t.node? (t.place directory ++ [name])).isSome = true ∧
      path = Path.child directory name := by
  unfold list
  split
  · rename_i hd
    rw [List.mem_map]
    constructor
    · rintro ⟨name, hn, rfl⟩
      obtain ⟨hmem, hnamed⟩ := List.mem_filter.1 ((List.mergeSort_perm _ _).mem_iff.1 hn)
      exact ⟨hd, name, hnamed, FileTree.mem_names.1 hmem, rfl⟩
    · rintro ⟨-, name, hnamed, hnode, rfl⟩
      refine ⟨name, (List.mergeSort_perm _ _).mem_iff.2 (List.mem_filter.2 ⟨?_, hnamed⟩), rfl⟩
      exact FileTree.mem_names.2 hnode
  · rename_i hd
    simp [hd]

/-- **What becomes of an artifact when something is saved**: it stays as it is, or a directory takes
a place where nothing was, or it is what was saved. -/
theorem node?_of_save (h : save t i path = (result, t')) (hn : isNamed name = true)
    (hk : k = t.place directory ++ [name]) :
    t'.node? k = t.node? k ∨ t.node? k = none ∧ t'.node? k = some .directory ∨
      k = t.place path ∧ result = .ok () ∧ i.toJson.isWritable = true ∧
        t'.node? k = some (.file (Utf8.encode i.text)) := by
  obtain ⟨t₁, hdeep, hs⟩ := exists_saved h
  have hplace := FileTree.place_of_current hdeep.current
  have htemp : ∀ temporary, temporary? path = some temporary → k ≠ t₁.place temporary := by
    intro temporary ht
    rw [hk]
    exact place_ne_temporary ht hn _
  have hsame : t'.node? k = t₁.node? k → t'.node? k = t.node? k ∨
      t.node? k = none ∧ t'.node? k = some .directory := by
    intro he
    rw [he]
    exact hdeep.node k
  by_cases hp : k = t.place path
  · cases result with
    | error fault =>
      rcases hsame (hs.node?_of_error htemp) with he | he
      · exact .inl he
      · exact .inr (.inl he)
    | ok u =>
      obtain ⟨hw, hnode⟩ := hs.node?_of_ok
      rw [hplace, ← hp] at hnode
      exact .inr (.inr ⟨hp, rfl, hw, hnode⟩)
  · rcases hsame (hs.node?_of_ne (hplace path ▸ hp) htemp) with he | he
    · exact .inl he
    · exact .inr (.inl he)

/-- No save takes a directory away or leaves the working directory, and all names stay proper. -/
theorem keeps_of_save (h : save t i path = (result, t')) :
    FileTree.KeepsDirectories t t' ∧ t'.current = t.current ∧ (t.Named → t'.Named) := by
  obtain ⟨t₁, hdeep, hs⟩ := exists_saved h
  exact ⟨hdeep.keepsDirectories.trans hs.keepsDirectories, hs.current.trans hdeep.current,
    hs.named ∘ hdeep.named⟩

/-- **A save leaves all that stands somewhere in a directory.** -/
theorem grounded_of_save (h : save t i path = (result, t')) (ht : t.Grounded) : t'.Grounded := by
  obtain ⟨t₁, hmake, hs⟩ := exists_prepared h
  have ht₁ : t₁.Grounded := by
    rcases hmake with rfl | rfl
    · exact ht
    · exact FileOperations.of_makeDirectories _ ht FileTree.Grounded.makeDirectory
  cases hs with
  | refused => exact ht₁
  | written _ _ hcan => exact ht₁.write hcan
  | moved _ hcan _ hmove => exact (ht₁.write hcan).move hmove

end Artifact

end SourceAtlas
