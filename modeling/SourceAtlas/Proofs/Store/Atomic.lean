import SourceAtlas.Proofs.Path.Names

/-!
# Saves that happen as a whole or not at all

A save leaves the new artifact at its path and all other files as they were, or it is reported and
leaves all files as they were, the one at the path included. The file with the temporary name is the
only exception, and it is gone after a save that succeeds.

* `FileTree.fileAt?`: the file at a place; directories do not count;
* `Path.collapse_concat_up`, `Artifact.place_temporary_ne`: the temporary name leads elsewhere than
  the path, also for a path that ends with `..`;
* `Artifact.exists_message_of_save`: the faults of a save are reported;
* `Artifact.fileAt?_of_save`: no other file changes;
* **`Artifact.save_whole`**: both ways in which a save may end.
-/

namespace SourceAtlas

namespace FileTree

variable {t t' : FileTree} {k : List Text}

/-- The file at a place, if there is one. A directory is no file. -/
def fileAt? (t : FileTree) (k : List Text) : Option Node :=
  (t.node? k).filter fun n => !n.isDirectory

theorem fileAt?_congr (h : t'.node? k = t.node? k) : t'.fileAt? k = t.fileAt? k := by
  rw [fileAt?, fileAt?, h]

/-- Directories that are made are no files. -/
theorem Deepened.fileAt? (h : Deepened t t') (k : List Text) : t'.fileAt? k = t.fileAt? k := by
  rcases h.node k with he | ⟨hnone, hdirectory⟩
  · exact fileAt?_congr he
  · rw [FileTree.fileAt?, FileTree.fileAt?, hnone, hdirectory]
    rfl

end FileTree

namespace Path

/-- A last `..` takes the component before it away. -/
theorem collapse_concat_up {kept : List Text} (hk : ∀ d ∈ kept, d ≠ up) (cs : List Text) :
    collapse true kept (cs ++ [up]) = (collapse true kept cs).dropLast := by
  have hnames : ∀ c ∈ collapse true kept cs, c ≠ up := fun c hc => ne_up_of_mem_collapse hk hc
  rw [collapse_append_collapse]
  rcases List.eq_nil_or_concat' (collapse true kept cs) with h | ⟨ds, d, h⟩
  · rw [h]
    rfl
  · have hd : d ≠ up := hnames d (by simp [h])
    simp [h, collapse, hd]

end Path

namespace Artifact

variable {t t' : FileTree} {i : Index} {path temporary : Text} {k : List Text} {fault : SaveFault}
  {result : Except SaveFault Unit}

/-! ## The temporary name -/

theorem exists_temporary_of_fileName (h : Path.fileName path ≠ []) :
    ∃ temporary, temporary? path = some temporary := by
  rw [temporary?, Path.withFileName, if_neg (by simpa using h)]
  exact ⟨_, rfl⟩

/-- The place of the directory of a path. -/
theorem place_parent (t : FileTree) (path : Text) : t.place (Path.parent path) =
    Path.collapse true [] (t.origin (Path.root path) ++ (Path.components path).dropLast) := by
  rw [FileTree.place_eq, Path.root_parent, Path.components_parent]

/-- **The temporary name leads elsewhere than the path.** -/
theorem place_temporary_ne (h : temporary? path = some temporary) :
    t.place temporary ≠ t.place path := by
  have hne : Path.components path ≠ [] := Path.components_ne_nil (fileName_ne_nil h)
  intro he
  rw [place_temporary h] at he
  by_cases hup : Path.fileName path = Path.up
  · -- The path leads above its directory, the temporary name below it.
    have hplace : t.place path = (t.place (Path.parent path)).dropLast := by
      rw [FileTree.place_eq, Path.components_eq_concat hne, hup, ← List.append_assoc,
        Path.collapse_concat_up (List.forall_mem_nil _), ← place_parent]
    have hlength := congrArg List.length he
    rw [hplace, List.length_append, List.length_dropLast, List.length_singleton] at hlength
    omega
  · have hname : Path.IsName (Path.fileName path) :=
      ⟨Path.isComponent_of_mem (Path.fileName_mem_components hne), hup⟩
    have hlast := congrArg List.getLast? he
    rw [List.getLast?_concat, FileTree.getLast?_place hname, Option.some.injEq] at hlast
    have htmp : (Text.ofString ".tmp").length = 4 := by decide
    have hlength := congrArg List.length hlast
    rw [List.length_append] at hlength
    omega

/-! ## What a save comes to -/

/-- **The faults of a save are reported**, but for a path without a last component. -/
theorem exists_message_of_save (ht : temporary? path = some temporary)
    (h : save t i path = (.error fault, t')) : ∃ message, fault = .refused message := by
  rcases saveBy_eq_error h with ⟨hnone, -⟩ | ⟨_, message, -, rfl, -⟩
  · rw [hnone] at ht
    cases ht
  · exact ⟨message, rfl⟩

/-- **No other file changes**: a save leaves all files but the one at the path, and but the one with
the temporary name; the one at the path is left as well if the save fails. -/
theorem fileAt?_of_save (ht : temporary? path = some temporary) (h : save t i path = (result, t'))
    (hk : k ≠ t.place temporary) (hp : k ≠ t.place path ∨ ∃ fault, result = .error fault) :
    t'.fileAt? k = t.fileAt? k := by
  obtain ⟨t₁, hdeep, hs⟩ := exists_saved h
  rw [← hdeep.fileAt? k]
  have htemp : ∀ other, temporary? path = some other → k ≠ t₁.place other := by
    intro other ho
    cases ht.symm.trans ho
    rwa [FileTree.place_of_current hdeep.current]
  rcases hp with hp | ⟨fault, rfl⟩
  · refine FileTree.fileAt?_congr (hs.node?_of_ne ?_ htemp)
    rwa [FileTree.place_of_current hdeep.current]
  · exact FileTree.fileAt?_congr (hs.node?_of_error htemp)

/-- A save that succeeds leaves nothing under the temporary name. -/
theorem node?_temporary (ht : temporary? path = some temporary)
    (h : save t i path = (.ok (), t')) : t'.node? (t.place temporary) = none := by
  obtain ⟨t₁, hdeep, hs⟩ := exists_saved h
  rw [← FileTree.place_of_current hdeep.current]
  cases hs with
  | moved ho hcan =>
    cases ht.symm.trans ho
    have hnil : t₁.place temporary ≠ [] := hcan.place_ne_nil
    rw [FileTree.node?_put hnil, if_neg (place_temporary_ne ht), FileTree.node?_remove hnil,
      if_pos rfl]

/-- **A save happens as a whole or not at all.** For every tree and every index, at a path with a last
component: the save succeeds, and then the path holds the written form of the index, nothing stands
under the temporary name, and every other file is as it was; or its fault is reported, and then every
file but the one with the temporary name is as it was. Where nothing is in the way of the save and the
index can be written, it succeeds. The trees are those of `FileTree`, without links. -/
theorem save_whole (htidy : Path.tidy path = path) (hname : Path.fileName path ≠ [])
    (t : FileTree) (i : Index) :
    ∃ temporary, temporary? path = some temporary ∧
      ((∃ t', save t i path = (.ok (), t') ∧
          t'.read path = .ok (Utf8.encode i.toJson.indented) ∧
          t'.node? (t.place temporary) = none ∧
          ∀ k, k ≠ t.place path → k ≠ t.place temporary → t'.fileAt? k = t.fileAt? k) ∨
        ∃ fault message t', save t i path = (.error fault, t') ∧
          fault.failure = .reported message ∧
          ∀ k, k ≠ t.place temporary → t'.fileAt? k = t.fileAt? k) ∧
      (Ready t path temporary → i.toJson.isWritable = true →
        ∃ t', save t i path = (.ok (), t')) := by
  obtain ⟨temporary, ht⟩ := exists_temporary_of_fileName hname
  refine ⟨temporary, ht, ?_, fun hready hw => exists_save hready hw⟩
  obtain ⟨result, t', h⟩ : ∃ result t', save t i path = (result, t') := ⟨_, _, rfl⟩
  cases result with
  | ok u =>
    refine .inl ⟨t', h, (holds_of_save h).read htidy, node?_temporary ht h, fun k hp hk => ?_⟩
    exact fileAt?_of_save ht h hk (.inl hp)
  | error fault =>
    obtain ⟨message, rfl⟩ := exists_message_of_save ht h
    refine .inr ⟨_, message, t', h, rfl, fun k hk => ?_⟩
    exact fileAt?_of_save ht h hk (.inr ⟨_, rfl⟩)

end Artifact

end SourceAtlas
