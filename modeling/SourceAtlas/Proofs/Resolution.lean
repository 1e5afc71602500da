import SourceAtlas.Proofs.Indexing.OneFile
import SourceAtlas.Proofs.Path.Within
import SourceAtlas.Proofs.Scalars

/-!
# What imports resolve to

A specifier or a reference comes to a normal path, to a file that is found beside one, or it keeps
its text; and it keeps its text only where no file was found. So nothing that can be read lies
outside of a directory that the text says it is in.

* `Resolved`: what a specifier or a reference may come to;
* **`Resolver.resolved_resolve`**, `resolved_resolveReference`: it comes to nothing else;
* `FileTree.isFile_normalize`: what can be read is found at its normal path;
* **`Resolved.place_of_isWithin`**: what can be read and is said to be within a directory lies
  there.
-/

namespace SourceAtlas

variable {t : FileTree} {extension p directory text : Text}

/-- What a specifier or a reference may come to. -/
inductive Resolved (t : FileTree) (extension : Text) : Text → Prop where
  /-- A normal path: what stands there, or where nothing was found. -/
  | normal (p : Text) : Resolved t extension (Path.normalize p)
  /-- The index file of a directory. -/
  | index (p : Text) : Resolved t extension (Path.join (Path.normalize p) ("index" ++ extension))
  /-- The source file of a module. -/
  | source (p : Text) : Resolved t extension (Path.normalize p ++ extension)
  /-- The text itself, which is no file as seen from some directory. -/
  | literal (s base : Text) : t.isFile (Path.resolveFrom base s) = false → Resolved t extension s

namespace Resolver

variable {r : Resolver}

theorem resolved_probe {candidate : Text}
    (h : r.probe t (Path.normalize candidate) = some p) : Resolved t r.sourceExtension p := by
  have hmem := List.mem_of_find?_eq_some h
  simp only [List.mem_cons, List.not_mem_nil, or_false] at hmem
  rcases hmem with rfl | rfl | rfl
  · exact .normal candidate
  · exact .index candidate
  · exact .source candidate

theorem isFile_of_probe_eq_none {candidate : Text} (h : r.probe t candidate = none) :
    t.isFile candidate = false := by
  rw [← Bool.not_eq_true]
  exact List.find?_eq_none.1 h candidate List.mem_cons_self

theorem resolved_probeAlias {a : Alias} {specifier : Text}
    (h : r.probeAlias t specifier a = some p) : Resolved t r.sourceExtension p := by
  obtain ⟨wild, -, h⟩ := Option.bind_eq_some_iff.1 h
  obtain ⟨target, -, h⟩ := List.exists_of_findSome?_eq_some h
  exact resolved_probe h

/-- **What a specifier comes to.** -/
theorem resolved_resolve (r : Resolver) (t : FileTree) (specifier fromFile : Text) :
    Resolved t r.sourceExtension (r.resolve t specifier fromFile) := by
  unfold resolve
  split
  · dsimp only
    cases h : r.probe t (Path.resolveFrom (Path.directory fromFile) specifier) with
    | none => exact .normal _
    | some p => exact resolved_probe h
  · cases ha : r.aliases.findSome? (r.probeAlias t specifier) with
    | some p =>
      obtain ⟨a, -, h⟩ := List.exists_of_findSome?_eq_some ha
      exact resolved_probeAlias h
    | none =>
      cases hp : r.probe t (Path.resolveFrom r.base specifier) with
      | some p => exact resolved_probe hp
      | none => exact .literal specifier r.base (isFile_of_probe_eq_none hp)

end Resolver

/-- **What a reference comes to.** -/
theorem resolved_resolveReference (t : FileTree) (extension reference fromFile : Text) :
    Resolved t extension (resolveReference t reference fromFile) := by
  unfold resolveReference
  dsimp only
  split
  · exact .normal _
  · rename_i h
    rw [Bool.not_eq_true] at h
    refine .literal reference (Path.directory fromFile) ?_
    rw [← Bool.not_eq_true]
    exact fun hfile => by simp [FileTree.present_of_isFile hfile] at h

/-- What can be read is found at its normal path. -/
theorem FileTree.isFile_normalize (hr : Path.root p ≠ []) (h : t.readText p = .ok text) :
    t.isFile (Path.normalize p) = true := by
  obtain ⟨content, -, hread, -⟩ := readText_eq_ok.1 h
  obtain ⟨hv, hw, hn, -⟩ := stat_eq_ok.1 (stat_of_read hread)
  rw [← place_normalize hr] at hw hn
  have hne : Path.components (Path.normalize p) ≠ [] := by
    intro he
    have hroot : Path.root (Path.normalize p) ≠ [] := by rwa [Path.root_normalize]
    have hplace := place_of_ne_up (t := t) hroot (by simp [he])
    rw [hplace, he, node?_nil] at hn
    cases hn
  have hslash := Path.noSlash_of_tidy (Path.tidy_normalize p) (Path.fileName_ne_nil hne)
  exact isFile_eq_true.2 ⟨_, stat_eq_ok.2 ⟨hv.normalize hr, hw, hn, .inr hslash⟩, rfl⟩

namespace Resolved

/-- **What can be read and is said to be within a directory** lies there. A text that was kept is
not found at its normal path, and so it cannot be read; in all other paths no parent is left. -/
theorem place_of_isWithin (h : Resolved t extension p) (he : Path.IsEnding extension)
    (hn : Path.IsNormal directory) (hw : Path.isWithin p directory = true)
    (hr : t.readText (Path.tidy p) = .ok text) : t.place directory <+: t.place p := by
  cases h with
  | normal q =>
    refine Path.place_prefix_of_isWithin hn hw fun hroot c hc => ?_
    rw [Path.root_normalize] at hroot
    exact (Path.isName_of_mem_normalize hroot (List.mem_of_mem_tail hc)).ne_up
  | index q =>
    have hname : Path.IsName "index" := by decide
    have hslash : Text.startsWith ("index" ++ extension) "/" = false := rfl
    refine Path.place_prefix_of_isWithin hn hw fun hroot c hc => ?_
    have hjoin := Path.root_join_tidy (a := Path.normalize q) hslash
    rw [Path.tidy_normalize, Path.root_normalize] at hjoin
    rw [hjoin] at hroot
    rw [Path.components_join hslash] at hc
    rcases List.mem_append.1 (List.mem_of_mem_tail hc) with hc | hc
    · exact (Path.isName_of_mem_normalize hroot hc).ne_up
    · exact he.ne_up_of_mem_append hname hc
  | source q =>
    refine Path.place_prefix_of_isWithin hn hw fun hroot c hc => ?_
    have hroot := Path.root_ne_nil_of_append (Path.normalize_ne_nil q) hroot
    rw [Path.root_normalize] at hroot
    exact he.ne_up_of_mem_normalize hroot hc
  | literal s base hfile =>
    by_cases hd : Path.components directory = []
    · rw [hn.place, hd]
      exact List.nil_prefix
    · obtain ⟨hroot, -⟩ := Path.components_prefix_of_isWithin hn hd hw
      have htidy : Path.root (Path.tidy p) ≠ [] := by rwa [Path.root_tidy]
      rw [Path.resolveFrom, Path.join, if_pos (Path.startsWith_slash_iff.2 hroot),
        ← Path.normalize_tidy, FileTree.isFile_normalize htidy hr] at hfile
      cases hfile

end Resolved

end SourceAtlas
