import SourceAtlas.Proofs.Canonical

/-!
# Directories of files

An import is resolved as seen from the directory of its file. Where that leads depends on the place
of the file alone: it makes no difference whether the path of the file is normal.

* `Path.collapse_collapse_append`: parents may be taken away in two steps;
* `Path.directory_eq_parent`: the directory of a tidy path as it is written;
* `Path.resolveFrom_directory`, **`Path.resolveFrom_directory_absolute`**: where a relative path
  leads from there;
* **`Resolver.resolve_absolute`**: a file imports the same by its normal path.
-/

namespace SourceAtlas

namespace Path

variable {a b p r name : Text} {t : FileTree}

/-- Below a root, taking parents away first from the components in front makes no difference. -/
theorem collapse_collapse_append (cs ds : List Text) :
    collapse true [] (collapse true [] cs ++ ds) = collapse true [] (cs ++ ds) := by
  have hnames : ∀ c ∈ collapse true [] cs, c ≠ up := fun c hc =>
    ne_up_of_mem_collapse (List.forall_mem_nil _) hc
  rw [collapse_append_collapse, collapse_of_ne_up hnames, collapse_append_collapse true [] cs]

/-! ## Directories of tidy paths -/

/-- A root in front of a last name is its directory, with all of its slashes. -/
theorem directory_root_append (hr : r = Text.ofString "//" ∨ r = Text.ofString "/")
    (hn : Point.ofChar '/' ∉ name) : directory (r ++ name) = r := by
  rcases hr with rfl | rfl
  · rw [directory, show Text.ofString "//" ++ name = "/" ++ Point.ofChar '/' :: name from rfl,
      Text.cutLast?_append hn]
    rfl
  · rw [directory, show Text.ofString "/" ++ name = [] ++ Point.ofChar '/' :: name from rfl,
      Text.cutLast?_append hn]
    rfl

/-- Anything else is the directory without the slash behind it. -/
theorem directory_append_slash (hne : a ≠ []) (ha : Text.endsWith a "/" = false)
    (hn : Point.ofChar '/' ∉ name) : directory (a ++ Point.ofChar '/' :: name) = a := by
  have htrim : (a.reverse.dropWhile fun c => decide (c = Point.ofChar '/')).reverse = a := by
    refine List.rdropWhile_eq_self_iff.2 fun h => ?_
    rw [← Bool.not_eq_true, endsWith_slash, List.getLast?_eq_getLast_of_ne_nil h] at ha
    simpa using ha
  rw [directory, Text.cutLast?_append hn]
  dsimp only
  rw [htrim, if_neg (by simpa using hne)]

/-- **The directory of a tidy path** from a root is its parent. -/
theorem directory_eq_parent (hr : root p ≠ []) (ht : tidy p = p) (hne : components p ≠ []) :
    directory p = parent p := by
  have hroot := root_of_ne_nil hr
  have hp : p = root p ++ Text.joinWith "/" ((components p).dropLast ++ [fileName p]) := by
    rw [← components_eq_concat hne, ← assemble_of_root hroot]
    exact ht.symm
  have hparent : parent p = root p ++ Text.joinWith "/" (components p).dropLast :=
    assemble_of_root hroot _
  have hname := noSlash_fileName p
  by_cases hd : (components p).dropLast = []
  · rw [hd] at hp hparent
    calc directory p = directory (root p ++ fileName p) := congrArg directory hp
      _ = root p := directory_root_append hroot hname
      _ = parent p := by rw [hparent, Text.joinWith, List.append_nil]
  · have hslash : Text.endsWith (parent p) "/" = false := by
      refine noSlash_of_tidy (tidy_parent p) (fileName_ne_nil ?_)
      rwa [components_parent]
    rw [Text.joinWith_concat hd, ← List.append_assoc, ← List.append_assoc, ← hparent,
      List.append_assoc] at hp
    calc directory p = directory (parent p ++ Point.ofChar '/' :: fileName p) :=
        congrArg directory hp
      _ = parent p := directory_append_slash (parent_ne_nil p) hslash hname

/-! ## Relative paths from there -/

/-- **Where a relative path leads** from the directory of a tidy path. -/
theorem resolveFrom_directory (hr : root p ≠ []) (ht : tidy p = p) (hne : components p ≠ [])
    (hb : b.startsWith "/" = false) : resolveFrom (directory p) b =
      assemble (root p) (collapse true [] ((components p).dropLast ++ components b)) := by
  have hroot : root (join (parent p) b) = root p := by
    rw [← tidy_parent, root_join_tidy hb, root_parent]
  have hrooted : (root p).isEmpty = false := List.isEmpty_eq_false_iff.2 hr
  simp only [resolveFrom, normalize, directory_eq_parent hr ht hne, hroot, hrooted,
    components_join hb, components_parent, Bool.not_false]

/-- **It leads there also from the normal path** of the same file. -/
theorem resolveFrom_directory_absolute (hr : root p = "/") (ht : tidy p = p)
    (hn : IsName (fileName p)) (hb : b.startsWith "/" = false) :
    resolveFrom (directory (absolute t.current p)) b = resolveFrom (directory p) b := by
  have hne : components p ≠ [] := components_ne_nil hn.nonempty
  have hroot : root p ≠ [] := by
    rw [hr]
    exact List.cons_ne_nil _ _
  have hnormal := isNormal_absolute t p
  have hcomponents : components (absolute t.current p) =
      collapse true [] (components p).dropLast ++ [fileName p] := by
    calc components (absolute t.current p) = t.place p := rfl
      _ = collapse true [] ((components p).dropLast ++ [fileName p]) := by
        rw [FileTree.place_of_root hroot, ← components_eq_concat hne]
      _ = collapse true [] (components p).dropLast ++ [fileName p] := collapse_append hn.ne_up _
  rw [resolveFrom_directory hroot ht hne hb, resolveFrom_directory hnormal.root_ne_nil hnormal.tidy
    (by rw [hcomponents]; simp) hb, hnormal.root, hr, hcomponents, List.dropLast_concat,
    collapse_collapse_append]

end Path

/-- A path that is relative to the importing file does not start at a root. -/
theorem startsWith_slash_of_isRelative {s : Text} (h : isRelative s = true) :
    s.startsWith "/" = false := by
  rcases Bool.or_eq_true_iff.1 h with h | h
  · obtain ⟨u, rfl⟩ := Text.startsWith_iff.1 h
    rfl
  · obtain ⟨u, rfl⟩ := Text.startsWith_iff.1 h
    rfl

/-- **A file imports the same by its normal path** as by a path that leads to it in another way. -/
theorem Resolver.resolve_absolute {t : FileTree} {p : Text} (hr : Path.root p = "/")
    (ht : Path.tidy p = p) (hn : Path.IsName (Path.fileName p)) (r : Resolver) (specifier : Text) :
    r.resolve t specifier (Path.absolute t.current p) = r.resolve t specifier p := by
  unfold resolve
  split
  · rename_i hs
    rw [Path.resolveFrom_directory_absolute hr ht hn (startsWith_slash_of_isRelative hs)]
  · rfl

end SourceAtlas
