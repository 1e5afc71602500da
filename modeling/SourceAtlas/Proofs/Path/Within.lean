import SourceAtlas.Context
import SourceAtlas.Proofs.Path.Names

/-!
# Paths within a directory

A path is taken to lie within a directory if its text starts with that of the directory and a slash.
It does lie there if no parent stands behind its first component; a normal path lies there if and
only if its text says so.

* `Path.IsEnding`: what a listed path can end with; `Path.IsEnding.ne_up_of_mem_tail`: no parent
  arises where it stands behind a normal path;
* `Path.components_prefix_of_isWithin`, **`Path.place_prefix_of_isWithin`**: where a path within a
  directory leads;
* **`Path.isWithin_of_isNormal`**: normal paths within a directory.
-/

namespace SourceAtlas.Path

variable {e f p q directory x : Text} {t : FileTree}

/-! ## Ends of listed paths -/

/-- A text with which a path of names can end: all of its pieces but the first one are names. -/
def IsEnding (e : Text) : Prop := ∀ c ∈ (Text.splitOn '/' e).tail, IsName c

theorem IsListed.isEnding (hf : IsListed f) (h : f.endsWith e = true) : IsEnding e := by
  obtain ⟨g, rfl⟩ := Text.endsWith_iff.1 h
  obtain ⟨xs, x, hg⟩ := (List.eq_nil_or_concat' (Text.splitOn '/' g)).resolve_left
    (Text.splitOn_ne_nil _ g)
  obtain ⟨y, ys, hy⟩ := List.exists_cons_of_ne_nil (Text.splitOn_ne_nil '/' e)
  intro c hc
  refine hf c ?_
  rw [hy] at hc
  rw [Text.splitOn_append_eq hg hy]
  exact List.mem_append_right xs (List.mem_cons_of_mem _ hc)

namespace IsEnding

theorem ne_up_of_mem_tail (he : IsEnding e) {c : Text} (h : c ∈ (components e).tail) : c ≠ up := by
  obtain ⟨y, ys, hy⟩ := List.exists_cons_of_ne_nil (Text.splitOn_ne_nil '/' e)
  rw [IsEnding, hy] at he
  rw [components, hy, List.filter_cons] at h
  refine (he c ?_).ne_up
  split at h
  · exact List.mem_of_mem_filter h
  · exact List.mem_of_mem_filter (List.mem_of_mem_tail h)

/-- No parent arises behind a name. -/
theorem ne_up_of_mem_append (he : IsEnding e) (hx : IsName x) {c : Text}
    (h : c ∈ components (x ++ e)) : c ≠ up := by
  obtain ⟨y, ys, hy⟩ := List.exists_cons_of_ne_nil (Text.splitOn_ne_nil '/' e)
  have hsplit : Text.splitOn '/' (x ++ e) = [] ++ (x ++ y) :: ys :=
    Text.splitOn_append_eq (Text.splitOn_of_not_mem hx.noSlash) hy
  rw [IsEnding, hy] at he
  rw [components, hsplit, List.nil_append] at h
  rcases List.mem_cons.1 (List.mem_of_mem_filter h) with rfl | hc
  · -- The parent has two points, and neither of its nonempty starts is a name.
    intro hup
    have hprefix : x <+: up := hup ▸ List.prefix_append x y
    have hstarts : ∀ z ∈ up.inits, z = [] ∨ z = here ∨ z = up := by decide
    rcases hstarts x ((List.mem_inits x up).2 hprefix) with rfl | rfl | rfl
    · exact hx.nonempty rfl
    · exact hx.ne_here rfl
    · exact hx.ne_up rfl
  · exact (he c hc).ne_up

/-- **No parent arises behind a normal path**, but perhaps as the first component. -/
theorem ne_up_of_mem_normalize (he : IsEnding e) (hr : root q ≠ []) {c : Text}
    (h : c ∈ (components (normalize q ++ e)).tail) : c ≠ up := by
  have hnames : ∀ d ∈ components (normalize q), IsName d := fun d hd =>
    isName_of_mem_normalize hr hd
  have hroot := root_of_ne_nil hr
  have hq : normalize q = assemble (root q) (components (normalize q)) := by
    rw [components_normalize]
    rfl
  by_cases hne : components (normalize q) = []
  · have hc : components (normalize q ++ e) = components e := by
      rw [hq, hne]
      rcases hroot with hr | hr <;> rw [hr]
      · exact (components_append_slash [] _).trans (components_append_slash [] e)
      · exact components_append_slash [] e
    rw [hc] at h
    exact he.ne_up_of_mem_tail h
  · have hlast := hnames _ (fileName_mem_components hne)
    have hfront : ∀ d ∈ (components (normalize q)).dropLast, IsName d := fun d hd =>
      hnames d (List.dropLast_subset _ hd)
    obtain ⟨b, hb, hcb⟩ := @assemble_concat _ (fileName (normalize q)) _ hroot
      fun d hd => (hfront d hd).toIsComponent
    rw [← components_eq_concat hne, ← hq] at hb
    rw [hb, List.append_assoc, List.cons_append, components_append_slash, hcb] at h
    rcases List.mem_append.1 (List.mem_of_mem_tail h) with hc | hc
    · exact (hfront c hc).ne_up
    · exact he.ne_up_of_mem_append hlast hc

end IsEnding

/-! ## Paths within a directory -/

/-- The text of a normal path with components, without slashes at its end. -/
theorem IsNormal.trimEnd (h : IsNormal directory) (hne : components directory ≠ []) :
    Text.trimEndBy (fun c => decide (c = Point.ofChar '/')) directory = directory := by
  have hslash := noSlash_of_tidy h.tidy (fileName_ne_nil hne)
  rw [← Bool.not_eq_true, endsWith_slash] at hslash
  unfold Text.trimEndBy
  cases hd : directory.reverse with
  | nil => rw [List.dropWhile_nil, List.reverse_nil, List.reverse_eq_nil_iff.1 hd]
  | cons c cs =>
    have hc : c ≠ Point.ofChar '/' := by
      rintro rfl
      refine hslash ?_
      rw [← List.head?_reverse, hd]
      rfl
    rw [List.dropWhile_cons_of_neg (by simpa using hc), ← hd, List.reverse_reverse]

theorem startsWith_slash_iff {p : Text} : p.startsWith "/" = true ↔ root p ≠ [] := by
  rw [startsWith_slash, Bool.not_eq_true', List.isEmpty_eq_false_iff]

/-- The start of a path from a root is one from a root. -/
theorem root_ne_nil_of_append {a b : Text} (ha : a ≠ []) (h : root (a ++ b) ≠ []) :
    root a ≠ [] := by
  obtain ⟨c, a, rfl⟩ := List.exists_cons_of_ne_nil ha
  rw [← startsWith_slash_iff, Text.startsWith_iff] at *
  obtain ⟨u, hu⟩ := h
  exact ⟨a, congrArg (· :: a) (List.cons.inj hu).1⟩

/-- A path within a directory is one from a root, and its components start with those of the
directory. -/
theorem components_prefix_of_isWithin (hn : IsNormal directory) (hne : components directory ≠ [])
    (h : isWithin p directory = true) :
    root p ≠ [] ∧ components directory <+: components p := by
  rw [isWithin, hn.trimEnd hne, Bool.or_eq_true, decide_eq_true_iff, Text.startsWith_iff] at h
  rcases h with rfl | ⟨u, rfl⟩
  · exact ⟨hn.root_ne_nil, List.prefix_rfl⟩
  · rw [List.append_assoc]
    refine ⟨?_, ?_⟩
    · rw [← startsWith_slash_iff, Text.startsWith_iff]
      have hd := startsWith_slash_iff.2 hn.root_ne_nil
      exact (Text.startsWith_iff.1 hd).trans (List.prefix_append directory _)
    · show components directory <+: components (directory ++ Point.ofChar '/' :: u)
      rw [components_append_slash]
      exact List.prefix_append _ _

/-- **Where a path within a directory leads**: below the directory, if no parent stands behind its
first component. -/
theorem place_prefix_of_isWithin (hn : IsNormal directory) (h : isWithin p directory = true)
    (hup : root p ≠ [] → ∀ c ∈ (components p).tail, c ≠ up) : t.place directory <+: t.place p := by
  rw [hn.place]
  cases hd : components directory with
  | nil => exact List.nil_prefix
  | cons d ds =>
    obtain ⟨hroot, u, hu⟩ := components_prefix_of_isWithin hn (by simp [hd]) h
    rw [hd] at hu
    have hnames : ∀ c ∈ components p, c ≠ up := by
      intro c hc
      rw [← hu, List.cons_append] at hc
      rcases List.mem_cons.1 hc with rfl | hc
      · exact (hn.isName c (by simp [hd])).ne_up
      · exact hup hroot c (by rwa [← hu])
    rw [FileTree.place_of_ne_up hroot hnames]
    exact ⟨u, hu⟩

/-- **Normal paths within a directory** are said to be so by their texts. -/
theorem isWithin_of_isNormal (hn : IsNormal directory) (hp : IsNormal p)
    (h : components directory <+: components p) : isWithin p directory = true := by
  by_cases hne : components directory = []
  · have hd : directory = Text.ofString "/" := by
      rw [← hn.eq, hne]
      rfl
    have hslash : p.startsWith "/" = true := startsWith_slash_iff.2 hp.root_ne_nil
    rw [hd, isWithin]
    simpa using .inr hslash
  · obtain ⟨u, hu⟩ := h
    rw [isWithin, hn.trimEnd hne, Bool.or_eq_true, decide_eq_true_iff, Text.startsWith_iff]
    by_cases hnil : u = []
    · rw [hnil, List.append_nil] at hu
      exact .inl (by rw [← hp.eq, ← hu, hn.eq])
    · refine .inr ⟨Text.joinWith "/" u, ?_⟩
      have hassemble : ∀ cs, assemble "/" cs = "/" ++ Text.joinWith "/" cs := fun _ => rfl
      rw [← hp.eq, ← hu, hassemble, Text.joinWith_append hne hnil, ← List.append_assoc,
        ← List.append_assoc, ← hassemble, hn.eq]

end SourceAtlas.Path
