import SourceAtlas.Proofs.Affixes
import SourceAtlas.Proofs.Store.Changes

/-!
# Normal paths

A path from the root that is made of names stands for itself: nothing that makes paths normal
changes it, and its place is read off its components.

* `Path.components_child_of_startsWith`: what a relative path leads to from a directory;
* `Path.IsListed`: a relative path that is made of names;
* `Path.collapse_append_of_ne_up`: names stay where parents are taken away;
* `Path.components_normalize`, **`FileTree.place_normalize`**: what a path keeps when it is made
  normal;
* `Path.IsNormal`, `Path.isNormal_absolute`: normal paths from the root;
* `Path.IsNormal.normalize`, `Path.IsNormal.place`: they stay as they are;
* **`Path.IsNormal.child`**: what stands below a normal path.
-/

namespace SourceAtlas

namespace Path

variable {a b p r : Text} {cs ns : List Text}

/-! ## Relative paths -/

theorem isComponent_of_mem_components {c : Text} (h : c ∈ components a ++ components b) :
    IsComponent c :=
  (List.mem_append.1 h).elim isComponent_of_mem isComponent_of_mem

theorem root_child_of_startsWith (h : b.startsWith "/" = false) (a : Text) :
    root (child a b) = root a := by
  rw [child_eq_append h, root_assemble (root_eq a) fun _ => isComponent_of_mem_components]

/-- The components of what a relative path leads to from a directory. -/
theorem components_child_of_startsWith (h : b.startsWith "/" = false) (a : Text) :
    components (child a b) = components a ++ components b := by
  rw [child_eq_append h, components_assemble (root_eq a) fun _ => isComponent_of_mem_components]

/-! ## Listed paths -/

/-- A relative path in which nothing stands between slashes but names. -/
def IsListed (p : Text) : Prop := ∀ c ∈ Text.splitOn '/' p, IsName c

instance (p : Text) : Decidable (IsListed p) := inferInstanceAs (Decidable (∀ c ∈ _, IsName c))

namespace IsListed

theorem components (h : IsListed p) : components p = Text.splitOn '/' p := by
  rw [Path.components, List.filter_eq_self]
  intro c hc
  have hne := (h c hc).nonempty
  simp [(h c hc).ne_here, hne]

theorem isName (h : IsListed p) {c : Text} (hc : c ∈ Path.components p) : IsName c :=
  h c (h.components ▸ hc)

theorem components_ne_nil (h : IsListed p) : Path.components p ≠ [] :=
  h.components ▸ Text.splitOn_ne_nil _ p

theorem startsWith_slash (h : IsListed p) : p.startsWith "/" = false := by
  obtain ⟨l, ls, hs, hl, -⟩ := Text.exists_splitOn (Point.ofChar '/') p
  have hname : IsName l := h l (hs ▸ List.mem_cons_self)
  obtain ⟨q, rfl⟩ := hl
  rw [← Bool.not_eq_true, Text.startsWith_iff]
  rintro ⟨u, hu⟩
  exact hname.head_ne q (by rw [← hu]; rfl)

theorem components_child (h : IsListed b) (a : Text) :
    Path.components (child a b) = Path.components a ++ Path.components b :=
  components_child_of_startsWith h.startsWith_slash a

end IsListed

/-! ## Components without parents -/

/-- Names stay where parents are taken away. -/
theorem collapse_append_of_ne_up {rooted : Bool} {kept : List Text} (h : ∀ c ∈ ns, c ≠ up)
    (cs : List Text) : collapse rooted kept (cs ++ ns) = collapse rooted kept cs ++ ns := by
  induction ns generalizing cs with
  | nil => rw [List.append_nil, List.append_nil]
  | cons n ns ih =>
    have hns : ∀ c ∈ ns, c ≠ up := fun c hc => h c (List.mem_cons_of_mem n hc)
    rw [List.append_cons cs n ns, ih hns, collapse_append (h n List.mem_cons_self),
      List.append_assoc]
    rfl

theorem collapse_of_ne_up {rooted : Bool} (h : ∀ c ∈ cs, c ≠ up) : collapse rooted [] cs = cs :=
  collapse_append_of_ne_up h []

theorem isComponent_of_mem_collapse {rooted : Bool} {c : Text}
    (h : c ∈ collapse rooted [] (components p)) : IsComponent c :=
  isComponent_of_mem ((mem_collapse h).resolve_left List.not_mem_nil)

theorem root_normalize (p : Text) : root (normalize p) = root p :=
  root_assemble (root_eq p) fun _ hc => isComponent_of_mem_collapse hc

theorem components_normalize (p : Text) :
    components (normalize p) = collapse (!(root p).isEmpty) [] (components p) :=
  components_assemble (root_eq p) fun _ hc => isComponent_of_mem_collapse hc

theorem tidy_normalize (p : Text) : tidy (normalize p) = normalize p :=
  tidy_assemble (root_eq p) fun _ hc => isComponent_of_mem_collapse hc

theorem root_tidy (p : Text) : root (tidy p) = root p :=
  root_assemble (root_eq p) fun _ hc => isComponent_of_mem hc

theorem normalize_tidy (p : Text) : normalize (tidy p) = normalize p := by
  rw [normalize, normalize, components_tidy, root_tidy]

theorem normalize_ne_nil (p : Text) : normalize p ≠ [] :=
  assemble_ne_nil fun _ hc => (isComponent_of_mem_collapse hc).nonempty

/-- A normal path from a root is made of names. -/
theorem isName_of_mem_normalize (hr : root p ≠ []) {c : Text} (h : c ∈ components (normalize p)) :
    IsName c := by
  refine ⟨isComponent_of_mem h, ?_⟩
  rw [components_normalize, List.isEmpty_eq_false_iff.2 hr, Bool.not_false] at h
  exact ne_up_of_mem_collapse (by simp) h

end Path

/-! ## Places -/

namespace FileTree

variable {t : FileTree} {p a b : Text}

/-- The place of a path from a root. -/
theorem place_of_root (hr : Path.root p ≠ []) :
    t.place p = Path.collapse true [] (Path.components p) := by
  rw [place_eq, origin, if_neg (by simpa using hr), List.nil_append]

/-- The place of a path from a root that is made of names. -/
theorem place_of_ne_up (hr : Path.root p ≠ []) (h : ∀ c ∈ Path.components p, c ≠ Path.up) :
    t.place p = Path.components p := by
  rw [place_of_root hr, Path.collapse_of_ne_up h]

/-- **A path that is made normal** leads to the same place. -/
theorem place_normalize (hr : Path.root p ≠ []) : t.place (Path.normalize p) = t.place p := by
  have hroot := Path.root_normalize p
  rw [place_of_ne_up (hroot ▸ hr) fun c hc => (Path.isName_of_mem_normalize hr hc).ne_up,
    Path.components_normalize, place_of_root hr, List.isEmpty_eq_false_iff.2 hr]
  rfl

/-- The place of what a listed path leads to from a directory. -/
theorem place_child_of_isListed (h : Path.IsListed b) :
    t.place (Path.child a b) = t.place a ++ Path.components b := by
  rw [place_eq, Path.root_child_of_startsWith h.startsWith_slash, h.components_child,
    ← List.append_assoc, Path.collapse_append_of_ne_up fun c hc => (h.isName hc).ne_up, ← place_eq]

/-- A path from the root, by its place. -/
theorem absolute_eq (t : FileTree) (p : Text) :
    Path.absolute t.current p = Path.assemble "/" (t.place p) := by
  have hcs : ∀ c ∈ Path.collapse true [] (Path.components (Path.join t.current p)),
      Path.IsComponent c := fun _ hc => Path.isComponent_of_mem_collapse hc
  rw [place, Path.absolute, Path.components_assemble (.inr (.inl rfl)) hcs]

end FileTree

namespace Path

variable {a b p r : Text} {cs : List Text}

/-! ## Normal paths from the root -/

/-- The path is made of a slash and names, with a slash between any two. -/
structure IsNormal (p : Text) : Prop where
  eq : assemble "/" (components p) = p
  isName : ∀ c ∈ components p, IsName c

theorem isNormal_assemble (h : ∀ c ∈ cs, IsName c) : IsNormal (assemble "/" cs) := by
  have hcs := components_assemble (.inr (.inl rfl)) fun c hc => (h c hc).toIsComponent
  refine ⟨by rw [hcs], ?_⟩
  rwa [hcs]

theorem isNormal_absolute (t : FileTree) (p : Text) : IsNormal (absolute t.current p) := by
  rw [t.absolute_eq]
  exact isNormal_assemble fun _ hc => FileTree.isName_of_mem_place hc

theorem isNormal_of_absolute {t : FileTree} (h : absolute t.current p = p) : IsNormal p :=
  h ▸ isNormal_absolute t p

namespace IsNormal

theorem root (h : IsNormal p) : root p = "/" := by
  have hr := root_assemble (.inr (.inl rfl)) fun c hc => (h.isName c hc).toIsComponent
  rwa [h.eq] at hr

theorem root_ne_nil (h : IsNormal p) : Path.root p ≠ [] := by
  rw [h.root]
  exact List.cons_ne_nil _ _

theorem tidy (h : IsNormal p) : tidy p = p := by
  rw [Path.tidy, h.root, h.eq]

theorem place (h : IsNormal p) (t : FileTree) : t.place p = components p :=
  FileTree.place_of_ne_up h.root_ne_nil fun c hc => (h.isName c hc).ne_up

theorem normalize (h : IsNormal p) : normalize p = p := by
  have hcs : collapse (!(Path.root p).isEmpty) [] (components p) = components p :=
    collapse_of_ne_up fun c hc => (h.isName c hc).ne_up
  rw [Path.normalize, hcs, h.root]
  exact h.eq

/-- **What stands below a normal path.** -/
theorem child (h : IsNormal a) (hb : IsListed b) : IsNormal (child a b) := by
  rw [child_eq_append hb.startsWith_slash, h.root]
  refine isNormal_assemble fun c hc => ?_
  rcases List.mem_append.1 hc with hc | hc
  · exact h.isName c hc
  · exact hb.isName hc

/-- A listed path as seen from a normal one, in either way of putting them together. -/
theorem resolveFrom (h : IsNormal a) (hb : IsListed b) :
    Path.normalize (join a b) = Path.child a b := by
  have hjoin : Path.tidy (join a b) = Path.child a b := by
    rw [Path.child, h.tidy]
  rw [← (h.child hb).normalize, ← hjoin, normalize_tidy]

end IsNormal

end Path

end SourceAtlas
