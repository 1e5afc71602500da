import SourceAtlas.FileTree
import SourceAtlas.Proofs.Path

/-!
# Places of paths

Where in a tree a path leads, for paths that are made from others: by one more name, by leaving out
the last one, or by another one in its place.

* `Text.splitOn_append`, `Text.splitOn_joinWith`: texts that are split where they were joined;
* `Path.IsComponent`, `Path.IsName`: what may stand between slashes, and what names something in a
  directory;
* `Path.components_assemble`, `Path.root_assemble`: what a path was made of;
* **`Path.child_eq`**, `Path.fileName_child`, `Path.tidy_child`: the path of a name in a directory;
* `FileTree.place_eq`: a place by the components of its path;
* **`FileTree.place_child`**, `FileTree.place_assemble`: places of names.
-/

namespace SourceAtlas

/-! ## Splitting and joining -/

namespace Text

variable {c : Point} {a b : Text}

theorem splitOn_append (c : Point) (a b : Text) :
    splitOn c (a ++ c :: b) = splitOn c a ++ splitOn c b := by
  induction a with
  | nil => simp [splitOn]
  | cons d a ih =>
    rw [List.cons_append, splitOn, splitOn, ih]
    split
    · rfl
    · obtain ⟨l, ls, h, -⟩ := exists_splitOn c a
      rw [h]
      rfl

theorem splitOn_of_not_mem (h : c ∉ a) : splitOn c a = [a] := by
  induction a with
  | nil => rfl
  | cons d a ih =>
    rw [List.mem_cons, not_or] at h
    rw [splitOn, if_neg (Ne.symm h.1), ih h.2]

theorem splitOn_joinWith {ts : List Text} (hne : ts ≠ []) (h : ∀ t ∈ ts, c ∉ t) :
    splitOn c (joinWith [c] ts) = ts := by
  induction ts with
  | nil => exact absurd rfl hne
  | cons t ts ih =>
    have ht := splitOn_of_not_mem (h t List.mem_cons_self)
    cases ts with
    | nil => exact ht
    | cons u ts =>
      rw [joinWith_cons_cons, List.append_assoc]
      show splitOn c (t ++ c :: joinWith [c] (u :: ts)) = _
      rw [splitOn_append, ht, ih (List.cons_ne_nil u ts) fun v hv => h v (List.mem_cons_of_mem t hv)]
      rfl

theorem mem_joinWith {sep : Text} {ts : List Text} {p : Point} (h : p ∈ joinWith sep ts) :
    p ∈ sep ∨ ∃ t ∈ ts, p ∈ t := by
  induction ts with
  | nil => cases h
  | cons t ts ih =>
    cases ts with
    | nil => exact .inr ⟨t, List.mem_cons_self, h⟩
    | cons u ts =>
      rw [joinWith_cons_cons, List.mem_append, List.mem_append] at h
      rcases h with (h | h) | h
      · exact .inr ⟨t, List.mem_cons_self, h⟩
      · exact .inl h
      · rcases ih h with h | ⟨v, hv, hp⟩
        · exact .inl h
        · exact .inr ⟨v, List.mem_cons_of_mem t hv, hp⟩

theorem has_eq_false_iff {t : Text} : t.has c = false ↔ c ∉ t := by
  rw [has, List.any_eq_false]
  simp only [decide_eq_true_eq]
  exact ⟨fun h hc => h c hc rfl, fun h d hd he => h (he ▸ hd)⟩

@[simp]
theorem startsWith_nil (t : Text) : t.startsWith [] = true := by
  cases t <;> rfl

theorem startsWith_cons (d : Point) :
    startsWith (c :: a) (d :: b) = (decide (c = d) && startsWith a b) :=
  rfl

end Text

namespace Path

variable {r name a b : Text} {cs : List Text}

/-! ## What may stand between slashes -/

/-- A component of a path: neither empty nor `.`, and without a slash. -/
structure IsComponent (c : Text) : Prop where
  nonempty : c ≠ []
  noSlash : Point.ofChar '/' ∉ c
  ne_here : c ≠ here

/-- A name of something in a directory: a component other than `..`. -/
structure IsName (c : Text) : Prop extends IsComponent c where
  ne_up : c ≠ up

instance (c : Text) : Decidable (IsName c) :=
  decidable_of_iff (c ≠ [] ∧ Point.ofChar '/' ∉ c ∧ c ≠ here ∧ c ≠ up)
    ⟨fun h => ⟨⟨h.1, h.2.1, h.2.2.1⟩, h.2.2.2⟩, fun h => ⟨h.nonempty, h.noSlash, h.ne_here, h.ne_up⟩⟩

/-- A text of more than two points is a name if it has no slash. -/
theorem isName_of_length {c : Text} (h : 2 < c.length) (hs : Point.ofChar '/' ∉ c) : IsName c := by
  have hne : ∀ d : Text, d.length ≤ 2 → c ≠ d := by
    rintro d hd rfl
    omega
  exact ⟨⟨hne [] (by decide), hs, hne here (by decide)⟩, hne up (by decide)⟩

theorem isComponent_of_mem {c : Text} (h : c ∈ components a) : IsComponent c := by
  obtain ⟨hne, hslash, -⟩ := mem_components h
  have hf := (List.mem_filter.1 h).2
  rw [Bool.and_eq_true, decide_eq_true_iff] at hf
  exact ⟨hne, hslash, hf.2⟩

theorem IsComponent.head_ne {c : Text} (h : IsComponent c) (rest : Text) :
    (c ++ rest).head? ≠ some (Point.ofChar '/') := by
  intro he
  cases c with
  | nil => exact h.nonempty rfl
  | cons p c =>
    cases he
    exact h.noSlash List.mem_cons_self

theorem head_joinWith_ne (h : ∀ c ∈ cs, IsComponent c) (rest : Text) (hr : cs ≠ []) :
    (Text.joinWith "/" cs ++ rest).head? ≠ some (Point.ofChar '/') := by
  match cs with
  | [] => exact absurd rfl hr
  | [c] => exact (h c List.mem_cons_self).head_ne rest
  | c :: d :: cs =>
    rw [Text.joinWith_cons_cons, List.append_assoc, List.append_assoc]
    exact (h c List.mem_cons_self).head_ne _

/-! ## Components -/

theorem components_append_slash (a b : Text) :
    components (a ++ Point.ofChar '/' :: b) = components a ++ components b := by
  rw [components, Text.splitOn_append, List.filter_append]
  rfl

theorem components_nil : components [] = [] := rfl

theorem components_of_isComponent {c : Text} (h : IsComponent c) : components c = [c] := by
  have hc : c.isEmpty = false := by
    rw [List.isEmpty_eq_false_iff]
    exact h.nonempty
  rw [components, Text.splitOn_of_not_mem h.noSlash, List.filter_cons, hc,
    decide_eq_true h.ne_here]
  rfl

theorem components_joinWith (h : ∀ c ∈ cs, IsComponent c) : components (Text.joinWith "/" cs) = cs := by
  by_cases hne : cs = []
  · rw [hne]
    rfl
  · have hs : Text.splitOn '/' (Text.joinWith "/" cs) = cs :=
      Text.splitOn_joinWith hne fun c hc => (h c hc).noSlash
    rw [components, hs, List.filter_eq_self]
    intro c hc
    have hcne := (h c hc).nonempty
    simp [(h c hc).ne_here, hcne]

/-- **The components that a path was made of.** -/
theorem components_assemble (hr : r = Text.ofString "//" ∨ r = Text.ofString "/" ∨ r = [])
    (h : ∀ c ∈ cs, IsComponent c) : components (assemble r cs) = cs := by
  unfold assemble
  split
  · rename_i he
    rw [Bool.and_eq_true, List.isEmpty_iff, List.isEmpty_iff] at he
    rw [he.2]
    rfl
  · have hj := components_joinWith h
    have hslash : ∀ t, components (Point.ofChar '/' :: t) = components t :=
      fun t => components_append_slash [] t
    rcases hr with rfl | rfl | rfl
    · show components (Point.ofChar '/' :: Point.ofChar '/' :: Text.joinWith "/" cs) = cs
      rw [hslash, hslash, hj]
    · show components (Point.ofChar '/' :: Text.joinWith "/" cs) = cs
      rw [hslash, hj]
    · exact hj

/-! ## Roots -/

/-- A root in front of what does not start with a slash. -/
theorem root_append (hr : r = Text.ofString "//" ∨ r = Text.ofString "/" ∨ r = [])
    (h : a.head? ≠ some (Point.ofChar '/')) : root (r ++ a) = r := by
  have hs : ∀ p, Text.startsWith a (Point.ofChar '/' :: p) = false := by
    intro p
    cases a with
    | nil => rfl
    | cons c a =>
      have hc : c ≠ Point.ofChar '/' := fun he => h (by rw [he]; rfl)
      rw [Text.startsWith_cons, decide_eq_false hc, Bool.false_and]
  rcases hr with rfl | rfl | rfl
  · have h₂ : Text.startsWith (Text.ofString "//" ++ a) "//" = true := Text.startsWith_nil a
    have h₃ : Text.startsWith (Text.ofString "//" ++ a) "///" = false := hs []
    rw [root, h₂, h₃]
    rfl
  · have h₂ : Text.startsWith (Text.ofString "/" ++ a) "//" = false := hs []
    have h₁ : Text.startsWith (Text.ofString "/" ++ a) "/" = true := Text.startsWith_nil a
    rw [root, h₂, h₁]
    rfl
  · have h₂ : Text.startsWith a "//" = false := hs _
    have h₁ : Text.startsWith a "/" = false := hs []
    rw [List.nil_append, root, h₂, h₁]
    rfl

theorem root_assemble (hr : r = Text.ofString "//" ∨ r = Text.ofString "/" ∨ r = [])
    (h : ∀ c ∈ cs, IsComponent c) : root (assemble r cs) = r := by
  unfold assemble
  split
  · rename_i he
    rw [Bool.and_eq_true, List.isEmpty_iff] at he
    rw [he.1]
    rfl
  · refine root_append hr ?_
    by_cases hne : cs = []
    · rw [hne]
      exact Option.some_ne_none _ |>.symm
    · have := head_joinWith_ne h [] hne
      rwa [List.append_nil] at this

theorem startsWith_slash (t : Text) : t.startsWith "/" = !(root t).isEmpty := by
  unfold root
  cases t with
  | nil => rfl
  | cons p t =>
    by_cases hp : p = Point.ofChar '/'
    · subst hp
      have h₁ : Text.startsWith (Point.ofChar '/' :: t) "/" = true := Text.startsWith_nil t
      rw [h₁]
      split <;> rfl
    · have hs : ∀ q, Text.startsWith (p :: t) (Point.ofChar '/' :: q) = false := by
        intro q
        rw [Text.startsWith_cons, decide_eq_false hp, Bool.false_and]
      have h₁ : Text.startsWith (p :: t) "/" = false := hs []
      have h₂ : Text.startsWith (p :: t) "//" = false := hs _
      rw [h₁, h₂]
      rfl

/-! ## Tidy paths -/

theorem components_tidy (t : Text) : components (tidy t) = components t :=
  components_assemble (root_eq t) fun _ hc => isComponent_of_mem hc

theorem tidy_assemble (hr : r = Text.ofString "//" ∨ r = Text.ofString "/" ∨ r = [])
    (h : ∀ c ∈ cs, IsComponent c) : tidy (assemble r cs) = assemble r cs := by
  rw [tidy, root_assemble hr h, components_assemble hr h]

/-- The components of joined paths. -/
theorem components_join (h : b.startsWith "/" = false) :
    components (join a b) = components a ++ components b := by
  unfold join
  rw [if_neg (by simp [h])]
  split
  · rename_i he
    rw [Bool.or_eq_true, List.isEmpty_iff, endsWith_slash] at he
    rcases he with rfl | he
    · rfl
    · obtain ⟨a', rfl⟩ := List.getLast?_eq_some_iff.1 he
      rw [components_append_slash a' [], components_nil, List.append_nil, List.append_assoc]
      exact components_append_slash a' b
  · show components (a ++ [Point.ofChar '/'] ++ b) = _
    rw [List.append_assoc]
    exact components_append_slash a b

theorem IsComponent.startsWith_slash {c : Text} (h : IsComponent c) : c.startsWith "/" = false := by
  have hr := root_append (.inr (.inr rfl)) (List.append_nil c ▸ h.head_ne [])
  rw [List.nil_append] at hr
  rw [Path.startsWith_slash, hr]
  rfl

theorem head_ne_of_startsWith (h : b.startsWith "/" = false) : b.head? ≠ some (Point.ofChar '/') := by
  cases b with
  | nil => exact Option.some_ne_none _ |>.symm
  | cons p b =>
    rintro ⟨rfl⟩
    have hs : Text.startsWith (Point.ofChar '/' :: b) "/" = true := Text.startsWith_nil b
    rw [hs] at h
    cases h

theorem root_join_tidy (h : b.startsWith "/" = false) : root (join (tidy a) b) = root a := by
  have hhead := head_ne_of_startsWith h
  have hcs : ∀ c ∈ components a, IsComponent c := fun _ hc => isComponent_of_mem hc
  unfold join
  rw [if_neg (by simp [h])]
  by_cases hne : components a = []
  · -- The path is a root, or the directory that one is in.
    rw [tidy, hne]
    rcases root_eq a with hr | hr | hr <;> rw [hr]
    · exact root_append (.inl rfl) hhead
    · exact root_append (.inr (.inl rfl)) hhead
    · exact root_append (r := []) (.inr (.inr rfl)) (a := "./" ++ b) (by simp [Text.ofString])
  · have htidy : tidy a = root a ++ Text.joinWith "/" (components a) := by
      rw [tidy, assemble, if_neg]
      rw [Bool.and_eq_true, List.isEmpty_iff, List.isEmpty_iff]
      exact fun he => hne he.2
    rw [htidy]
    split
    · rw [List.append_assoc]
      exact root_append (root_eq a) (head_joinWith_ne hcs _ hne)
    · rw [List.append_assoc, List.append_assoc]
      exact root_append (root_eq a) (head_joinWith_ne hcs _ hne)

/-- The path of what a relative path leads to from a directory. -/
theorem child_eq_append (h : b.startsWith "/" = false) :
    child a b = assemble (root a) (components a ++ components b) := by
  rw [child, tidy, root_join_tidy h, components_join h, components_tidy]

theorem isComponent_of_mem_append (h : IsComponent name) :
    ∀ c ∈ components a ++ [name], IsComponent c := by
  intro c hc
  rcases List.mem_append.1 hc with hc | hc
  · exact isComponent_of_mem hc
  · rwa [List.mem_singleton.1 hc]

theorem components_eq_concat (h : components a ≠ []) :
    components a = (components a).dropLast ++ [fileName a] := by
  rw [fileName, List.getLastD_eq_getLast?, List.getLast?_eq_getLast_of_ne_nil h]
  exact (List.dropLast_append_getLast h).symm

theorem fileName_mem_components (h : components a ≠ []) : fileName a ∈ components a := by
  rw [components_eq_concat h]
  simp

/-- **The path of a name in a directory.** -/
theorem child_eq (h : IsComponent name) :
    child a name = assemble (root a) (components a ++ [name]) := by
  rw [child_eq_append h.startsWith_slash, components_of_isComponent h]

theorem components_child (h : IsComponent name) :
    components (child a name) = components a ++ [name] := by
  rw [child_eq h, components_assemble (root_eq a) (isComponent_of_mem_append h)]

theorem root_child (h : IsComponent name) : root (child a name) = root a := by
  rw [child_eq h, root_assemble (root_eq a) (isComponent_of_mem_append h)]

theorem fileName_child (h : IsComponent name) : fileName (child a name) = name := by
  rw [fileName, components_child h, List.getLastD_concat]

theorem tidy_child (a name : Text) : tidy (child a name) = child a name := by
  rw [child]
  exact tidy_assemble (root_eq _) fun c hc => isComponent_of_mem hc

/-! ## Components without parents -/

/-- What is left of some components is what the next ones are taken up with. -/
theorem collapse_append_collapse (rooted : Bool) (kept cs ds : List Text) :
    collapse rooted kept (cs ++ ds) = collapse rooted (collapse rooted kept cs).reverse ds := by
  fun_induction collapse rooted kept cs with
  | case1 kept => rw [List.nil_append, List.reverse_reverse]
  | case2 kept c cs hc ih =>
    rw [List.cons_append, collapse.eq_def]
    dsimp only
    rw [if_pos hc, ih]
  | case3 c cs hc ks ih => rw [List.cons_append, collapse, if_neg hc, if_pos rfl, ih]
  | case4 c cs hc k ks hk ih => rw [List.cons_append, collapse, if_neg hc, if_neg hk, ih]
  | case5 c cs hc hr ih => rw [List.cons_append, collapse, if_neg hc, if_pos hr, ih]
  | case6 c cs hc hr ih => rw [List.cons_append, collapse, if_neg hc, if_neg hr, ih]

/-- A last name stays where parents are taken away. -/
theorem collapse_append {rooted : Bool} {kept : List Text} (hn : name ≠ up) (cs : List Text) :
    collapse rooted kept (cs ++ [name]) = collapse rooted kept cs ++ [name] := by
  rw [collapse_append_collapse]
  simp [collapse, hn]

/-- Below a root no parent is left. -/
theorem ne_up_of_mem_collapse {kept : List Text} {c : Text} (hk : ∀ d ∈ kept, d ≠ up)
    (h : c ∈ collapse true kept cs) : c ≠ up := by
  fun_induction collapse true kept cs with
  | case1 kept => exact hk c (List.mem_reverse.1 h)
  | case2 kept d cs hd ih => exact ih (by grind) h
  | case3 d cs hd ks ih => exact absurd rfl (hk up List.mem_cons_self)
  | case4 d cs hd k ks hne ih => exact ih (fun e he => hk e (List.mem_cons_of_mem k he)) h
  | case5 d cs hd hr ih => exact ih hk h
  | case6 d cs hd hr => exact absurd rfl hr

end Path

/-! ## Places -/

namespace FileTree

variable {t : FileTree} {r name directory path : Text} {cs : List Text}

/-- The components that lead from the root to the place where relative paths with this root start. -/
def origin (t : FileTree) (root : Text) : List Text :=
  if root.isEmpty then Path.components t.current else []

/-- A place by the components of its path. -/
theorem place_eq (t : FileTree) (path : Text) : t.place path =
    Path.collapse true [] (t.origin (Path.root path) ++ Path.components path) := by
  have hj : Path.components (Path.join t.current path) =
      t.origin (Path.root path) ++ Path.components path := by
    have hs := Path.startsWith_slash path
    unfold origin
    cases hr : (Path.root path).isEmpty with
    | true =>
      rw [hr, Bool.not_true] at hs
      rw [Path.components_join hs, if_pos rfl]
    | false =>
      rw [hr, Bool.not_false] at hs
      rw [Path.join, if_pos hs, if_neg Bool.false_ne_true, List.nil_append]
  rw [place, Path.absolute, Path.components_assemble (.inr (.inl rfl)), hj]
  intro c hc
  rcases Path.mem_collapse hc with hc | hc
  · cases hc
  · exact Path.isComponent_of_mem hc

/-- The place of a path with a last name. -/
theorem place_assemble (hr : r = Text.ofString "//" ∨ r = Text.ofString "/" ∨ r = [])
    (hcs : ∀ c ∈ cs, Path.IsComponent c) (hn : Path.IsName name) :
    t.place (Path.assemble r (cs ++ [name])) = t.place (Path.assemble r cs) ++ [name] := by
  have hcs' : ∀ c ∈ cs ++ [name], Path.IsComponent c := by
    intro c hc
    rcases List.mem_append.1 hc with hc | hc
    · exact hcs c hc
    · rw [List.mem_singleton.1 hc]
      exact hn.toIsComponent
  rw [place_eq, place_eq, Path.root_assemble hr hcs, Path.root_assemble hr hcs',
    Path.components_assemble hr hcs, Path.components_assemble hr hcs', ← List.append_assoc,
    Path.collapse_append hn.ne_up]

theorem place_tidy (t : FileTree) (path : Text) : t.place (Path.tidy path) = t.place path := by
  rw [place_eq, place_eq, Path.components_tidy, Path.tidy,
    Path.root_assemble (Path.root_eq path) fun _ hc => Path.isComponent_of_mem hc]

/-- **The place of a name in a directory.** -/
theorem place_child (hn : Path.IsName name) :
    t.place (Path.child directory name) = t.place directory ++ [name] := by
  rw [Path.child_eq hn.toIsComponent, place_assemble (Path.root_eq directory)
    (fun _ hc => Path.isComponent_of_mem hc) hn, ← place_tidy t directory]
  rfl

theorem isComponent_of_mem_dropLast {c : Text} (h : c ∈ (Path.components path).dropLast) :
    Path.IsComponent c :=
  Path.isComponent_of_mem (List.dropLast_subset _ h)

end FileTree

end SourceAtlas
