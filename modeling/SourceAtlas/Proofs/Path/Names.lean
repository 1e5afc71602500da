import SourceAtlas.Path.Spelling
import SourceAtlas.Proofs.Path.Normal

/-!
# Last names of paths

The last component of a path and what it ends with, for paths as they are written, for their places,
and for the paths of files in directories.

* `Path.fileName_append`, `Path.endsWith_fileName`: the last component ends as the path does;
* `Path.fileName_withFileName`, `Path.fileName_child_of_ne_nil`: what is put last, or seen from a
  directory, is the last component;
* `Path.IsListed.fileName_suffix`: a listed path ends with it;
* `Path.components_parent`, `Path.root_parent`: a path without it;
* `Path.fit_normalize`, **`Path.fit_child`**: points that are not fit do not arise;
* **`Path.Valid.normalize`**: a path from a root is still taken as a path when it is made normal;
* **`FileTree.getLast?_place`**: a place ends with the last component of its path;
* `Path.IsNormal.afterLast_slash`: the last component of a normal path as it is written;
* `Path.isDotted`, **`Path.extension_eq_iff`**: which last components have an extension.
-/

namespace SourceAtlas

theorem Text.joinWith_append {sep : Text} {ts us : List Text} (ht : ts ≠ []) (hu : us ≠ []) :
    joinWith sep (ts ++ us) = joinWith sep ts ++ sep ++ joinWith sep us := by
  induction ts with
  | nil => exact absurd rfl ht
  | cons t ts ih =>
    cases ts with
    | nil =>
      obtain ⟨u, us, rfl⟩ := List.exists_cons_of_ne_nil hu
      rfl
    | cons v ts =>
      rw [List.cons_append, List.cons_append, joinWith_cons_cons, ← List.cons_append,
        ih (List.cons_ne_nil v ts), joinWith_cons_cons]
      simp only [List.append_assoc]

/-- Pieces are left out with what joins them. -/
theorem Text.joinWith_sublist {sep : Text} {ts us : List Text} (h : ts.Sublist us) :
    (joinWith sep ts).Sublist (joinWith sep us) := by
  induction h with
  | slnil => exact .refl _
  | @cons ts us u h ih =>
    cases us with
    | nil =>
      rw [List.sublist_nil.1 h]
      exact List.nil_sublist _
    | cons v us => exact ih.trans (List.sublist_append_right _ _)
  | @cons_cons ts us t h ih =>
    cases ts with
    | nil =>
      cases us with
      | nil => exact .refl _
      | cons v us =>
        rw [joinWith_cons_cons, List.append_assoc]
        exact List.sublist_append_left _ _
    | cons w ts =>
      cases us with
      | nil => cases h
      | cons v us => exact ih.append_left _

theorem Text.joinWith_concat {sep t : Text} {ts : List Text} (h : ts ≠ []) :
    joinWith sep (ts ++ [t]) = joinWith sep ts ++ sep ++ t :=
  joinWith_append h (List.cons_ne_nil t [])

namespace Path

variable {a b e g p : Text} {cs : List Text}

/-! ## Last components -/

theorem fileName_ne_nil (h : components p ≠ []) : fileName p ≠ [] :=
  (isComponent_of_mem (fileName_mem_components h)).nonempty

theorem noSlash_fileName (p : Text) : Point.ofChar '/' ∉ fileName p := by
  by_cases h : components p = []
  · rw [fileName, h]
    exact List.not_mem_nil
  · exact (isComponent_of_mem (fileName_mem_components h)).noSlash

theorem fileName_eq_of_components {c : Text} (h : components p = cs ++ [c]) : fileName p = c := by
  rw [fileName, h, List.getLastD_concat]

/-- The last component of a text that ends with a part of a name. -/
theorem fileName_append (hs : Point.ofChar '/' ∉ e) (hl : 2 < e.length) (g : Text) :
    ∃ x, fileName (g ++ e) = x ++ e ∧ components (g ++ e) ≠ [] := by
  obtain ⟨xs, x, hg⟩ := (List.eq_nil_or_concat' (Text.splitOn '/' g)).resolve_left
    (Text.splitOn_ne_nil _ g)
  have hx : Point.ofChar '/' ∉ x := Text.not_mem_of_mem_splitOn (t := g) (by rw [hg]; simp)
  have hname : IsName (x ++ e) := by
    refine isName_of_length ?_ ?_
    · rw [List.length_append]
      omega
    · rw [List.mem_append, not_or]
      exact ⟨hx, hs⟩
  have hc : components (g ++ e) = (xs.filter fun c => !c.isEmpty && c ≠ here) ++ [x ++ e] := by
    have hne := hname.nonempty
    rw [components, Text.splitOn_append_eq hg (Text.splitOn_of_not_mem hs), List.filter_append,
      List.filter_cons_of_pos, List.filter_nil]
    simp [hname.ne_here, hne]
  exact ⟨x, fileName_eq_of_components hc, by rw [hc]; simp⟩

/-- The last component ends as the path does. -/
theorem endsWith_fileName (hs : Point.ofChar '/' ∉ e) (hl : 2 < e.length)
    (h : p.endsWith e = true) : (fileName p).endsWith e = true ∧ components p ≠ [] := by
  obtain ⟨g, rfl⟩ := Text.endsWith_iff.1 h
  obtain ⟨x, hx, hne⟩ := fileName_append hs hl g
  exact ⟨by rw [hx, Text.endsWith_iff]; exact List.suffix_append x e, hne⟩

/-- A last component that ends with more than two points is a name. -/
theorem isName_fileName (hl : 2 < e.length) (h : (fileName p).endsWith e = true) :
    IsName (fileName p) := by
  have := (Text.endsWith_iff.1 h).length_le
  exact isName_of_length (by omega) (noSlash_fileName p)

/-- A path has the last component that it is given. -/
theorem fileName_withFileName {name q : Text} (hn : IsComponent name)
    (h : withFileName p name = some q) : fileName q = name := by
  have hcs : ∀ c ∈ (components p).dropLast ++ [name], IsComponent c :=
    List.forall_mem_append.2 ⟨fun _ hc => isComponent_of_mem (List.dropLast_subset _ hc),
      List.forall_mem_singleton.2 hn⟩
  unfold withFileName at h
  split at h
  · cases h
  · rw [← Option.some.inj h]
    exact fileName_eq_of_components (components_assemble (root_eq p) hcs)

/-- What is seen from a directory keeps its last component. -/
theorem fileName_child_of_ne_nil (h : components b ≠ []) (a : Text) :
    fileName (child a b) = fileName b := by
  cases hb : b.startsWith "/" with
  | true => rw [child, join, if_pos hb, fileName, components_tidy, fileName]
  | false =>
    have hc : components (child a b) = components a ++ (components b).dropLast ++ [fileName b] := by
      rw [components_child_of_startsWith hb, List.append_assoc, ← components_eq_concat h]
    exact fileName_eq_of_components hc

/-- A listed path ends with its last component. -/
theorem IsListed.fileName_suffix (h : IsListed p) : fileName p <:+ p := by
  have hp : Text.joinWith "/" (Path.components p) = p := by
    rw [h.components]
    exact Text.joinWith_splitOn '/' p
  rw [components_eq_concat h.components_ne_nil] at hp
  by_cases hd : (Path.components p).dropLast = []
  · rw [hd, List.nil_append] at hp
    exact ⟨[], hp⟩
  · rw [Text.joinWith_concat hd] at hp
    exact ⟨_, hp⟩

/-! ## Parents -/

theorem components_parent (p : Text) : components (parent p) = (components p).dropLast :=
  components_assemble (root_eq p) fun _ => FileTree.isComponent_of_mem_dropLast

theorem root_parent (p : Text) : root (parent p) = root p :=
  root_assemble (root_eq p) fun _ => FileTree.isComponent_of_mem_dropLast

theorem tidy_parent (p : Text) : tidy (parent p) = parent p :=
  tidy_assemble (root_eq p) fun _ => FileTree.isComponent_of_mem_dropLast

/-! ## Points of paths -/

theorem mem_assemble {r : Text} {cs : List Text} {q : Point}
    (hr : r = Text.ofString "//" ∨ r = Text.ofString "/" ∨ r = []) (h : q ∈ assemble r cs) :
    (∃ c ∈ cs, q ∈ c) ∨ q = Point.ofChar '/' ∨ q = Point.ofChar '.' := by
  have hroot : q ∈ r → q = Point.ofChar '/' := by
    rcases hr with rfl | rfl | rfl <;> simp [Text.ofString]
  unfold assemble at h
  split at h
  · exact .inr (.inr (List.mem_singleton.1 h))
  · rcases List.mem_append.1 h with h | h
    · exact .inr (.inl (hroot h))
    · rcases Text.mem_joinWith h with h | h
      · exact .inr (.inl (List.mem_singleton.1 h))
      · exact .inl h

theorem mem_tidy {q : Point} (h : q ∈ tidy p) :
    q ∈ p ∨ q = Point.ofChar '/' ∨ q = Point.ofChar '.' := by
  refine (mem_assemble (root_eq p) h).imp_left ?_
  rintro ⟨c, hc, hq⟩
  exact (mem_components hc).2.2.subset hq

theorem mem_normalize {q : Point} (h : q ∈ normalize p) :
    q ∈ p ∨ q = Point.ofChar '/' ∨ q = Point.ofChar '.' := by
  refine (mem_assemble (root_eq p) h).imp_left ?_
  rintro ⟨c, hc, hq⟩
  exact (mem_components ((mem_collapse hc).resolve_left List.not_mem_nil)).2.2.subset hq

theorem mem_join {q : Point} (h : q ∈ join a b) : q ∈ a ∨ q ∈ b ∨ q = Point.ofChar '/' := by
  unfold join at h
  split at h
  · exact .inr (.inl h)
  · split at h <;> simp only [List.mem_append] at h
    · rcases h with h | h
      · exact .inl h
      · exact .inr (.inl h)
    · rcases h with (h | h) | h
      · exact .inl h
      · exact .inr (.inr (List.mem_singleton.1 h))
      · exact .inr (.inl h)

/-- A slash and a full stop are fit. -/
theorem fit_of_mem (h : ∀ q ∈ b, q ∈ a ∨ q = Point.ofChar '/' ∨ q = Point.ofChar '.')
    (ha : isFit a = true) : isFit b = true := by
  refine List.all_eq_true.2 fun q hq => ?_
  rcases h q hq with hq | rfl | rfl
  · exact List.all_eq_true.1 ha q hq
  · decide
  · decide

theorem fit_normalize (h : isFit p = true) : isFit (normalize p) = true :=
  fit_of_mem (fun _ => mem_normalize) h

theorem fit_tidy (h : isFit p = true) : isFit (tidy p) = true := fit_of_mem (fun _ => mem_tidy) h

/-- **No point that is not fit arises** in the path of what is seen from a directory. -/
theorem fit_child (ha : isFit a = true) (hb : isFit b = true) : isFit (child a b) = true := by
  refine fit_tidy (List.all_eq_true.2 fun q hq => ?_)
  rcases mem_join hq with hq | hq | rfl
  · exact List.all_eq_true.1 (fit_tidy ha) q hq
  · exact List.all_eq_true.1 hb q hq
  · decide

/-! ## Lengths -/

theorem collapse_sublist {rooted : Bool} {kept rest : List Text} :
    (collapse rooted kept rest).Sublist (kept.reverse ++ rest) := by
  fun_induction collapse rooted kept rest with
  | case1 kept => simp
  | case2 kept d cs hd ih => simpa using ih
  | case3 d cs hd ks ih => simpa using ih
  | case4 d cs hd k ks hk ih =>
    refine ih.trans ?_
    rw [List.reverse_cons, List.append_assoc]
    exact ((List.sublist_cons_self _ cs).trans (List.sublist_append_right _ _)).append_left _
  | case5 d cs hd hr ih => exact ih.trans (List.sublist_cons_self d cs)
  | case6 d cs hd hr ih => simpa using ih

/-- A path from a root begins with it. -/
theorem exists_root_append (hr : root p ≠ []) :
    ∃ rest, p = root p ++ rest ∧ components p = components rest := by
  have hslash : ∀ t, components (Point.ofChar '/' :: t) = components t :=
    fun t => components_append_slash [] t
  unfold root at hr ⊢
  split at hr
  · rename_i h
    rw [if_pos h]
    obtain ⟨rest, rfl⟩ := Text.startsWith_iff.1 (Bool.and_eq_true _ _ ▸ h).1
    refine ⟨rest, rfl, ?_⟩
    show components (Point.ofChar '/' :: Point.ofChar '/' :: rest) = components rest
    rw [hslash, hslash]
  · rename_i h
    rw [if_neg h]
    split at hr
    · rename_i h
      rw [if_pos h]
      obtain ⟨rest, rfl⟩ := Text.startsWith_iff.1 h
      exact ⟨rest, rfl, hslash rest⟩
    · exact absurd rfl hr

/-- **A path that is made normal** has points of the path, in the same order. -/
theorem normalize_sublist (hr : root p ≠ []) : (normalize p).Sublist p := by
  obtain ⟨rest, hp, hc⟩ := exists_root_append hr
  have hcs : (collapse (!(root p).isEmpty) [] (components p)).Sublist (Text.splitOn '/' rest) := by
    rw [hc]
    exact collapse_sublist.trans List.filter_sublist
  have hrest : (Text.joinWith "/" (collapse (!(root p).isEmpty) [] (components p))).Sublist rest := by
    have hjoin : Text.joinWith "/" (Text.splitOn '/' rest) = rest := Text.joinWith_splitOn '/' rest
    exact hjoin ▸ Text.joinWith_sublist hcs
  have hempty : (root p).isEmpty = false := List.isEmpty_eq_false_iff.2 hr
  rw [normalize, assemble, hempty, Bool.false_and, if_neg Bool.false_ne_true]
  rw [hempty] at hrest
  conv_rhs => rw [hp]
  exact hrest.append_left _

theorem octets_le_of_sublist (h : a.Sublist b) : octets a ≤ octets b := by
  unfold octets
  induction h with
  | slnil => exact Nat.le_refl _
  | cons q h ih =>
    rw [List.foldr_cons]
    omega
  | cons_cons q h ih =>
    rw [List.foldr_cons, List.foldr_cons]
    omega

/-- **A path from a root is still taken as a path** when it is made normal. -/
theorem Valid.normalize (h : Valid p) (hr : root p ≠ []) : Valid (normalize p) where
  fit := fit_normalize h.fit
  nonempty := normalize_ne_nil p
  short := by
    have hle := octets_le_of_sublist (normalize_sublist hr)
    have hlt := h.short
    rw [isShort, decide_eq_true_iff] at hlt ⊢
    exact hle.trans_lt hlt

end Path

/-- **A place ends with the last component of its path.** -/
theorem FileTree.getLast?_place {t : FileTree} {p : Text} (h : Path.IsName (Path.fileName p)) :
    (t.place p).getLast? = some (Path.fileName p) := by
  have hne : Path.components p ≠ [] := Path.components_ne_nil h.nonempty
  rw [place_eq, Path.components_eq_concat hne, ← List.append_assoc, Path.collapse_append h.ne_up,
    List.getLast?_concat]

namespace Path

variable {e p : Text}

/-! ## Extensions -/

/-- What stands before and behind the last slash of a path from a root. -/
theorem assemble_concat {r name : Text} {cs : List Text}
    (hr : r = Text.ofString "//" ∨ r = Text.ofString "/") (hcs : ∀ c ∈ cs, IsComponent c) :
    ∃ b, assemble r (cs ++ [name]) = b ++ Point.ofChar '/' :: name ∧ components b = cs := by
  have hassemble : ∀ ds, assemble r ds = r ++ Text.joinWith "/" ds := by
    intro ds
    rcases hr with rfl | rfl <;> rfl
  by_cases hne : cs = []
  · subst hne
    rcases hr with rfl | rfl
    · exact ⟨"/", rfl, rfl⟩
    · exact ⟨[], rfl, rfl⟩
  · refine ⟨assemble r cs, ?_, components_assemble (hr.imp_right .inl) hcs⟩
    rw [hassemble, hassemble, Text.joinWith_concat hne, List.append_assoc, List.append_assoc]
    rfl

/-- The last component of a normal path stands behind its last slash. -/
theorem IsNormal.afterLast_slash (h : IsNormal p) (hne : components p ≠ []) :
    Text.afterLast '/' p = fileName p := by
  have hcs : ∀ c ∈ (components p).dropLast, IsComponent c := fun _ hc =>
    isComponent_of_mem (List.dropLast_subset _ hc)
  obtain ⟨b, hb, -⟩ := @assemble_concat "/" (fileName p) _ (.inr rfl) hcs
  rw [← components_eq_concat hne, h.eq] at hb
  exact (congrArg (Text.afterLast '/') hb).trans (Text.afterLast_append (noSlash_fileName p) b)

/-- The point that stands before an extension. -/
def isDot (c : Point) : Bool := decide (c = Point.ofChar '.')

/-- The last component of the path consists of full stops and `e`. -/
def isDotted (e p : Text) : Bool := decide ((fileName p).dropWhile isDot = e)

theorem dropWhile_isDot_append (a e : Text) (he : e.head? ≠ some (Point.ofChar '.')) :
    (a ++ Point.ofChar '.' :: e).dropWhile isDot = e ↔ a.all isDot = true := by
  induction a with
  | nil =>
    cases e with
    | nil => simp [isDot]
    | cons c e =>
      have hc : c ≠ Point.ofChar '.' := fun h => he (by rw [h]; rfl)
      simp [isDot, hc]
  | cons c a ih =>
    rw [List.cons_append, List.dropWhile_cons, List.all_cons]
    by_cases hc : isDot c = true
    · rw [if_pos hc, ih, hc, Bool.true_and]
    · rw [if_neg hc]
      refine iff_of_false (fun h => ?_) (by simp [hc])
      have hlen := congrArg List.length h
      rw [List.length_cons, List.length_append, List.length_cons] at hlen
      omega

/-- **Which last components have an extension**: they end with it and have more than full stops
before it. -/
theorem extension_eq_iff (he : Point.ofChar '.' ∉ e) (hne : e ≠ []) :
    extension p = Point.ofChar '.' :: e ↔
      (Text.afterLast '/' p).endsWith (Point.ofChar '.' :: e) = true ∧
        (Text.afterLast '/' p).dropWhile isDot ≠ e := by
  have hhead : e.head? ≠ some (Point.ofChar '.') := fun h => he (List.mem_of_head? h)
  unfold extension
  generalize Text.afterLast '/' p = n
  cases hc : Text.cutLast? '.' n with
  | none =>
    refine iff_of_false (by simp) fun h => ?_
    obtain ⟨a, rfl⟩ := Text.endsWith_iff.1 h.1
    exact Text.cutLast?_eq_none.1 hc (by simp)
  | some ab =>
    obtain ⟨a, b⟩ := ab
    obtain ⟨rfl, hb⟩ := Text.cutLast?_eq_some.1 hc
    have hends : Text.endsWith (a ++ Point.ofChar '.' :: b) (Point.ofChar '.' :: e) = true ↔
        b = e := by
      rw [Text.endsWith_iff]
      refine ⟨fun ⟨g, hg⟩ => ?_, fun h => h ▸ List.suffix_append a _⟩
      have hcut := Text.cutLast?_append he g
      rw [hg, hc, Option.some.injEq, Prod.mk.injEq] at hcut
      exact hcut.2
    rw [hends]
    dsimp only
    by_cases hbe : b = e
    · subst hbe
      rw [Ne, dropWhile_isDot_append a b hhead]
      show (if a.all isDot = true then [] else Point.ofChar '.' :: b) = _ ↔ _
      split <;> simp_all
    · refine iff_of_false (fun h => ?_) fun h => hbe h.1
      split at h
      · cases h
      · exact hbe (List.cons.inj h).2

end Path

end SourceAtlas
