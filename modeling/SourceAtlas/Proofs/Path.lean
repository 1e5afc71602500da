import SourceAtlas.Path
import SourceAtlas.Proofs.Json.Strings

/-!
# Paths and their components

* `Text.exists_splitOn`: the pieces of a text stand in it, without the point at which it was split;
* `Path.endsWith_slash`, `Path.noSlash_of_tidy`: a tidy path with a last component does not end with
  a slash;
* `Text.HasNoPair.append`, `Text.HasNoPair.joinWith`: pairs do not arise across other points;
* **`Path.hasNoPair_normalize`**, **`Path.hasNoPair_join`**: nor do they in paths that are made from
  paths without them.
-/

namespace SourceAtlas

namespace Text

/-! ## Pieces -/

/-- The first piece stands at the start of the text, the others in it. -/
theorem exists_splitOn (c : Point) (t : Text) : ∃ l ls, splitOn c t = l :: ls ∧ l <+: t ∧
    (∀ m ∈ ls, m <:+: t) ∧ ∀ m ∈ l :: ls, c ∉ m := by
  induction t with
  | nil => exact ⟨[], [], rfl, List.prefix_rfl, by simp, by simp⟩
  | cons d t ih =>
    obtain ⟨l, ls, h, hl, hls, hc⟩ := ih
    have hcons : ∀ {m : Text}, m <:+: t → m <:+: d :: t := fun hm =>
      hm.trans (List.suffix_cons d t).isInfix
    rw [splitOn, h]
    split
    · refine ⟨[], l :: ls, rfl, List.nil_prefix, fun m hm => ?_, fun m hm => ?_⟩
      · rcases List.mem_cons.1 hm with rfl | hm
        · exact hcons hl.isInfix
        · exact hcons (hls m hm)
      · rcases List.mem_cons.1 hm with rfl | hm
        · exact List.not_mem_nil
        · exact hc m hm
    · rename_i hd
      refine ⟨d :: l, ls, rfl, List.cons_prefix_cons.2 ⟨rfl, hl⟩, fun m hm => hcons (hls m hm), ?_⟩
      intro m hm
      rcases List.mem_cons.1 hm with rfl | hm
      · rw [List.mem_cons, not_or]
        exact ⟨Ne.symm hd, hc l List.mem_cons_self⟩
      · exact hc m (List.mem_cons_of_mem l hm)

theorem infix_of_mem_splitOn {c : Point} {t l : Text} (h : l ∈ splitOn c t) : l <:+: t := by
  obtain ⟨m, ls, hs, hm, hls, -⟩ := exists_splitOn c t
  rw [hs] at h
  rcases List.mem_cons.1 h with rfl | h
  · exact hm.isInfix
  · exact hls l h

theorem not_mem_of_mem_splitOn {c : Point} {t l : Text} (h : l ∈ splitOn c t) : c ∉ l := by
  obtain ⟨m, ls, hs, -, -, hc⟩ := exists_splitOn c t
  exact hc l (hs ▸ h)

theorem joinWith_cons_cons (sep t u : Text) (ts : List Text) :
    joinWith sep (t :: u :: ts) = t ++ sep ++ joinWith sep (u :: ts) := rfl

/-- Joined pieces end as the last piece does. -/
theorem getLast?_joinWith {sep : Text} {ts : List Text} (h : ∀ t ∈ ts, t ≠ []) (hne : ts ≠ []) :
    ∃ t ∈ ts, (joinWith sep ts).getLast? = t.getLast? := by
  induction ts with
  | nil => exact absurd rfl hne
  | cons t ts ih =>
    cases ts with
    | nil => exact ⟨t, List.mem_cons_self, rfl⟩
    | cons u ts =>
      obtain ⟨w, hw, he⟩ := ih (fun v hv => h v (List.mem_cons_of_mem t hv)) (List.cons_ne_nil u ts)
      have hsome : (joinWith sep (u :: ts)).getLast? ≠ none := by
        rw [he, Ne, List.getLast?_eq_none_iff]
        exact h w (List.mem_cons_of_mem t hw)
      refine ⟨w, List.mem_cons_of_mem t hw, ?_⟩
      rw [joinWith_cons_cons, List.getLast?_append, ← he]
      exact Option.or_of_isSome (Option.isSome_iff_ne_none.2 hsome)

/-! ## Pairs -/

namespace HasNoPair

variable {a b t : Text} {c : Point}

theorem of_infix (h : HasNoPair t) (ha : a <:+: t) : HasNoPair a := List.IsChain.infix h ha

/-- No pair arises where one side of the border is no half. -/
theorem append (ha : HasNoPair a) (hb : HasNoPair b)
    (h : (∀ p ∈ a.getLast?, IsWhole p) ∨ ∀ p ∈ b.head?, IsWhole p) : HasNoPair (a ++ b) := by
  refine List.isChain_append.2 ⟨ha, hb, fun p hp q hq => ?_⟩
  rcases h with h | h
  · rw [isPair, (h p hp).1, Bool.false_and]
  · rw [isPair, (h q hq).2, Bool.and_false]

theorem joinWith {ts : List Text} (hc : IsWhole c) (h : ∀ t ∈ ts, HasNoPair t) :
    HasNoPair (Text.joinWith [c] ts) := by
  induction ts with
  | nil => exact List.isChain_nil
  | cons t ts ih =>
    cases ts with
    | nil => exact h t List.mem_cons_self
    | cons u ts =>
      have ht : HasNoPair (t ++ [c]) :=
        (h t List.mem_cons_self).append (List.isChain_singleton c) (.inr (by simpa using hc))
      rw [joinWith_cons_cons]
      exact ht.append (ih fun v hv => h v (List.mem_cons_of_mem t hv)) (.inl (by simpa using hc))

end HasNoPair

end Text

namespace Path

variable {t a b : Text}

/-! ## Components -/

theorem mem_components {c : Text} (h : c ∈ components t) :
    c ≠ [] ∧ Point.ofChar '/' ∉ c ∧ c <:+: t := by
  obtain ⟨hs, hc⟩ := List.mem_filter.1 h
  have hne : c ≠ [] := by
    rintro rfl
    cases hc
  exact ⟨hne, Text.not_mem_of_mem_splitOn hs, Text.infix_of_mem_splitOn hs⟩

theorem components_ne_nil (h : fileName t ≠ []) : components t ≠ [] := by
  intro he
  rw [fileName, he] at h
  exact h rfl

theorem endsWith_slash (t : Text) :
    Text.endsWith t "/" = true ↔ t.getLast? = some (Point.ofChar '/') := by
  have h : ∀ r : Text, Text.startsWith r [Point.ofChar '/'] = true ↔
      r.head? = some (Point.ofChar '/') := by
    intro r
    cases r <;> simp [Text.startsWith]
  have := h t.reverse
  rwa [List.head?_reverse] at this

/-- A tidy path with a last component does not end with a slash. -/
theorem noSlash_of_tidy (ht : tidy t = t) (h : fileName t ≠ []) :
    Text.endsWith t "/" = false := by
  have hc := components_ne_nil h
  obtain ⟨c, hmem, hlast⟩ := @Text.getLast?_joinWith "/" (components t)
    (fun c hc => (mem_components hc).1) hc
  have hcons : (components t).isEmpty = false := by simpa using hc
  rw [← Bool.not_eq_true, endsWith_slash, ← ht, tidy, assemble, hcons, Bool.and_false,
    if_neg Bool.false_ne_true, List.getLast?_append, hlast, Option.or_of_isSome]
  · intro he
    exact (mem_components hmem).2.1 (List.mem_of_getLast? he)
  · exact List.getLast?_isSome.2 (mem_components hmem).1

theorem joinWith_ne_nil {sep : Text} {cs : List Text} (h : ∀ c ∈ cs, c ≠ []) (hne : cs ≠ []) :
    Text.joinWith sep cs ≠ [] := by
  obtain ⟨c, hc, hlast⟩ := Text.getLast?_joinWith h hne
  rw [← List.getLast?_isSome, hlast]
  exact List.getLast?_isSome.2 (h c hc)

theorem assemble_ne_nil {r : Text} {cs : List Text} (h : ∀ c ∈ cs, c ≠ []) : assemble r cs ≠ [] := by
  unfold assemble
  split
  · exact List.cons_ne_nil _ _
  · rename_i hne
    rw [Bool.and_eq_true, List.isEmpty_iff, List.isEmpty_iff, not_and] at hne
    intro he
    obtain ⟨hr, hj⟩ := List.append_eq_nil_iff.1 he
    exact joinWith_ne_nil h (hne hr) hj

theorem parent_ne_nil (t : Text) : parent t ≠ [] :=
  assemble_ne_nil fun _ hc => (mem_components (List.dropLast_subset _ hc)).1

/-! ## Pairs -/

theorem root_eq (t : Text) : root t = Text.ofString "//" ∨ root t = Text.ofString "/" ∨
    root t = [] := by
  unfold root
  split
  · exact .inl rfl
  · split
    · exact .inr (.inl rfl)
    · exact .inr (.inr rfl)

theorem root_of_ne_nil (h : root t ≠ []) :
    root t = Text.ofString "//" ∨ root t = Text.ofString "/" :=
  (root_eq t).imp_right fun hr => hr.resolve_right h

theorem mem_collapse {rooted : Bool} {kept rest : List Text} {c : Text}
    (h : c ∈ collapse rooted kept rest) : c ∈ kept ∨ c ∈ rest := by
  fun_induction collapse rooted kept rest with
  | case1 kept => exact .inl (List.mem_reverse.1 h)
  | case2 kept d cs hd ih =>
    have := ih h
    grind
  | case3 d cs hd ks ih =>
    have := ih h
    grind
  | case4 d cs hd k ks hk ih =>
    have := ih h
    grind
  | case5 d cs hd hr ih =>
    have := ih h
    grind
  | case6 d cs hd hr ih =>
    have := ih h
    grind

/-- **Normal paths have no pair** where the path has none. -/
theorem hasNoPair_normalize (h : t.HasNoPair) : (normalize t).HasNoPair := by
  have hc : ∀ c ∈ collapse (!(root t).isEmpty) [] (components t), Text.HasNoPair c := fun c hc =>
    h.of_infix (mem_components ((mem_collapse hc).resolve_left List.not_mem_nil)).2.2
  have hj := Text.HasNoPair.joinWith (Text.isWhole_ofChar '/') hc
  have hslash : ∀ p ∈ (root t).getLast?, Text.IsWhole p := by
    intro p hp
    rcases root_eq t with hr | hr | hr <;> rw [hr] at hp <;> cases hp <;>
      exact Text.isWhole_ofChar '/'
  have hroot : (root t).HasNoPair := by
    rcases root_eq t with hr | hr | hr <;> rw [hr]
    · exact Text.hasNoPair_ofString "//"
    · exact Text.hasNoPair_ofString "/"
    · exact List.isChain_nil
  unfold normalize assemble
  dsimp only
  split
  · exact Text.hasNoPair_ofString "."
  · exact hroot.append hj (.inl hslash)

/-- **Joined paths have no pair** where the paths have none. -/
theorem hasNoPair_join (ha : a.HasNoPair) (hb : b.HasNoPair) : (join a b).HasNoPair := by
  unfold join
  split
  · exact hb
  · split
    · rename_i h
      refine ha.append hb (.inl fun p hp => ?_)
      rw [Bool.or_eq_true, List.isEmpty_iff, endsWith_slash] at h
      rcases h with rfl | h
      · cases hp
      · rw [h] at hp
        cases hp
        exact Text.isWhole_ofChar '/'
    · have hs : (a ++ Text.ofString "/").HasNoPair :=
        ha.append (Text.hasNoPair_ofString "/") (.inr fun p hp => by
          cases hp
          exact Text.isWhole_ofChar '/')
      refine hs.append hb (.inl fun p hp => ?_)
      rw [List.getLast?_append] at hp
      cases hp
      exact Text.isWhole_ofChar '/'

end Path

end SourceAtlas
