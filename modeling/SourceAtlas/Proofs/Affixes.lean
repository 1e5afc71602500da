import SourceAtlas.Proofs.Places

/-!
# Starts and ends of texts

What a text starts and ends with, where its last occurrence of a point is, and what the pieces of
texts are that are put together.

* `Text.startsWith_iff`, `Text.endsWith_iff`, `Text.contains_iff`: starts, ends and parts as
  prefixes, suffixes and infixes;
* `Text.after?_eq_some`, `Text.before?_eq_some`, `Text.cut?_eq_some`: what is left when a start or an
  end is taken away, and what stands around the first occurrence of a point;
* `Text.cutLast?_eq_some`, `Text.afterLast_append`: the last occurrence of a point;
* `Text.joinWith_splitOn`: pieces joined again;
* **`Text.splitOn_append_eq`**: where two texts are put together, two pieces become one.
-/

namespace SourceAtlas.Text

variable {c : Point} {a b p t x y : Text} {xs ys : List Text}

/-! ## Starts and ends -/

theorem startsWith_iff : startsWith t p = true ↔ p <+: t := by
  induction p generalizing t with
  | nil => simp
  | cons d p ih =>
    cases t with
    | nil => simp [startsWith]
    | cons e t =>
      rw [startsWith_cons, Bool.and_eq_true, decide_eq_true_iff, ih, List.cons_prefix_cons, eq_comm]

theorem endsWith_iff : endsWith t p = true ↔ p <:+ t := by
  rw [endsWith, startsWith_iff, List.reverse_prefix]

theorem contains_iff : contains t p = true ↔ p <:+: t := by
  induction t with
  | nil => rw [contains, List.isEmpty_iff, List.infix_nil]
  | cons c t ih => rw [contains, Bool.or_eq_true, startsWith_iff, ih, List.infix_cons_iff]

theorem after?_eq_some : after? t p = some x ↔ t = p ++ x := by
  induction p generalizing t with
  | nil => cases t <;> simp [after?]
  | cons d p ih =>
    cases t with
    | nil => simp [after?]
    | cons e t =>
      rw [after?, List.cons_append, List.cons.injEq]
      split
      · rename_i h
        rw [ih, and_iff_right h]
      · rename_i h
        simp [h]

theorem before?_eq_some : before? t p = some x ↔ t = x ++ p := by
  have hrev : ∀ y : Text, y.reverse = x ↔ y = x.reverse := fun y => List.reverse_eq_iff
  rw [before?, Option.map_eq_some_iff]
  simp only [after?_eq_some, hrev, exists_eq_right, ← List.reverse_append, List.reverse_inj]

/-! ## The first occurrence of a point -/

theorem cut?_eq_none : cut? c t = none ↔ c ∉ t := by
  induction t with
  | nil => simp [cut?]
  | cons d t ih =>
    rw [List.mem_cons, not_or, cut?, ← ih]
    split
    · rename_i h
      simp [h]
    · rename_i h
      rw [Option.map_eq_none_iff, and_iff_right (Ne.symm h)]

theorem cut?_append (h : c ∉ a) (b : Text) : cut? c (a ++ c :: b) = some (a, b) := by
  induction a with
  | nil => rw [List.nil_append, cut?, if_pos rfl]
  | cons d a ih =>
    rw [List.mem_cons, not_or] at h
    rw [List.cons_append, cut?, if_neg (Ne.symm h.1), ih h.2]
    rfl

theorem cut?_eq_some : cut? c t = some (a, b) ↔ t = a ++ c :: b ∧ c ∉ a := by
  refine ⟨fun h => ?_, fun ⟨ht, ha⟩ => ht ▸ cut?_append ha b⟩
  induction t generalizing a with
  | nil => cases h
  | cons d t ih =>
    rw [cut?] at h
    split at h
    · rename_i hd
      cases h
      exact ⟨by rw [hd, List.nil_append], List.not_mem_nil⟩
    · rename_i hd
      obtain ⟨⟨a', b'⟩, h', he⟩ := Option.map_eq_some_iff.1 h
      cases he
      obtain ⟨rfl, ha⟩ := ih h'
      exact ⟨rfl, fun hm => (List.mem_cons.1 hm).elim (fun e => hd e.symm) ha⟩

/-! ## The last occurrence of a point -/

theorem cutLast?_eq_none : cutLast? c t = none ↔ c ∉ t := by
  induction t with
  | nil => simp [cutLast?]
  | cons d t ih =>
    rw [List.mem_cons, not_or, cutLast?, ← ih]
    cases cutLast? c t with
    | none => simp [eq_comm]
    | some ab => simp

theorem cutLast?_append (h : c ∉ b) (a : Text) : cutLast? c (a ++ c :: b) = some (a, b) := by
  induction a with
  | nil => rw [List.nil_append, cutLast?, cutLast?_eq_none.2 h, if_pos rfl]
  | cons d a ih => rw [List.cons_append, cutLast?, ih]

theorem cutLast?_eq_some : cutLast? c t = some (a, b) ↔ t = a ++ c :: b ∧ c ∉ b := by
  refine ⟨fun h => ?_, fun ⟨ht, hb⟩ => ht ▸ cutLast?_append hb a⟩
  induction t generalizing a with
  | nil => cases h
  | cons d t ih =>
    rw [cutLast?] at h
    cases hc : cutLast? c t with
    | some ab =>
      rw [hc, Option.some.injEq, Prod.mk.injEq] at h
      obtain ⟨rfl, rfl⟩ := h
      obtain ⟨ht, hb⟩ := ih hc
      exact ⟨congrArg (d :: ·) ht, hb⟩
    | none =>
      rw [hc] at h
      dsimp only at h
      split at h
      · rename_i hd
        cases h
        exact ⟨by rw [hd, List.nil_append], cutLast?_eq_none.1 hc⟩
      · cases h

theorem afterLast_append (h : c ∉ b) (a : Text) : afterLast c (a ++ c :: b) = b := by
  rw [afterLast, cutLast?_append h]

/-! ## Pieces -/

theorem splitOn_ne_nil (c : Point) (t : Text) : splitOn c t ≠ [] := by
  obtain ⟨l, ls, h, -⟩ := exists_splitOn c t
  rw [h]
  exact List.cons_ne_nil l ls

theorem joinWith_splitOn (c : Point) (t : Text) : joinWith [c] (splitOn c t) = t := by
  induction t with
  | nil => rfl
  | cons d t ih =>
    obtain ⟨l, ls, h, -⟩ := exists_splitOn c t
    rw [splitOn, h]
    rw [h] at ih
    split
    · rename_i hd
      rw [joinWith_cons_cons, ih, hd]
      rfl
    · cases ls with
      | nil => exact congrArg (d :: ·) ih
      | cons m ls => exact congrArg (d :: ·) ih

theorem joinWith_append_joinWith (sep x y : Text) (xs ys : List Text) :
    joinWith sep (xs ++ [x]) ++ joinWith sep (y :: ys) = joinWith sep (xs ++ (x ++ y) :: ys) := by
  induction xs with
  | nil =>
    cases ys with
    | nil => rfl
    | cons z ys =>
      rw [List.nil_append, List.nil_append, joinWith_cons_cons, joinWith_cons_cons, joinWith]
      simp only [List.append_assoc]
  | cons w xs ih =>
    obtain ⟨u, us, hu⟩ := List.exists_cons_of_ne_nil (show xs ++ [x] ≠ [] by simp)
    obtain ⟨v, vs, hv⟩ := List.exists_cons_of_ne_nil (show xs ++ (x ++ y) :: ys ≠ [] by simp)
    rw [List.cons_append, List.cons_append, hu, hv, joinWith_cons_cons, joinWith_cons_cons,
      List.append_assoc, ← hu, ih, hv]

/-- **Where two texts are put together**, the last piece of the one and the first of the other
become one piece. -/
theorem splitOn_append_eq (ha : splitOn c a = xs ++ [x]) (hb : splitOn c b = y :: ys) :
    splitOn c (a ++ b) = xs ++ (x ++ y) :: ys := by
  have hpieces : ∀ z ∈ xs ++ (x ++ y) :: ys, c ∉ z := by
    have hxs : ∀ z ∈ xs ++ [x], c ∉ z := fun z hz => not_mem_of_mem_splitOn (t := a) (ha ▸ hz)
    have hys : ∀ z ∈ y :: ys, c ∉ z := fun z hz => not_mem_of_mem_splitOn (t := b) (hb ▸ hz)
    intro z hz
    rcases List.mem_append.1 hz with hz | hz
    · exact hxs z (List.mem_append_left [x] hz)
    · rcases List.mem_cons.1 hz with rfl | hz
      · rw [List.mem_append, not_or]
        exact ⟨hxs x (by simp), hys y List.mem_cons_self⟩
      · exact hys z (List.mem_cons_of_mem y hz)
  rw [← splitOn_joinWith (by simp) hpieces, ← joinWith_append_joinWith, ← ha, ← hb,
    joinWith_splitOn, joinWith_splitOn]

end SourceAtlas.Text
