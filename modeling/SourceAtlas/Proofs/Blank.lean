import SourceAtlas.Proofs.Tidy

/-!
# White space around texts

* `Text.exists_trimStart`, `Text.exists_trimEnd`: a text, and the white space at its start or end;
* `Text.trimStart_append`, `Text.trimEnd_append`: white space that is put around a text goes;
* `Text.mem_trim`: what is not white space stays;
* `Text.isBlank_of_mem_head?_trim`, `Text.isBlank_of_mem_getLast?_trim`: a trimmed text neither starts
  nor ends with white space;
* **`Text.trim_trim`**: a text is trimmed once and for all.
-/

namespace SourceAtlas.Text

variable {c : Point} {t w : Text}

theorem not_mem_of_isBlank (hw : isBlank w = true) (hc : c.isBlank = false) : c ∉ w := by
  intro h
  have := List.all_eq_true.1 hw c h
  rw [hc] at this
  cases this

/-! ## White space at the start -/

theorem trimStart_append (hw : isBlank w = true) (t : Text) :
    trimStart (w ++ t) = trimStart t :=
  List.dropWhile_append_of_pos (List.all_eq_true.1 hw)

theorem trimStart_cons (hc : c.isBlank = false) (t : Text) : trimStart (c :: t) = c :: t :=
  List.dropWhile_cons_of_neg (by simp [hc])

/-- A text is white space and what starts otherwise. -/
theorem exists_trimStart (t : Text) : ∃ w, isBlank w = true ∧ t = w ++ trimStart t ∧
    ∀ c ∈ (trimStart t).head?, c.isBlank = false := by
  refine ⟨t.takeWhile Point.isBlank, List.all_takeWhile, ?_, fun c hc => ?_⟩
  · exact List.takeWhile_append_dropWhile.symm
  · have hhead := List.head?_dropWhile_not Point.isBlank t
    rw [trimStart, trimStartBy, Option.mem_def] at hc
    rw [hc] at hhead
    exact hhead

/-! ## White space at the end -/

theorem trimEnd_append (hw : isBlank w = true) (t : Text) : trimEnd (t ++ w) = trimEnd t := by
  have hreverse : isBlank w.reverse = true := by
    rw [isBlank, List.all_reverse]
    exact hw
  rw [trimEnd, trimEndBy, List.reverse_append]
  exact congrArg List.reverse (trimStart_append hreverse _)

theorem trimEnd_concat (hc : c.isBlank = false) (t : Text) : trimEnd (t ++ [c]) = t ++ [c] :=
  List.rdropWhile_concat_neg Point.isBlank t c (by simp [hc])

/-- A text is what ends otherwise, and white space. -/
theorem exists_trimEnd (t : Text) : ∃ w, isBlank w = true ∧ t = trimEnd t ++ w ∧
    ∀ c ∈ (trimEnd t).getLast?, c.isBlank = false := by
  obtain ⟨w, hw, ht, hhead⟩ := exists_trimStart t.reverse
  have htrim : trimEnd t = (trimStart t.reverse).reverse := rfl
  refine ⟨w.reverse, ?_, ?_, ?_⟩
  · rw [isBlank, List.all_reverse]
    exact hw
  · rw [← List.reverse_inj, List.reverse_append, List.reverse_reverse, htrim, List.reverse_reverse]
    exact ht
  · rw [htrim, List.getLast?_reverse]
    exact hhead

/-! ## White space at both ends -/

theorem trim_of_isBlank (hw : isBlank w = true) : trim w = [] := by
  have hstart := trimStart_append hw []
  rw [List.append_nil] at hstart
  rw [trim, hstart]
  rfl

/-- Points that are not white space stay. -/
theorem mem_trim (hc : c.isBlank = false) (t : Text) : c ∈ trim t ↔ c ∈ t := by
  obtain ⟨a, ha, hstart, -⟩ := exists_trimStart t
  obtain ⟨b, hb, hend, -⟩ := exists_trimEnd (trimStart t)
  have hat := not_mem_of_isBlank ha hc
  have hbt := not_mem_of_isBlank hb hc
  have hin : c ∈ t ↔ c ∈ trimStart t := by
    conv_lhs => rw [hstart]
    rw [List.mem_append, or_iff_right hat]
  rw [hin]
  conv_rhs => rw [hend]
  rw [List.mem_append, or_iff_left hbt]
  rfl

/-- A trimmed text does not start with white space. -/
theorem isBlank_of_mem_head?_trim (hc : c ∈ (trim t).head?) : c.isBlank = false := by
  obtain ⟨-, -, -, hhead⟩ := exists_trimStart t
  obtain ⟨w, -, hw, -⟩ := exists_trimEnd (trimStart t)
  refine hhead c ?_
  rw [hw, List.head?_append, Option.mem_def, Option.mem_def.1 (show c ∈ (trimEnd _).head? from hc)]
  rfl

/-- A trimmed text does not end with white space. -/
theorem isBlank_of_mem_getLast?_trim (hc : c ∈ (trim t).getLast?) : c.isBlank = false := by
  obtain ⟨-, -, -, hlast⟩ := exists_trimEnd (trimStart t)
  exact hlast c hc

/-- **A text is trimmed once and for all.** -/
theorem trim_trim (t : Text) : trim (trim t) = trim t := by
  have hstart : trimStart (trim t) = trim t := by
    cases h : trim t with
    | nil => rfl
    | cons c cs => exact trimStart_cons (isBlank_of_mem_head?_trim (t := t) (by rw [h]; rfl)) cs
  rw [trim, hstart]
  exact trimEnd_trimEnd (trimStart t)

end SourceAtlas.Text
