import Mathlib.Data.List.DropRight
import SourceAtlas.Proofs.Path
import SourceAtlas.Text.Tidy

/-!
# The lines of tidy texts

A tidy text has the lines of the text that it comes from: without white space at their ends, and
with one blank line where there were some between two others.

* `Text.IsLine`, `Text.lines_joinWith`: lines that are joined by line feeds, cut again;
* `Text.isBlank`, `Text.blanksBefore`: blank lines, and how many there are before each other one;
* `Text.tidyLines_of_isBlank`, `Text.tidyLines_of_line`: the two steps from line to line;
* `Text.blanksFrom_tidyLines`, `Text.tidyLines_tidyLines`: blank lines that are left, and a second
  time over;
* **`Text.lines_tidy`**: what becomes of the lines of a text.
-/

namespace SourceAtlas.Text

variable {c : Point} {l t : Text} {ls : List Text} {pending seen : Bool}

/-! ## Lines -/

/-- No point of the text ends a line. -/
def IsLine (l : Text) : Prop := ∀ c ∈ l, Point.endsLine c = false

/-- What is added to the first line. -/
theorem lines_cons (hc : c.endsLine = false) (t : Text) :
    lines (c :: t) = (c :: (lines t).headD []) :: (lines t).tail := by
  have hr : c ≠ Point.ofChar '\r' := by
    rintro rfl
    cases hc
  rw [lines.eq_def]
  dsimp only
  rw [if_neg hr, if_neg (by simp [hc])]
  cases lines t <;> rfl

/-- A point that ends a line by itself. -/
theorem lines_end (hc : c.endsLine = true) (hr : c ≠ Point.ofChar '\r') (t : Text) :
    lines (c :: t) = [] :: lines t := by
  rw [lines.eq_def]
  dsimp only
  rw [if_neg hr, if_pos hc]

theorem lines_newline (t : Text) : lines (Point.ofChar '\n' :: t) = [] :: lines t :=
  lines_end (by decide) (by decide) t

theorem lines_append_newline (hl : IsLine l) (t : Text) :
    lines (l ++ Point.ofChar '\n' :: t) = l :: lines t := by
  induction l with
  | nil => exact lines_newline t
  | cons c l ih =>
    obtain ⟨hc, hl⟩ := List.forall_mem_cons.1 hl
    rw [List.cons_append, lines_cons hc, ih hl]
    rfl

theorem lines_of_isLine (hl : IsLine l) (hne : l ≠ []) : lines l = [l] := by
  induction l with
  | nil => exact absurd rfl hne
  | cons c l ih =>
    obtain ⟨hc, hl⟩ := List.forall_mem_cons.1 hl
    rw [lines_cons hc]
    cases l with
    | nil => rfl
    | cons d l =>
      rw [ih hl (List.cons_ne_nil d l)]
      rfl

/-- **Lines that are joined are cut again**, if the last one is not empty. -/
theorem lines_joinWith (h : ∀ l ∈ ls, IsLine l) (hlast : ls.getLast? ≠ some []) :
    lines (joinWith "\n" ls) = ls := by
  induction ls with
  | nil => rfl
  | cons l ls ih =>
    obtain ⟨hl, hls⟩ := List.forall_mem_cons.1 h
    cases ls with
    | nil =>
      refine lines_of_isLine hl ?_
      rintro rfl
      exact hlast rfl
    | cons m ls =>
      rw [joinWith_cons_cons, List.append_assoc]
      show lines (l ++ Point.ofChar '\n' :: joinWith "\n" (m :: ls)) = _
      rw [lines_append_newline hl, ih hls hlast]

/-- The lines of a text are lines. -/
theorem isLine_of_mem_lines (h : l ∈ lines t) : IsLine l := by
  have hnil : IsLine [] := fun _ hc => absurd hc List.not_mem_nil
  fun_induction lines t generalizing l with
  | case1 => cases h
  | case2 t ih => exact (List.mem_cons.1 h).elim (fun he => he ▸ hnil) ih
  | case3 d t _ ih => exact (List.mem_cons.1 h).elim (fun he => he ▸ hnil) ih
  | case4 => exact List.mem_singleton.1 h ▸ hnil
  | case5 c t _ _ ih => exact (List.mem_cons.1 h).elim (fun he => he ▸ hnil) ih
  | case6 c t _ hc hlines ih =>
    rw [List.mem_singleton.1 h]
    exact List.forall_mem_singleton.2 (by simpa using hc)
  | case7 c t _ hc m ms hlines ih =>
    rw [hlines] at ih
    rcases List.mem_cons.1 h with rfl | h
    · exact List.forall_mem_cons.2 ⟨by simpa using hc, ih List.mem_cons_self⟩
    · exact ih (List.mem_cons_of_mem m h)

/-! ## Blank lines -/

/-- The line is empty or white space. -/
def isBlank (l : Text) : Bool := l.all Point.isBlank

/-- `blanksBefore`, where `n` blank lines stand before the first line. -/
def blanksFrom : (n : Nat) → List Text → List Nat
  | _, [] => []
  | n, l :: ls => if isBlank l then blanksFrom (n + 1) ls else n :: blanksFrom 0 ls

/-- The number of blank lines right before each line that is not blank. -/
def blanksBefore (ls : List Text) : List Nat := blanksFrom 0 ls

theorem trimEnd_eq_nil_iff : trimEnd l = [] ↔ isBlank l = true := by
  rw [isBlank, List.all_eq_true]
  exact List.rdropWhile_eq_nil_iff

theorem trimEnd_trimEnd (l : Text) : trimEnd (trimEnd l) = trimEnd l :=
  List.rdropWhile_idempotent Point.isBlank l

theorem isBlank_trimEnd (l : Text) : isBlank (trimEnd l) = isBlank l := by
  rw [Bool.eq_iff_iff, ← trimEnd_eq_nil_iff, ← trimEnd_eq_nil_iff, trimEnd_trimEnd]

theorem IsLine.trimEnd (h : IsLine l) : IsLine (trimEnd l) := fun _ hc =>
  h _ ((List.rdropWhile_prefix Point.isBlank l).subset hc)

/-! ## From line to line -/

theorem tidyLines_of_isBlank (h : isBlank l = true) :
    tidyLines pending seen (l :: ls) = tidyLines true seen ls := by
  rw [tidyLines, trimEnd_eq_nil_iff.2 h]
  rfl

/-- The blank line that stands for those before a line that is kept. -/
def separator (pending seen : Bool) : List Text := if pending && seen then [[]] else []

theorem tidyLines_of_line (h : isBlank l = false) : tidyLines pending seen (l :: ls) =
    separator pending seen ++ trimEnd l :: tidyLines false true ls := by
  have hne : (trimEnd l).isEmpty = false := by
    rw [List.isEmpty_eq_false_iff, Ne, trimEnd_eq_nil_iff, h]
    exact Bool.false_ne_true
  rw [tidyLines, separator]
  simp only [hne, if_neg Bool.false_ne_true]
  split <;> rfl

/-! ## The lines that are kept -/

theorem mem_tidyLines (h : l ∈ tidyLines pending seen ls) : trimEnd l = l ∧
    ((∀ m ∈ ls, IsLine m) → IsLine l) := by
  induction ls generalizing pending seen with
  | nil => cases h
  | cons m ls ih =>
    cases hm : isBlank m with
    | true =>
      rw [tidyLines_of_isBlank hm] at h
      exact (ih h).imp_right fun hl hls => hl (List.forall_mem_cons.1 hls).2
    | false =>
      rw [tidyLines_of_line hm, List.mem_append, List.mem_cons] at h
      rcases h with h | rfl | h
      · have hnil : l = [] := by
          unfold separator at h
          split at h <;> simp_all
        exact hnil ▸ ⟨rfl, fun _ _ hc => absurd hc List.not_mem_nil⟩
      · exact ⟨trimEnd_trimEnd m, fun hls => (List.forall_mem_cons.1 hls).1.trimEnd⟩
      · exact (ih h).imp_right fun hl hls => hl (List.forall_mem_cons.1 hls).2

theorem filter_tidyLines (pending seen : Bool) (ls : List Text) :
    (tidyLines pending seen ls).filter (fun l => !isBlank l) =
      (ls.filter fun l => !isBlank l).map trimEnd := by
  have hseparator : ∀ p s, (separator p s).filter (fun l => !isBlank l) = [] := by decide
  induction ls generalizing pending seen with
  | nil => rfl
  | cons l ls ih =>
    cases hl : isBlank l with
    | true => rw [tidyLines_of_isBlank hl, ih, List.filter_cons_of_neg (by simp [hl])]
    | false =>
      rw [tidyLines_of_line hl, List.filter_append, hseparator, List.nil_append,
        List.filter_cons_of_pos (by simp [isBlank_trimEnd, hl]),
        List.filter_cons_of_pos (by simp [hl]), ih, List.map_cons]

/-- **The blank lines that are left**, behind a line that is kept: one of several. -/
theorem blanksFrom_tidyLines (n : Nat) (ls : List Text) :
    blanksFrom 0 (tidyLines (decide (0 < n)) true ls) = (blanksFrom n ls).map (min 1) := by
  induction ls generalizing n with
  | nil => rfl
  | cons l ls ih =>
    cases hl : isBlank l with
    | true =>
      have := ih (n + 1)
      rw [tidyLines_of_isBlank hl, blanksFrom, if_pos hl, ← this]
      simp
    | false =>
      have hrest : blanksFrom 0 (tidyLines false true ls) = (blanksFrom 0 ls).map (min 1) := ih 0
      have hline : isBlank (trimEnd l) = false := (isBlank_trimEnd l).trans hl
      rw [tidyLines_of_line hl, blanksFrom, if_neg (by simp [hl]), List.map_cons, ← hrest]
      by_cases hn : 0 < n
      · have hmin : min 1 n = 1 := by omega
        have hnil : isBlank [] = true := rfl
        simp [separator, hn, blanksFrom, hnil, hline, hmin]
      · have hmin : min 1 n = 0 := by omega
        simp [separator, hn, blanksFrom, hline, hmin]

/-- Before the first line that is kept nothing is left. -/
theorem tail_blanksBefore_tidyLines (ls : List Text) (pending : Bool) (n : Nat) :
    (blanksBefore (tidyLines pending false ls)).tail = (blanksFrom n ls).tail.map (min 1) := by
  induction ls generalizing pending n with
  | nil => rfl
  | cons l ls ih =>
    cases hl : isBlank l with
    | true => rw [tidyLines_of_isBlank hl, blanksFrom, if_pos hl, ih]
    | false =>
      have hline : isBlank (trimEnd l) = false := (isBlank_trimEnd l).trans hl
      rw [tidyLines_of_line hl, blanksFrom, if_neg (by simp [hl]), List.tail_cons,
        ← blanksFrom_tidyLines 0 ls]
      simp [separator, blanksBefore, blanksFrom, hline]

theorem head_tidyLines (h : l ∈ (tidyLines pending false ls).head?) : isBlank l = false := by
  induction ls generalizing pending with
  | nil => cases h
  | cons m ls ih =>
    cases hm : isBlank m with
    | true => exact ih (tidyLines_of_isBlank hm ▸ h)
    | false =>
      rw [tidyLines_of_line hm, separator, Bool.and_false] at h
      cases h
      exact (isBlank_trimEnd m).trans hm

theorem getLast_tidyLines (h : l ∈ (tidyLines pending seen ls).getLast?) :
    isBlank l = false := by
  induction ls generalizing pending seen with
  | nil => cases h
  | cons m ls ih =>
    cases hm : isBlank m with
    | true => exact ih (tidyLines_of_isBlank hm ▸ h)
    | false =>
      rw [tidyLines_of_line hm, List.getLast?_append, List.getLast?_cons] at h
      cases hr : (tidyLines false true ls).getLast? with
      | none =>
        rw [hr] at h
        cases h
        exact (isBlank_trimEnd m).trans hm
      | some r =>
        rw [hr] at h
        cases h
        exact ih hr

/-- **Lines that were kept are kept** a second time. -/
theorem tidyLines_tidyLines (pending seen : Bool) (ls : List Text) :
    tidyLines false seen (tidyLines pending seen ls) = tidyLines pending seen ls := by
  have hnil : isBlank [] = true := rfl
  induction ls generalizing pending seen with
  | nil => rfl
  | cons l ls ih =>
    cases hl : isBlank l with
    | true => rw [tidyLines_of_isBlank hl, ih]
    | false =>
      have hline : isBlank (trimEnd l) = false := (isBlank_trimEnd l).trans hl
      rw [tidyLines_of_line hl]
      cases hp : pending && seen with
      | false =>
        rw [separator, hp, if_neg Bool.false_ne_true, List.nil_append, tidyLines_of_line hline,
          trimEnd_trimEnd, ih]
        rfl
      | true =>
        have hs : seen = true := (Bool.and_eq_true_iff.1 hp).2
        rw [separator, hp, if_pos rfl, List.singleton_append, tidyLines_of_isBlank hnil,
          tidyLines_of_line hline, trimEnd_trimEnd, ih, hs]
        rfl

/-! ## Tidy texts -/

theorem lines_tidy_eq (t : Text) : lines (tidy t) = tidyLines false false (lines t) := by
  refine lines_joinWith (fun l hl => ?_) fun he => ?_
  · exact (mem_tidyLines hl).2 fun m hm => isLine_of_mem_lines hm
  · have hblank : isBlank [] = false := getLast_tidyLines he
    cases hblank

/-- **What becomes of the lines of a text.** Those that are not blank stay, without white space at
their ends; between two of them there is one blank line if there were some, and none otherwise; no
blank line stands first or last; the lines are joined by line feeds; and a tidy text is tidy. -/
theorem lines_tidy (t : Text) :
    (lines (tidy t)).filter (fun l => !isBlank l) =
        ((lines t).filter fun l => !isBlank l).map trimEnd ∧
      (blanksBefore (lines (tidy t))).tail = (blanksBefore (lines t)).tail.map (min 1) ∧
      (∀ l ∈ (lines (tidy t)).head?, isBlank l = false) ∧
      (∀ l ∈ (lines (tidy t)).getLast?, isBlank l = false) ∧
      (∀ l ∈ lines (tidy t), trimEnd l = l) ∧
      tidy t = joinWith "\n" (lines (tidy t)) ∧
      tidy (tidy t) = tidy t := by
  have hjoin : tidy t = joinWith "\n" (lines (tidy t)) := by rw [lines_tidy_eq, tidy]
  have htwice : tidy (tidy t) = tidy t := by
    rw [tidy, lines_tidy_eq, tidyLines_tidyLines, ← lines_tidy_eq, ← hjoin]
  rw [lines_tidy_eq] at *
  exact ⟨filter_tidyLines _ _ _, tail_blanksBefore_tidyLines _ _ _, fun _ => head_tidyLines,
    fun _ => getLast_tidyLines, fun _ hl => (mem_tidyLines hl).1, hjoin, htwice⟩

-- The vertical tab and the next line end lines, and they are blank.
example : tidy "\n a \x0b\x0b\u0085b\t\n \n" = Text.ofString " a\n\nb" := by cbv

end SourceAtlas.Text
