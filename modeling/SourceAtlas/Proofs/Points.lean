import Mathlib.Logic.Function.Basic
import SourceAtlas.Text.Basic

/-!
# Points of characters

* `Point.ofChar_inj`, `Point.isDigit_ofChar`: a point behaves as its character does;
* `Text.after?_of_ne`: a text that starts otherwise;
* `Text.le_trans`, `Text.le_total`, `Text.le_append_left`: the order of texts;
* `Text.pairwise_sorted`: texts in this order.
-/

namespace SourceAtlas

namespace Point

@[simp]
theorem toNat_ofChar (c : Char) : (ofChar c).toNat = c.toNat := rfl

theorem toNat_injective : Function.Injective toNat := by
  rintro ⟨m, _⟩ ⟨n, _⟩ rfl
  rfl

@[simp]
theorem ofNat_toNat (p : Point) : ofNat p.toNat = p := dif_pos p.isLt

theorem toNat_ofNat {n : Nat} (h : n < 0x110000) : (ofNat n).toNat = n := by
  rw [ofNat, dif_pos h]

@[simp]
theorem ofChar_inj {c d : Char} : ofChar c = ofChar d ↔ c = d :=
  ⟨fun h => Char.toNat_inj.1 (congrArg toNat h), congrArg ofChar⟩

@[simp]
theorem isDigit_ofChar (c : Char) : (ofChar c).isDigit = c.isDigit := by
  rw [Bool.eq_iff_iff, Char.isDigit_iff_toNat, isDigit, Bool.and_eq_true, decide_eq_true_iff,
    decide_eq_true_iff]
  rfl

end Point

namespace Text

theorem after?_of_ne {c d : Point} {t p : Text} (h : c ≠ d) : after? (c :: t) (d :: p) = none := by
  rw [after?, if_neg h]

/-! ## Order -/

variable {a b c : Text}

theorem le_trans (h : le a b = true) (h' : le b c = true) : le a c = true := by
  induction a generalizing b c with
  | nil => rw [le]
  | cons p a ih =>
    cases b with
    | nil => cases h
    | cons q b =>
      cases c with
      | nil => cases h'
      | cons r c =>
        simp only [le, Bool.or_eq_true, Bool.and_eq_true, decide_eq_true_eq] at h h' ⊢
        rcases h with h | ⟨rfl, h⟩
        · rcases h' with h' | ⟨rfl, h'⟩
          · exact .inl (Nat.lt_trans h h')
          · exact .inl h
        · rcases h' with h' | ⟨rfl, h'⟩
          · exact .inl h'
          · exact .inr ⟨rfl, ih h h'⟩

theorem le_total (a b : Text) : le a b = true ∨ le b a = true := by
  induction a generalizing b with
  | nil => exact .inl (by rw [le])
  | cons p a ih =>
    cases b with
    | nil => exact .inr (by rw [le])
    | cons q b =>
      simp only [le, Bool.or_eq_true, Bool.and_eq_true, decide_eq_true_eq]
      rcases Nat.lt_trichotomy p.toNat q.toNat with h | h | h
      · exact .inl (.inl h)
      · obtain rfl := Point.toNat_injective h
        rcases ih b with h | h
        · exact .inl (.inr ⟨rfl, h⟩)
        · exact .inr (.inr ⟨rfl, h⟩)
      · exact .inr (.inl h)

theorem le_append_left (p a b : Text) : le (p ++ a) (p ++ b) = le a b := by
  induction p with
  | nil => rfl
  | cons c p ih => rw [List.cons_append, List.cons_append, le, ih]; simp

theorem pairwise_sorted (ts : List Text) : (sorted ts).Pairwise fun a b => le a b = true :=
  @List.pairwise_mergeSort _ le (fun _ _ _ h h' => le_trans h h')
    (fun a b => by rw [Bool.or_eq_true]; exact le_total a b) ts

end Text

end SourceAtlas
