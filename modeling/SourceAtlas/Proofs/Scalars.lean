import SourceAtlas.Proofs.Points
import SourceAtlas.FileTree

/-!
# Texts of files

What is read of a file is made of scalar values: strict UTF-8 has no octets for halves of surrogate
pairs. So every text that is read has octets again.

* `Utf8.stepTail_cons`, **`Utf8.isSurrogate_of_step`**: one point that is read;
* `Utf8.isScalar_of_decodeFrom`: all of them;
* **`FileTree.isScalar_of_readText`**: the text of a file.
-/

namespace SourceAtlas

namespace Utf8

variable {lead lo hi : UInt8} {bs : Bytes} {rs : List (UInt8 × UInt8)} {bits used more : Nat}
  {p : Point} {t : Text}

/-! ## One point -/

theorem stepTail_nil (h : stepTail bits used [] bs = .point p more) : p = Point.ofNat bits := by
  rw [stepTail, Step.point.injEq] at h
  exact h.1.symm

/-- One more octet of a point lies in its range. -/
theorem stepTail_cons (h : stepTail bits used ((lo, hi) :: rs) bs = .point p more) :
    ∃ (b : UInt8) (bs' : Bytes), (lo.toNat ≤ b.toNat ∧ b.toNat ≤ hi.toNat) ∧
      stepTail (bits * 64 + b.toNat % 64) (used + 1) rs bs' = .point p more := by
  cases bs with
  | nil => cases h
  | cons b bs =>
    rw [stepTail] at h
    split at h
    · rename_i hb
      rw [Bool.and_eq_true, decide_eq_true_iff, decide_eq_true_iff] at hb
      exact ⟨b, bs, hb, h⟩
    · cases h

theorem isSurrogate_ofNat {n : Nat} (h : n < 0xD800 ∨ 0xE000 ≤ n ∧ n < 0x110000) :
    (Point.ofNat n).isSurrogate = false := by
  have hn : n < 0x110000 := by omega
  rw [Point.isSurrogate, Point.toNat_ofNat hn, ← Bool.not_eq_true]
  simp only [Bool.and_eq_true, decide_eq_true_iff]
  omega

/-- The octets after a lead octet, by their count: which ranges they have, and which bits the lead
octet contributes. -/
theorem tailRanges_cases (h : tailRanges lead = some rs) :
    rs = [] ∧ leadBits lead < 0x80 ∨
      rs = [(0x80, 0xBF)] ∧ leadBits lead < 0x20 ∨
      (∃ lo hi : UInt8, rs = [(lo, hi), (0x80, 0xBF)] ∧ leadBits lead < 0x10 ∧ 0x80 ≤ lo.toNat ∧
        hi.toNat ≤ 0xBF ∧ (leadBits lead = 13 → hi.toNat ≤ 0x9F)) ∨
      ∃ lo hi : UInt8, rs = [(lo, hi), (0x80, 0xBF), (0x80, 0xBF)] ∧ 0x80 ≤ lo.toNat ∧
        hi.toNat ≤ 0xBF ∧ (leadBits lead = 0 → 0x90 ≤ lo.toNat) ∧
        (leadBits lead = 4 → hi.toNat ≤ 0x8F) ∧ leadBits lead ≤ 4 := by
  have hbits : (lead.toNat < 0x80 → leadBits lead = lead.toNat) ∧
      (0x80 ≤ lead.toNat ∧ lead.toNat < 0xE0 → leadBits lead = lead.toNat % 32) ∧
      (0xE0 ≤ lead.toNat ∧ lead.toNat < 0xF0 → leadBits lead = lead.toNat % 16) ∧
      (0xF0 ≤ lead.toNat → leadBits lead = lead.toNat % 8) := by
    unfold leadBits
    simp only [UInt8.lt_iff_toNat_lt, UInt8.reduceToNat]
    grind
  unfold tailRanges at h
  simp only [UInt8.lt_iff_toNat_lt, ← UInt8.toNat_inj, UInt8.reduceToNat] at h
  split at h
  · cases h
    exact .inl ⟨rfl, by omega⟩
  split at h
  · cases h
  split at h
  · cases h
    exact .inr (.inl ⟨rfl, by omega⟩)
  split at h
  · cases h
    exact .inr (.inr (.inl ⟨_, _, rfl, by simp; omega⟩))
  split at h
  · cases h
    exact .inr (.inr (.inl ⟨_, _, rfl, by simp; omega⟩))
  split at h
  · cases h
    exact .inr (.inr (.inl ⟨_, _, rfl, by simp; omega⟩))
  split at h
  · cases h
    exact .inr (.inr (.inr ⟨_, _, rfl, by simp; omega⟩))
  split at h
  · cases h
    exact .inr (.inr (.inr ⟨_, _, rfl, by simp; omega⟩))
  split at h
  · cases h
    exact .inr (.inr (.inr ⟨_, _, rfl, by simp; omega⟩))
  · cases h

/-- **No point that is read is half of a pair.** The ranges leave out the numbers of such halves,
and those beyond the last point. -/
theorem isSurrogate_of_step (h : step lead bs = .point p more) : p.isSurrogate = false := by
  unfold step at h
  cases hr : tailRanges lead with
  | none =>
    rw [hr] at h
    cases h
  | some rs =>
    rw [hr] at h
    dsimp only at h
    rcases tailRanges_cases hr with ⟨rfl, hl⟩ | ⟨rfl, hl⟩ | ⟨lo, hi, rfl, hl⟩ | ⟨lo, hi, rfl, hl⟩
    · rw [stepTail_nil h]
      exact isSurrogate_ofNat (by omega)
    · obtain ⟨b, _, hb, h⟩ := stepTail_cons h
      rw [stepTail_nil h]
      exact isSurrogate_ofNat (by omega)
    · obtain ⟨b, _, hb, h⟩ := stepTail_cons h
      obtain ⟨c, _, hc, h⟩ := stepTail_cons h
      rw [stepTail_nil h]
      exact isSurrogate_ofNat (by omega)
    · obtain ⟨b, _, hb, h⟩ := stepTail_cons h
      obtain ⟨c, _, hc, h⟩ := stepTail_cons h
      obtain ⟨d, _, hd, h⟩ := stepTail_cons h
      rw [stepTail_nil h]
      exact isSurrogate_ofNat (by omega)

/-! ## Texts -/

theorem isScalar_of_decodeFrom {pos : Nat} (h : decodeFrom pos bs = .ok t) : t.isScalar = true := by
  fun_induction decodeFrom pos bs generalizing t with
  | case1 pos =>
    cases h
    rfl
  | case2 pos b bs p more hstep ih =>
    cases hd : decodeFrom (pos + more + 1) (bs.drop more) with
    | error fault =>
      rw [hd] at h
      cases h
    | ok u =>
      rw [hd] at h
      cases h
      rw [Text.isScalar, List.all_cons, isSurrogate_of_step hstep]
      exact ih hd
  | case3 => cases h

end Utf8

/-- Line ends are made of scalar values. -/
theorem Text.isScalar_normalizeNewlines {t : Text} (h : t.isScalar = true) :
    t.normalizeNewlines.isScalar = true := by
  have hnewline : (Point.ofChar '\n').isSurrogate = false := by decide
  have hcons : ∀ {p : Point} {u : Text}, Text.isScalar (p :: u) = true ↔
      p.isSurrogate = false ∧ Text.isScalar u = true := by
    intro p u
    rw [isScalar, List.all_cons, Bool.and_eq_true, Bool.not_eq_true']
    rfl
  fun_induction normalizeNewlines t with
  | case1 => rfl
  | case2 t ih => exact hcons.2 ⟨hnewline, ih (hcons.1 (hcons.1 h).2).2⟩
  | case3 d t _ ih => exact hcons.2 ⟨hnewline, ih (hcons.1 h).2⟩
  | case4 => rfl
  | case5 c t _ ih => exact hcons.2 ⟨(hcons.1 h).1, ih (hcons.1 h).2⟩

namespace FileTree

variable {t : FileTree} {path source : Text}

/-- What a text file that can be read holds. -/
theorem readText_eq_ok : t.readText path = .ok source ↔ ∃ content text,
    t.read path = .ok content ∧ Utf8.decode content = .ok text ∧
      source = text.normalizeNewlines := by
  unfold readText
  cases t.read path with
  | error fault => simp
  | ok content =>
    cases hd : Utf8.decode content with
    | error fault => simp [hd]
    | ok text => simp [hd, eq_comm]

theorem readText_eq_decoding {fault : Utf8.Fault} : t.readText path = .error (.decoding fault) ↔
    ∃ content, t.read path = .ok content ∧ Utf8.decode content = .error fault := by
  unfold readText
  cases t.read path with
  | error fault => simp
  | ok content => cases hd : Utf8.decode content <;> simp [hd]

/-- **The text of a file is made of scalar values.** -/
theorem isScalar_of_readText (h : t.readText path = .ok source) : source.isScalar = true := by
  obtain ⟨content, text, -, hd, rfl⟩ := readText_eq_ok.1 h
  exact Text.isScalar_normalizeNewlines (Utf8.isScalar_of_decodeFrom hd)

end FileTree

end SourceAtlas
