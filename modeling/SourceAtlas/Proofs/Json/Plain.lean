import SourceAtlas.Proofs.Json.Reread
import SourceAtlas.Text.Blank
import SourceAtlas.Text.Utf8

/-!
# The written form as octets

The written form of a value is ASCII without carriage returns, so that it is read from its octets as
it was written.

* `Text.IsPlain`: ASCII without carriage returns;
* `Utf8.decodeFrom_encode`, `Text.normalizeNewlines_of_isPlain`: such a text survives as octets;
* **`Json.isPlain_indentedAt`**: the written form is such a text.
-/

namespace SourceAtlas

namespace Text

/-- ASCII without carriage returns. -/
def IsPlain (t : Text) : Prop := ∀ c ∈ t, c.toNat < 0x80 ∧ c.toNat ≠ 13

instance (t : Text) : Decidable (IsPlain t) :=
  inferInstanceAs (Decidable (∀ c ∈ t, c.toNat < 0x80 ∧ c.toNat ≠ 13))

variable {t u : Text}

theorem IsPlain.nil : IsPlain [] := fun _ h => nomatch h

theorem isPlain_cons {c : Point} :
    IsPlain (c :: t) ↔ (c.toNat < 0x80 ∧ c.toNat ≠ 13) ∧ IsPlain t := List.forall_mem_cons

theorem isPlain_append : IsPlain (t ++ u) ↔ IsPlain t ∧ IsPlain u := List.forall_mem_append

theorem IsPlain.append (ht : IsPlain t) (hu : IsPlain u) : IsPlain (t ++ u) :=
  isPlain_append.2 ⟨ht, hu⟩

/-- A plain text is made of plain characters. -/
theorem isPlain_ofChars {ds : List Char} (h : ∀ d ∈ ds, d.toNat < 0x80 ∧ d.toNat ≠ 13) :
    IsPlain (ds.map Point.ofChar) := by
  intro c hc
  obtain ⟨d, hd, rfl⟩ := List.mem_map.1 hc
  exact h d hd

theorem isPlain_digits {ds : List Char} (h : ∀ d ∈ ds, d.isDigit = true) :
    IsPlain (ds.map Point.ofChar) := by
  refine isPlain_ofChars fun d hd => ?_
  have hd' : 48 ≤ d.toNat ∧ d.toNat ≤ 57 := Char.isDigit_iff_toNat.1 (h d hd)
  omega

theorem isPlain_joinWith {sep : Text} {ts : List Text} (hs : IsPlain sep)
    (ht : ∀ t ∈ ts, IsPlain t) : IsPlain (joinWith sep ts) := by
  match ts with
  | [] => exact .nil
  | [t] => exact ht t List.mem_cons_self
  | t :: u :: ts =>
    rw [joinWith]
    · exact ((ht t List.mem_cons_self).append hs).append
        (isPlain_joinWith hs fun v hv => ht v (List.mem_cons_of_mem t hv))
    · simp

theorem normalizeNewlines_of_isPlain (h : IsPlain t) : normalizeNewlines t = t := by
  induction t with
  | nil => rw [normalizeNewlines]
  | cons c t ih =>
    rw [isPlain_cons] at h
    have hc : c ≠ Point.ofChar '\r' := by
      rintro rfl
      exact h.1.2 rfl
    rw [normalizeNewlines.eq_def]
    simp only [hc, if_false, ih h.2]

end Text

/-! ## Octets -/

namespace Utf8

theorem step_of_lt {p : Point} (h : p.toNat < 0x80) (bs : Bytes) :
    step p.toNat.toUInt8 bs = .point p 0 := by
  have hlt : p.toNat.toUInt8 < 0x80 := by
    rw [UInt8.lt_iff_toNat_lt]
    simp
    omega
  have hbits : (p.toNat.toUInt8).toNat = p.toNat := by
    simp
    omega
  rw [step, tailRanges, if_pos hlt]
  simp only [leadBits, if_pos hlt, stepTail, hbits, Point.ofNat_toNat]

/-- **A plain text is read from its octets.** -/
theorem decodeFrom_encode {t : Text} (h : t.IsPlain) (pos : Nat) :
    decodeFrom pos (encode t) = .ok t := by
  induction t generalizing pos with
  | nil => rw [encode, List.flatMap_nil, decodeFrom]
  | cons c t ih =>
    rw [Text.isPlain_cons] at h
    have hc : encode (c :: t) = c.toNat.toUInt8 :: encode t := by
      rw [encode, List.flatMap_cons, encodePoint, if_pos h.1.1]
      rfl
    rw [hc, decodeFrom, step_of_lt h.1.1]
    simp only [List.drop_zero, ih h.2]
    rfl

end Utf8

/-! ## Written values -/

namespace Json

open Text (IsPlain isPlain_cons isPlain_append isPlain_digits)

theorem isPlain_toDigits (n : Nat) : IsPlain ((Nat.toDigits 10 n).map Point.ofChar) :=
  isPlain_digits fun _ hd => Nat.isDigit_of_mem_toDigits (by simp) (by simp) hd

theorem isPlain_ofInt (n : Int) : IsPlain (Text.ofInt n) := by
  cases n with
  | ofNat n => exact isPlain_toDigits n
  | negSucc n => exact isPlain_cons.2 ⟨by decide, isPlain_toDigits (n + 1)⟩

theorem isPlain_unitEscape {n : Nat} (h : n < 0x10000) : IsPlain (unitEscape n) := by
  have hhex : ∀ k < 16, (Reader.hexPoint k).toNat < 0x80 ∧ (Reader.hexPoint k).toNat ≠ 13 := by
    intro k hk
    interval_cases k <;> decide
  rw [← List.append_nil (unitEscape n), Reader.unitEscape_append h]
  simp only [isPlain_cons]
  exact ⟨by decide, by decide, hhex _ (by omega), hhex _ (by omega), hhex _ (by omega),
    hhex _ (by omega), .nil⟩

theorem isPlain_writePoint (p : Point) : IsPlain (writePoint p) := by
  have h := Reader.written_writePoint p
  generalize writePoint p = w at h ⊢
  cases h with
  | letter e he =>
    simp only [List.mem_cons, List.not_mem_nil, or_false] at he
    rcases he with rfl | rfl | rfl | rfl | rfl | rfl | rfl <;>
      exact isPlain_cons.2 ⟨by decide, isPlain_cons.2 ⟨by decide, .nil⟩⟩
  | plain _ _ hl hlt => exact isPlain_cons.2 ⟨⟨by omega, by omega⟩, .nil⟩
  | unit hn => exact isPlain_unitEscape hn
  | halves n m hn hm =>
    have := Text.isHigh_iff.1 hn
    have := Text.isLow_iff.1 hm
    exact (isPlain_unitEscape (by omega)).append (isPlain_unitEscape (by omega))

theorem isPlain_writeText (t : Text) : IsPlain (writeText t) := by
  rw [writeText_eq, isPlain_cons]
  refine ⟨by decide, IsPlain.append (fun c hc => ?_) (isPlain_cons.2 ⟨by decide, .nil⟩)⟩
  obtain ⟨p, -, hp⟩ := List.mem_flatMap.1 hc
  exact isPlain_writePoint p c hp

theorem isPlain_exponentText (e : Int) : IsPlain (Binary64.exponentText e) := by
  unfold Binary64.exponentText
  refine IsPlain.append ?_ (isPlain_digits fun d hd => ?_)
  · split <;> decide
  · have hdigit : ∀ d ∈ Nat.toDigits 10 e.natAbs, d.isDigit = true :=
      fun d h => Nat.isDigit_of_mem_toDigits (by simp) (by simp) h
    split at hd
    · rcases List.mem_cons.1 hd with rfl | hd
      · rfl
      · exact hdigit d hd
    · exact hdigit d hd

theorem isPlain_magnitudeText {ds : List Char} (h : ∀ d ∈ ds, d.isDigit = true) (point : Int) :
    IsPlain (Reader.magnitudeText ds point) := by
  have hds := isPlain_digits h
  have hzero : ∀ n : Nat, IsPlain (List.replicate n (Point.ofChar '0')) := by
    intro n c hc
    rw [List.eq_of_mem_replicate hc]
    decide
  have hpoint : IsPlain "." := by decide
  have hfront : IsPlain "0." := by decide
  have hback : IsPlain ".0" := by decide
  have htake : ∀ n, IsPlain ((ds.map Point.ofChar).take n) :=
    fun n c hc => hds c (List.mem_of_mem_take hc)
  have hdrop : ∀ n, IsPlain ((ds.map Point.ofChar).drop n) :=
    fun n c hc => hds c (List.mem_of_mem_drop hc)
  unfold Reader.magnitudeText Binary64.positional
  dsimp only
  split
  · split
    · exact (hfront.append (hzero _)).append hds
    · split
      · exact (hds.append (hzero _)).append hback
      · exact ((htake _).append hpoint).append (hdrop _)
  · refine IsPlain.append ?_ (isPlain_exponentText _)
    split
    · exact hds
    · exact ((htake 1).append hpoint).append (hdrop 1)

theorem isPlain_writeFloat (x : Binary64) : IsPlain (writeFloat x) := by
  cases x with
  | nan => decide
  | infinite negative => cases negative <;> decide
  | finite negative m q h =>
    have ht : writeFloat (.finite negative m q h) = Binary64.text (.finite negative m q h) := rfl
    rw [ht, Reader.text_finite]
    refine IsPlain.append ?_ ?_
    · split <;> decide
    · rcases Nat.eq_zero_or_pos m with rfl | hm
      · rw [if_pos rfl]
        decide
      · rw [if_neg (Nat.pos_iff_ne_zero.1 hm)]
        obtain ⟨c, ds, hds, -, hd, -⟩ := Shortest.digits_spec h hm
        rw [hds]
        exact isPlain_magnitudeText hd _

theorem isPlain_newline (depth : Nat) : IsPlain (newline depth) := by
  refine isPlain_cons.2 ⟨by decide, fun c hc => ?_⟩
  rw [List.eq_of_mem_replicate hc]
  decide

theorem isPlain_lastLine {α : Type} (depth : Nat) (items : List α) :
    IsPlain (if items = [] then [] else newline depth) := by
  split
  · exact .nil
  · exact isPlain_newline depth

/-- **The written form of a value is plain.** -/
theorem isPlain_indentedAt (v : Json) (depth : Nat) : IsPlain (indentedAt depth v) := by
  have hcomma : IsPlain "," := by decide
  have hcolon : IsPlain ": " := by decide
  have hnull : IsPlain "null" := by decide
  have htrue : IsPlain "true" := by decide
  have hfalse : IsPlain "false" := by decide
  induction v using induction generalizing depth with
  | null => exact hnull
  | bool b =>
    cases b with
    | true => exact htrue
    | false => exact hfalse
  | int n => exact isPlain_ofInt n
  | float x => exact isPlain_writeFloat x
  | text t => exact isPlain_writeText t
  | list vs ih =>
    rw [indentedAt_list, indentedItems_eq, isPlain_cons]
    refine ⟨by decide, IsPlain.append (Text.isPlain_joinWith hcomma fun t ht => ?_)
      ((isPlain_lastLine depth vs).append (isPlain_cons.2 ⟨by decide, .nil⟩))⟩
    obtain ⟨v, hv, rfl⟩ := List.mem_map.1 ht
    exact (isPlain_newline _).append (ih v hv _)
  | object ms ih =>
    rw [indentedAt_object, indentedMembers_eq, isPlain_cons]
    refine ⟨by decide, IsPlain.append (Text.isPlain_joinWith hcomma fun t ht => ?_)
      ((isPlain_lastLine depth ms).append (isPlain_cons.2 ⟨by decide, .nil⟩))⟩
    obtain ⟨m, hm, rfl⟩ := List.mem_map.1 ht
    exact (((isPlain_newline _).append (isPlain_writeText m.1)).append hcolon).append (ih m hm _)

end Json

end SourceAtlas
