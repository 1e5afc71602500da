import Mathlib.Data.List.TakeWhile
import SourceAtlas.Decimal.Shortest
import SourceAtlas.Proofs.Decimal.Rounding

/-!
# The shortest digits round back

The digits that are searched for a number lie between the midpoints to its neighbours. The search is
bounded by seventeen digits, and with so many the nearer of the two points around the number always
lies there.

* `Shortest.readsBack_iff`: the comparison of whole numbers tells whether a decimal number rounds back;
* `Shortest.onGrid_of_step`: a grid that is fine enough has a point that rounds back;
* `Shortest.leadingPlace_le`: where the grids start;
* `Shortest.search_roundsTo`: the search ends with a point that rounds back;
* **`Shortest.digits_spec`**: the digits, their first one not zero, and the place of the point.
-/

namespace SourceAtlas.Shortest

open Binary64 (value low high RoundsTo Fits)

variable {m n tried fuel : Nat} {q k lead : Int}

/-! ## Comparisons on a common scale -/

/-- What both sides of a comparison are multiplied by. -/
def common (k q : Int) : ℚ := 10 ^ (-k).toNat * 2 ^ (-q).toNat

theorem common_pos (k q : Int) : 0 < common k q := by
  unfold common
  positivity

theorem scale_fst (n : Nat) (k : Int) (m : Nat) (q : Int) :
    ((scale n k m q).1 : ℚ) = n * 10 ^ k * common k q := by
  unfold scale common
  simp only [zpow_eq_div, pow10_eq, pow2_eq]
  push_cast
  field_simp

theorem scale_snd (n : Nat) (k : Int) (m : Nat) (q : Int) :
    ((scale n k m q).2 : ℚ) = value m q * common k q := by
  unfold scale common value
  simp only [zpow_eq_div, pow10_eq, pow2_eq]
  push_cast
  field_simp

theorem scale_le_iff : (scale n k m q).1 ≤ (scale n k m q).2 ↔ (n : ℚ) * 10 ^ k ≤ value m q := by
  rw [← Nat.cast_le (α := ℚ), scale_fst, scale_snd]
  exact mul_le_mul_iff_left₀ (common_pos k q)

theorem le_scale_iff : (scale n k m q).2 ≤ (scale n k m q).1 ↔ value m q ≤ (n : ℚ) * 10 ^ k := by
  rw [← Nat.cast_le (α := ℚ), scale_fst, scale_snd]
  exact mul_le_mul_iff_left₀ (common_pos k q)

/-- **The comparison of whole numbers** tells whether a decimal number rounds back. -/
theorem readsBack_iff (hm : 0 < m) : readsBack m q n k = true ↔ RoundsTo m q (n * 10 ^ k) := by
  have hlow : value (if m = pow2 52 ∧ -1074 < q then 4 * m - 1 else 4 * m - 2) (q - 2) = low m q := by
    unfold value low
    rw [pow2_eq]
    split
    · rw [Nat.cast_sub (by omega)]
      push_cast
      ring
    · rw [Nat.cast_sub (by omega)]
      push_cast
      ring
  have hhigh : value (4 * m + 2) (q - 2) = high m q := by
    unfold value high
    push_cast
    ring
  unfold readsBack RoundsTo
  dsimp only
  rw [← hlow, ← hhigh]
  generalize (if m = pow2 52 ∧ -1074 < q then 4 * m - 1 else 4 * m - 2) = l
  have h₁ := @le_scale_iff l n (q - 2) k
  have h₂ := @scale_le_iff (4 * m + 2) n (q - 2) k
  have h₃ := not_congr (@scale_le_iff l n (q - 2) k)
  have h₄ := not_congr (@le_scale_iff (4 * m + 2) n (q - 2) k)
  rw [not_le, not_le] at h₃ h₄
  split
  · rename_i heven
    rw [Bool.and_eq_true, decide_eq_true_iff, decide_eq_true_iff, h₁, h₂]
    exact ⟨fun ⟨a, b⟩ => ⟨a, b, .inl heven⟩, fun ⟨a, b, _⟩ => ⟨a, b⟩⟩
  · rename_i hodd
    rw [Bool.and_eq_true, decide_eq_true_iff, decide_eq_true_iff, h₃, h₄]
    exact ⟨fun ⟨a, b⟩ => ⟨a.le, b.le, .inr ⟨a, b⟩⟩, fun ⟨_, _, h⟩ => h.resolve_left hodd⟩

/-! ## Grids -/

/-- The number lies between two neighbours on each grid. -/
theorem floorAt_spec (m : Nat) (q k : Int) :
    (floorAt m q k : ℚ) * 10 ^ k ≤ value m q ∧ value m q < (floorAt m q k + 1 : ℚ) * 10 ^ k := by
  have hc := common_pos k q
  have hd : 0 < 2 ^ (-q).toNat * 10 ^ k.toNat := by positivity
  have hle := Nat.div_mul_le_self (m * 2 ^ q.toNat * 10 ^ (-k).toNat) (2 ^ (-q).toNat * 10 ^ k.toNat)
  have hlt := Nat.lt_div_mul_add (a := m * 2 ^ q.toNat * 10 ^ (-k).toNat) hd
  have hn : ∀ n : Nat, (n : ℚ) * (2 ^ (-q).toNat * 10 ^ k.toNat) = n * 10 ^ k * common k q := by
    intro n
    rw [zpow_eq_div, common]
    field_simp
  have hv : (m : ℚ) * 2 ^ q.toNat * 10 ^ (-k).toNat = value m q * common k q := by
    rw [value, zpow_eq_div, common]
    field_simp
  unfold floorAt
  rw [pow2_eq, pow2_eq, pow10_eq, pow10_eq]
  generalize m * 2 ^ q.toNat * 10 ^ (-k).toNat / (2 ^ (-q).toNat * 10 ^ k.toNat) = n at *
  rw [← Nat.cast_le (α := ℚ)] at hle
  rw [← Nat.cast_lt (α := ℚ)] at hlt
  push_cast at hle hlt
  have hsucc := hn (n + 1)
  push_cast at hsucc
  rw [hn, hv] at hle
  rw [← add_one_mul, hsucc, hv] at hlt
  exact ⟨le_of_mul_le_mul_right hle hc, lt_of_mul_lt_mul_right hlt hc.le⟩

theorem roundsTo_of_onGrid {n : Nat} (hm : 0 < m) (h : onGrid? m q k = some n) :
    RoundsTo m q (n * 10 ^ k) := by
  rw [← readsBack_iff hm]
  unfold onGrid? at h
  dsimp only at h
  split at h
  · split at h <;> cases h <;> assumption
  · cases h
    assumption
  · cases h
    assumption
  · cases h

/-- A point nearer than a quarter of a unit in the last place, or than half a unit where the numbers
below are as far apart as those above, rounds back. -/
theorem roundsTo_of_near {x d : ℚ} (hd : d < 1 / 2 * 2 ^ q)
    (hc : m = 2 ^ 52 → d < 1 / 4 * 2 ^ q) (hl : value m q - d ≤ x) (hr : x ≤ value m q + d) :
    RoundsTo m q x := by
  have hp := Binary64.two_zpow_pos q
  have hhigh : x < high m q := by
    rw [Binary64.high_eq]
    unfold value at hr
    linarith
  have hlow : low m q < x := by
    unfold value at hl
    by_cases h : m = 2 ^ 52 ∧ -1074 < q
    · have := hc h.1
      rw [low, if_pos h, ← mul_one (4 * (m : ℚ) - 1)]
      rw [Binary64.two_zpow_eq q] at *
      linarith
    · rw [Binary64.low_of_ne h]
      linarith
  exact ⟨hlow.le, hhigh.le, .inr ⟨hlow, hhigh⟩⟩

/-- **A grid that is fine enough** has a point that rounds back. -/
theorem onGrid_of_step (h : Fits m q) (hm : 0 < m) (hk : (10 : ℚ) ^ k * 10 ^ 16 ≤ value m q) :
    (onGrid? m q k).isSome = true := by
  have hp := Binary64.two_zpow_pos q
  have hlt : (m : ℚ) < 2 ^ 53 := by exact_mod_cast h.lt
  have hd : (10 : ℚ) ^ k / 2 < 1 / 2 * 2 ^ q := by
    unfold value at hk
    nlinarith
  have hc : m = 2 ^ 52 → (10 : ℚ) ^ k / 2 < 1 / 4 * 2 ^ q := by
    rintro rfl
    unfold value at hk
    push_cast at hk
    linarith
  obtain ⟨hle, hgt⟩ := floorAt_spec m q k
  have hor : readsBack m q (floorAt m q k) k = true ∨
      readsBack m q (floorAt m q k + 1) k = true := by
    rw [readsBack_iff hm, readsBack_iff hm]
    push_cast
    rcases le_total (value m q) ((floorAt m q k : ℚ) * 10 ^ k + 10 ^ k / 2) with hn | hn
    · exact .inl (roundsTo_of_near hd hc (by linarith) (by linarith))
    · exact .inr (roundsTo_of_near hd hc (by linarith) (by linarith))
  unfold onGrid?
  dsimp only
  split
  · rfl
  · rfl
  · rfl
  · simp_all

/-! ## The search -/

/-- **The first grid** has a step of at most the number. -/
theorem leadingPlace_le (h : Fits m q) (hm : 0 < m) : (10 : ℚ) ^ leadingPlace m q ≤ value m q := by
  unfold leadingPlace value
  rcases le_or_gt 0 q with hq | hq
  · obtain ⟨hl, -⟩ := Binary64.pow_length_toDigits (n := m * pow2 q.toNat) (by rw [pow2_eq]; positivity)
    have hpos : 0 < (Nat.toDigits 10 (m * pow2 q.toNat)).length := Nat.length_toDigits_pos
    have hz : (-q).toNat = 0 := by omega
    rw [if_pos hq, zpow_eq_div 2 q, hz, pow_zero, div_one]
    generalize (Nat.toDigits 10 (m * pow2 q.toNat)).length = size at *
    have hs : (size : Int) - 1 = ((size - 1 : Nat) : Int) := by omega
    rw [hs, zpow_natCast]
    rw [pow2_eq] at hl
    exact_mod_cast hl
  · have hz : q.toNat = 0 := by omega
    have hp : (0 : ℚ) < 2 ^ (-q).toNat := by positivity
    -- the scaled number is at least one: `2 ^ 1074 ≤ 10 ^ 400`
    have hbig : 2 ^ (-q).toNat ≤ m * 10 ^ 400 := by
      have he : (-q).toNat ≤ 1074 := by
        have := h.least
        omega
      have h₁ : 2 ^ (-q).toNat ≤ 2 ^ 1074 := pow_le_pow_right₀ one_le_two he
      have h₂ : 2 ^ 1074 ≤ 10 ^ 400 := by decide +kernel
      exact (h₁.trans h₂).trans (Nat.le_mul_of_pos_left _ hm)
    have hdiv : 0 < m * pow10 400 / pow2 (-q).toNat := by
      rw [pow10_eq, pow2_eq]
      exact Nat.div_pos hbig (by positivity)
    obtain ⟨hl, -⟩ := Binary64.pow_length_toDigits hdiv
    have hpos : 0 < (Nat.toDigits 10 (m * pow10 400 / pow2 (-q).toNat)).length :=
      Nat.length_toDigits_pos
    have hle := Nat.div_mul_le_self (m * pow10 400) (pow2 (-q).toNat)
    rw [if_neg (not_le.2 hq), zpow_eq_div 2 q, hz, pow_zero, mul_one_div, le_div_iff₀ hp]
    generalize (Nat.toDigits 10 (m * pow10 400 / pow2 (-q).toNat)).length = size at *
    have hs : (size : Int) - 401 = ((size - 1 : Nat) : Int) - (400 : Nat) := by omega
    have hmul := (Nat.mul_le_mul_right (pow2 (-q).toNat) hl).trans hle
    rw [pow10_eq, pow2_eq] at hmul
    rw [hs, zpow_sub₀ (by norm_num), zpow_natCast, zpow_natCast, div_mul_eq_mul_div,
      div_le_iff₀ (by positivity)]
    exact_mod_cast hmul

theorem search_roundsTo (h : Fits m q) (hm : 0 < m) (hl : (10 : ℚ) ^ lead ≤ value m q)
    (hf : tried + fuel = 17) (ht : tried ≤ 16) :
    RoundsTo m q ((search m q lead tried fuel).1 * 10 ^ (search m q lead tried fuel).2) := by
  induction fuel generalizing tried with
  | zero => omega
  | succ fuel ih =>
    rw [search]
    cases hg : onGrid? m q (lead - tried) with
    | some n => exact roundsTo_of_onGrid hm hg
    | none =>
      refine ih (by omega) ?_
      by_contra hlast
      -- the last grid is fine enough
      have hk : (10 : ℚ) ^ (lead - tried) * 10 ^ 16 ≤ value m q := by
        have ht' : (tried : Int) = (16 : Nat) := by omega
        rw [ht', zpow_sub₀ (by norm_num), zpow_natCast, div_mul_cancel₀ _ (by norm_num)]
        exact hl
      have := onGrid_of_step h hm hk
      rw [hg] at this
      cases this

/-! ## Digits -/

theorem head_toDigits (hn : 0 < n) : ∃ c ds, Nat.toDigits 10 n = c :: ds ∧ c ≠ '0' := by
  induction n using Nat.strongRecOn with
  | _ n ih =>
    rw [Nat.toDigits_eq_if (by norm_num)]
    split
    · exact ⟨_, [], rfl, fun h => by rw [Nat.digitChar_eq_zero] at h; omega⟩
    · obtain ⟨c, ds, hc, hne⟩ := ih (n / 10) (by omega) (by omega)
      exact ⟨c, ds ++ [(n % 10).digitChar], by rw [hc]; rfl, hne⟩

/-- A list without the zeros at its end, and these zeros. -/
theorem kept_append (ds : List Char) :
    (ds.reverse.dropWhile fun c => c = '0').reverse ++
      List.replicate (ds.length - (ds.reverse.dropWhile fun c => c = '0').length) '0' = ds := by
  have hsplit := List.takeWhile_append_dropWhile (p := fun c => decide (c = '0')) (l := ds.reverse)
  have hlen := congrArg List.length hsplit
  rw [List.length_append, List.length_reverse] at hlen
  have hrep : ds.reverse.takeWhile (fun c => decide (c = '0')) =
      List.replicate (ds.length - (ds.reverse.dropWhile fun c => decide (c = '0')).length) '0' := by
    rw [List.eq_replicate_iff]
    refine ⟨by omega, fun c hc => ?_⟩
    have := List.mem_takeWhile_imp hc
    simpa using this
  rw [hrep] at hsplit
  have := congrArg List.reverse hsplit
  rw [List.reverse_append, List.reverse_replicate, List.reverse_reverse] at this
  exact this

/-- **The digits of a number**: the first one is not zero, and with the point at its place they
round back to the number. -/
theorem digits_spec (h : Fits m q) (hm : 0 < m) :
    ∃ c ds, (digits m q).1 = c :: ds ∧ c ≠ '0' ∧ (∀ d ∈ c :: ds, d.isDigit = true) ∧
      RoundsTo m q (Nat.ofDigitChars 10 (c :: ds) 0 *
        10 ^ ((digits m q).2 - ((c :: ds).length : Int))) := by
  have hfuel : 0 + 17 = 17 := rfl
  have hs := search_roundsTo h hm (leadingPlace_le h hm) hfuel (by norm_num)
  unfold digits
  dsimp only
  generalize search m q (leadingPlace m q) 0 17 = found at hs
  obtain ⟨n, k⟩ := found
  dsimp only at hs ⊢
  have hn : 0 < n := by
    rcases Nat.eq_zero_or_pos n with rfl | hn
    · have hlow := hs.1
      have hle := Binary64.low_le m q
      have hm' : (1 : ℚ) ≤ m := by exact_mod_cast hm
      have hp := Binary64.two_zpow_pos q
      simp only [Nat.cast_zero, zero_mul] at hlow
      nlinarith
    · exact hn
  have hkept := kept_append (Nat.toDigits 10 n)
  generalize hK : ((Nat.toDigits 10 n).reverse.dropWhile fun c => c = '0').reverse = kept at *
  have hlen : ((Nat.toDigits 10 n).reverse.dropWhile fun c => c = '0').length = kept.length := by
    rw [← hK, List.length_reverse]
  rw [hlen] at hkept
  set zeros := (Nat.toDigits 10 n).length - kept.length with hz
  have hsum := congrArg List.length hkept
  rw [List.length_append, List.length_replicate] at hsum
  obtain ⟨c, ds, hds, hc⟩ := head_toDigits hn
  have hdigit : ∀ d ∈ Nat.toDigits 10 n, d.isDigit = true :=
    fun d hd => Nat.isDigit_of_mem_toDigits (by norm_num) (by norm_num) hd
  have hval := Nat.ofDigitChars_ten_toDigits (n := n)
  rw [← hkept, Nat.ofDigitChars_append, Nat.ofDigitChars_replicate_zero] at hval
  cases kept with
  | nil =>
    rw [List.nil_append, hds] at hkept
    cases hzero : zeros with
    | zero => rw [hzero] at hkept; cases hkept
    | succ z =>
      rw [hzero, List.replicate_succ] at hkept
      cases hkept
      exact absurd rfl hc
  | cons d kept =>
    have hd : d = c := by
      rw [hds] at hkept
      exact (List.cons.inj hkept).1
    refine ⟨d, kept, rfl, hd ▸ hc, fun e he => hdigit e ?_, ?_⟩
    · rw [← hkept]
      exact List.mem_append_left _ he
    · have hexp : ((Nat.toDigits 10 n).length : Int) + k - ((d :: kept).length : Int) =
          (zeros : Int) + k := by omega
      rw [hexp, zpow_add₀ (by norm_num), zpow_natCast, ← mul_assoc]
      have hcast : (Nat.ofDigitChars 10 (d :: kept) 0 : ℚ) * 10 ^ zeros = n := by
        rw [mul_comm]
        exact_mod_cast hval
      rw [hcast]
      exact hs

end SourceAtlas.Shortest
