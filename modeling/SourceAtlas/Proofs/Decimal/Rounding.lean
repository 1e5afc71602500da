import Mathlib.Algebra.Order.Field.Rat
import Mathlib.Algebra.Order.GroupWithZero.Basic
import Mathlib.Tactic.FieldSimp
import Mathlib.Tactic.Linarith
import Mathlib.Tactic.NormNum
import Mathlib.Tactic.Positivity
import Mathlib.Tactic.Ring
import SourceAtlas.Decimal.Binary64

/-!
# Rounding to the nearest number

Which rational numbers are read as a given floating point number: those between the midpoints to its
neighbours.

* `Binary64.value`: the number `m · 2 ^ q`;
* `Binary64.low`, `Binary64.high`, `Binary64.RoundsTo`: the interval that rounds to it, with its ends
  for even `m`;
* `Binary64.lastPlace_eq`: the exponent of the last place, told by the powers of two around a number;
* **`Binary64.ofRatio_eq`**, **`Binary64.ofDecimal_eq`**: every ratio and every decimal number of the
  interval is read as the number.
-/

namespace SourceAtlas

theorem pow2_eq (n : Nat) : pow2 n = 2 ^ n := rfl

theorem pow10_eq (n : Nat) : pow10 n = 10 ^ n := rfl

/-- A power by its positive and its negative part. -/
theorem zpow_eq_div (b : ℚ) (q : Int) : b ^ q = b ^ q.toNat / b ^ (-q).toNat := by
  rcases le_total 0 q with h | h
  · have hn : (-q).toNat = 0 := by omega
    rw [hn, pow_zero, div_one, ← zpow_natCast, Int.toNat_of_nonneg h]
  · have hn : q.toNat = 0 := by omega
    have hp : ((-q).toNat : Int) = -q := Int.toNat_of_nonneg (by omega)
    rw [hn, pow_zero, ← zpow_natCast, hp, zpow_neg, one_div, inv_inv]

namespace Binary64

/-! ## Whole quotients -/

theorem divNearest_eq {num den k : Nat} (hl : 2 * (k * den) ≤ 2 * num + den)
    (hr : 2 * num ≤ 2 * (k * den) + den)
    (he : k % 2 = 0 ∨ 2 * (k * den) < 2 * num + den ∧ 2 * num < 2 * (k * den) + den)
    (hd : 0 < den) : divNearest num den = k := by
  have hdiv := Nat.div_add_mod num den
  have hmod := Nat.mod_lt num hd
  unfold divNearest
  generalize num / den = a at *
  generalize num % den = r at *
  have hk : k = a ∨ k = a + 1 := by
    have h₁ : ¬ k + 1 ≤ a := fun h => by
      have := Nat.mul_le_mul_right den h
      rw [Nat.succ_mul, Nat.mul_comm a] at this
      omega
    have h₂ : ¬ a + 2 ≤ k := fun h => by
      have := Nat.mul_le_mul_right den h
      rw [Nat.add_mul, Nat.mul_comm a] at this
      omega
    omega
  rcases hk with rfl | rfl
  · rw [Nat.mul_comm k] at hl hr he
    dsimp only
    split
    · rfl
    · split
      · rw [if_pos (by omega)]
      · omega
  · have hk : (a + 1) * den = den * a + den := by rw [Nat.succ_mul, Nat.mul_comm]
    rw [hk] at hl hr he
    dsimp only
    split
    · omega
    · split
      · rw [if_neg (by omega)]
      · rfl

/-! ## The interval of a number -/

/-- The number `m · 2 ^ q`. -/
def value (m : Nat) (q : Int) : ℚ := m * 2 ^ q

/-- The midpoint to the next smaller number. Below a power of two the numbers lie twice as close. -/
def low (m : Nat) (q : Int) : ℚ :=
  (if m = 2 ^ 52 ∧ -1074 < q then (4 * m - 1 : ℚ) else 4 * m - 2) * 2 ^ (q - 2)

/-- The midpoint to the next larger number. -/
def high (m : Nat) (q : Int) : ℚ := (4 * m + 2) * 2 ^ (q - 2)

/-- A number between the midpoints, the midpoints included for even `m`. -/
def RoundsTo (m : Nat) (q : Int) (x : ℚ) : Prop :=
  low m q ≤ x ∧ x ≤ high m q ∧ (m % 2 = 0 ∨ low m q < x ∧ x < high m q)

variable {m num den : Nat} {q : Int} {x : ℚ}

theorem two_zpow_pos (q : Int) : (0 : ℚ) < 2 ^ q := zpow_pos (by norm_num) q

theorem two_zpow_add (q : Int) (n : Nat) : (2 : ℚ) ^ (q + n) = 2 ^ q * 2 ^ n := by
  rw [zpow_add₀ (by norm_num), zpow_natCast]

theorem two_zpow_eq (q : Int) : (2 : ℚ) ^ q = 4 * 2 ^ (q - 2) := by
  have h : q = q - 2 + (2 : Nat) := by simp
  conv_lhs => rw [h, two_zpow_add]
  ring

theorem high_eq (m : Nat) (q : Int) : high m q = (m + 1 / 2) * 2 ^ q := by
  rw [high, two_zpow_eq q]
  ring

theorem low_le (m : Nat) (q : Int) : (m - 1 / 2) * 2 ^ q ≤ low m q := by
  have hp := two_zpow_pos (q - 2)
  rw [low, two_zpow_eq q]
  split
  · nlinarith
  · nlinarith

theorem low_of_ne (h : ¬ (m = 2 ^ 52 ∧ -1074 < q)) : low m q = (m - 1 / 2) * 2 ^ q := by
  rw [low, two_zpow_eq q, if_neg h]
  ring

/-! ## The last place -/

/-- The comparison with a power of two by whole numbers. -/
theorem lt_two_zpow_iff (hd : 0 < den) (e : Int) :
    (if 0 ≤ e then decide (num < den * pow2 e.toNat) else decide (num * pow2 (-e).toNat < den)) = true ↔
      (num : ℚ) / den < 2 ^ e := by
  have hd' : (0 : ℚ) < den := by exact_mod_cast hd
  rw [zpow_eq_div, div_lt_div_iff₀ hd' (by positivity)]
  rcases le_or_gt 0 e with h | h
  · have hn : (-e).toNat = 0 := by omega
    rw [if_pos h, decide_eq_true_iff, hn, pow_zero, mul_one, Nat.mul_comm, pow2_eq]
    exact_mod_cast Iff.rfl
  · have hn : e.toNat = 0 := by omega
    rw [if_neg (not_le.2 h), decide_eq_true_iff, hn, pow_zero, one_mul, pow2_eq]
    exact_mod_cast Iff.rfl

/-- A number lies between the powers of two that its logarithm tells. -/
theorem two_zpow_log2 {n : Nat} (h : 0 < n) :
    (2 : ℚ) ^ (n.log2 : Int) ≤ n ∧ (n : ℚ) < 2 ^ ((n.log2 : Int) + 1) := by
  have hle := Nat.log2_self_le (Nat.pos_iff_ne_zero.1 h)
  have hlt := @Nat.lt_log2_self n
  have hs : ((n.log2 : Int) + 1) = ((n.log2 + 1 : Nat) : Int) := by push_cast; rfl
  rw [hs, zpow_natCast, zpow_natCast]
  exact ⟨by exact_mod_cast hle, by exact_mod_cast hlt⟩

/-- **The exponent of the last place** is told by the powers of two around a number. -/
theorem lastPlace_eq (hn : 0 < num) (hd : 0 < den) (hq : -1074 ≤ q)
    (hl : (2 : ℚ) ^ (q + 52) ≤ num / den ∨ q = -1074) (hr : (num : ℚ) / den < 2 ^ (q + 53)) :
    lastPlace num den = q := by
  have hd' : (0 : ℚ) < den := by exact_mod_cast hd
  obtain ⟨hnl, hnr⟩ := two_zpow_log2 hn
  obtain ⟨hdl, hdr⟩ := two_zpow_log2 hd
  unfold lastPlace
  set e : Int := (num.log2 : Int) - (den.log2 : Int) - 52 with he
  have hlo : (2 : ℚ) ^ (e + 51) < num / den := by
    rw [lt_div_iff₀ hd']
    calc (2 : ℚ) ^ (e + 51) * den < 2 ^ (e + 51) * 2 ^ ((den.log2 : Int) + 1) :=
          mul_lt_mul_of_pos_left hdr (two_zpow_pos _)
      _ = 2 ^ (num.log2 : Int) := by
          rw [← zpow_add₀ (by norm_num)]
          congr 1
          omega
      _ ≤ num := hnl
  have hhi : (num : ℚ) / den < 2 ^ (e + 53) := by
    rw [div_lt_iff₀ hd']
    calc (num : ℚ) < 2 ^ ((num.log2 : Int) + 1) := hnr
      _ = 2 ^ (e + 53) * 2 ^ (den.log2 : Int) := by
          rw [← zpow_add₀ (by norm_num)]
          congr 1
          omega
      _ ≤ 2 ^ (e + 53) * den := mul_le_mul_of_nonneg_left hdl (two_zpow_pos _).le
  have hbelow := @lt_two_zpow_iff num den hd (e + 52)
  have hone : (1 : ℚ) < 2 := by norm_num
  dsimp only
  generalize (if 0 ≤ e + 52 then decide (num < den * pow2 (e + 52).toNat)
    else decide (num * pow2 (-(e + 52)).toNat < den)) = below at hbelow ⊢
  cases below with
  | true =>
    have hx := hbelow.1 rfl
    have h₁ : e + 51 < q + 53 := (zpow_lt_zpow_iff_right₀ hone).1 (hlo.trans hr)
    rw [if_pos rfl]
    rcases hl with hl | rfl
    · have h₂ : q + 52 < e + 52 := (zpow_lt_zpow_iff_right₀ hone).1 (hl.trans_lt hx)
      omega
    · omega
  | false =>
    have hx := not_lt.1 fun hx => Bool.false_ne_true (hbelow.2 hx)
    have h₁ : e + 52 < q + 53 := (zpow_lt_zpow_iff_right₀ hone).1 (hx.trans_lt hr)
    rw [if_neg Bool.false_ne_true]
    rcases hl with hl | rfl
    · have h₂ : q + 52 < e + 53 := (zpow_lt_zpow_iff_right₀ hone).1 (hl.trans_lt hhi)
      omega
    · omega

/-! ## Rounding -/

/-- The significand at the place `2 ^ q` of a number that lies between the midpoints around `k`. -/
theorem divNearest_at {k : Nat} (hd : 0 < den) (q : Int)
    (hl : (k - 1 / 2) * 2 ^ q ≤ (num : ℚ) / den) (hr : (num : ℚ) / den ≤ (k + 1 / 2) * 2 ^ q)
    (he : k % 2 = 0 ∨ (k - 1 / 2) * 2 ^ q < (num : ℚ) / den ∧ (num : ℚ) / den < (k + 1 / 2) * 2 ^ q) :
    (if 0 ≤ q then divNearest num (den * pow2 q.toNat) else divNearest (num * pow2 (-q).toNat) den) =
      k := by
  have hs : (if 0 ≤ q then divNearest num (den * pow2 q.toNat)
      else divNearest (num * pow2 (-q).toNat) den) =
        divNearest (num * 2 ^ (-q).toNat) (den * 2 ^ q.toNat) := by
    rcases le_or_gt 0 q with h | h
    · have hn : (-q).toNat = 0 := by omega
      rw [if_pos h, hn, pow_zero, mul_one, pow2_eq]
    · have hn : q.toNat = 0 := by omega
      rw [if_neg (not_le.2 h), hn, pow_zero, mul_one, pow2_eq]
  have hd' : (0 : ℚ) < den := by exact_mod_cast hd
  have ha : (0 : ℚ) < 2 ^ q.toNat := by positivity
  have hb : (0 : ℚ) < 2 ^ (-q).toNat := by positivity
  -- both sides of each comparison are multiplied by `2 · den · 2 ^ (-q)`
  have key : ∀ c : ℚ, c * 2 ^ q * (2 * den * 2 ^ (-q).toNat) = 2 * c * (den * 2 ^ q.toNat) := by
    intro c
    rw [zpow_eq_div]
    field_simp
  have hx : (num : ℚ) / den * (2 * den * 2 ^ (-q).toNat) = 2 * (num * 2 ^ (-q).toNat) := by
    field_simp
  have hp : (0 : ℚ) < 2 * den * 2 ^ (-q).toNat := by positivity
  have hle₁ := mul_le_mul_of_nonneg_right hl hp.le
  have hle₂ := mul_le_mul_of_nonneg_right hr hp.le
  rw [key, hx] at hle₁ hle₂
  rw [hs]
  refine divNearest_eq ?_ ?_ ?_ (by positivity)
  · have : 2 * ((k : ℚ) * (den * 2 ^ q.toNat)) ≤
        2 * (num * 2 ^ (-q).toNat) + den * 2 ^ q.toNat := by linarith
    exact_mod_cast this
  · have : 2 * ((num : ℚ) * 2 ^ (-q).toNat) ≤
        2 * (k * (den * 2 ^ q.toNat)) + den * 2 ^ q.toNat := by linarith
    exact_mod_cast this
  · refine he.imp_right fun ⟨h₁, h₂⟩ => ?_
    have hlt₁ := mul_lt_mul_of_pos_right h₁ hp
    have hlt₂ := mul_lt_mul_of_pos_right h₂ hp
    rw [key, hx] at hlt₁ hlt₂
    constructor
    · have : 2 * ((k : ℚ) * (den * 2 ^ q.toNat)) <
          2 * (num * 2 ^ (-q).toNat) + den * 2 ^ q.toNat := by linarith
      exact_mod_cast this
    · have : 2 * ((num : ℚ) * 2 ^ (-q).toNat) <
          2 * (k * (den * 2 ^ q.toNat)) + den * 2 ^ q.toNat := by linarith
      exact_mod_cast this

theorem ofParts_of_fits (negative : Bool) (h : Fits m q) :
    ofParts negative m q = finite negative m q h := dif_pos h

theorem lt_of_roundsTo (h : Fits m q) (hx : RoundsTo m q x) : x < 2 ^ (q + 53) := by
  have hm : (m : ℚ) + 1 ≤ 2 ^ 53 := by exact_mod_cast h.lt
  have hp := two_zpow_pos q
  have hadd := two_zpow_add q 53
  push_cast at hadd
  rw [hadd]
  refine hx.2.1.trans_lt ?_
  rw [high_eq]
  nlinarith

/-- Below the power of two at its place a number rounds up to that power. -/
theorem eq_of_lt_binade (h : Fits m q) (hx : RoundsTo m q x) (hq : -1074 < q)
    (hlt : x < 2 ^ (q + 52)) : m = 2 ^ 52 := by
  by_contra hm
  have hp := two_zpow_pos q
  have hadd := two_zpow_add q 52
  push_cast at hadd
  rw [hadd] at hlt
  have hn : 2 ^ 52 < m := by
    rcases h.normal with hn | hn
    · exact lt_of_le_of_ne hn (Ne.symm hm)
    · omega
  have hm' : (2 : ℚ) ^ 52 + 1 ≤ m := by exact_mod_cast hn
  have hlow := hx.1
  rw [low_of_ne fun h => hm h.1] at hlow
  nlinarith

/-- **A ratio between the midpoints** is read as the number. -/
theorem ofRatio_eq (negative : Bool) (hn : 0 < num) (hd : 0 < den) (h : Fits m q)
    (hx : RoundsTo m q (num / den)) : ofRatio negative num den = finite negative m q h := by
  unfold ofRatio
  rw [if_neg (Nat.pos_iff_ne_zero.1 hn)]
  dsimp only
  by_cases hb : (2 : ℚ) ^ (q + 52) ≤ num / den ∨ q = -1074
  · have hlow := low_le m q
    have hk := divNearest_at hd q (hlow.trans hx.1) (hx.2.1.trans_eq (high_eq m q))
      (hx.2.2.imp_right fun ⟨h₁, h₂⟩ => ⟨hlow.trans_lt h₁, h₂.trans_eq (high_eq m q)⟩)
    rw [lastPlace_eq hn hd h.least hb (lt_of_roundsTo h hx), hk, if_neg h.lt.ne,
      ofParts_of_fits negative h]
  · rw [not_or, not_le] at hb
    have hq : -1074 < q := lt_of_le_of_ne h.least (Ne.symm hb.2)
    obtain rfl := eq_of_lt_binade h hx hq hb.1
    have hp := two_zpow_pos (q - 2)
    have hadd : ∀ n : Nat, (2 : ℚ) ^ (q - 1 + n) = 2 ^ (q - 2) * 2 ^ (n + 1) := fun n => by
      rw [← two_zpow_add]
      congr 1
      push_cast
      omega
    have hone := hadd 0
    rw [Nat.cast_zero, add_zero] at hone
    have hlow := hx.1
    rw [low, if_pos ⟨rfl, hq⟩] at hlow
    push_cast at hlow
    have htop : (2 : ℚ) ^ (q + 52) = 2 ^ (q - 1 + (53 : Nat)) := by
      congr 1
      push_cast
      omega
    have hlt := hb.1
    rw [htop, hadd] at hlt
    have hplace : lastPlace num den = q - 1 := by
      refine lastPlace_eq hn hd (by omega) (.inl ?_) ?_
      · have := hadd 52
        push_cast at this
        rw [this]
        nlinarith
      · have := hadd 53
        push_cast at this
        rw [this]
        exact hlt
    have hk : (if 0 ≤ q - 1 then divNearest num (den * pow2 (q - 1).toNat)
        else divNearest (num * pow2 (-(q - 1)).toNat) den) = 2 ^ 53 := by
      refine divNearest_at hd (q - 1) ?_ ?_ (.inl rfl)
      · rw [hone]
        push_cast
        nlinarith
      · rw [hone]
        push_cast
        nlinarith
    rw [hplace, hk, if_pos (pow2_eq 53).symm, pow2_eq, Int.sub_add_cancel, ofParts_of_fits negative h]

/-! ## Decimal numbers -/

/-- The decimal digits of a number tell its powers of ten. -/
theorem pow_length_toDigits {n : Nat} (h : 0 < n) :
    10 ^ ((Nat.toDigits 10 n).length - 1) ≤ n ∧ n < 10 ^ (Nat.toDigits 10 n).length := by
  have hpos : 0 < (Nat.toDigits 10 n).length := Nat.length_toDigits_pos
  refine ⟨?_, (Nat.length_toDigits_le_iff (by norm_num) hpos).1 le_rfl⟩
  by_contra hlt
  rcases Nat.eq_zero_or_pos ((Nat.toDigits 10 n).length - 1) with hz | hp
  · rw [hz] at hlt
    omega
  · have := (Nat.length_toDigits_le_iff (by norm_num) hp).2 (not_le.1 hlt)
    omega

/-- The powers of ten around a decimal number. -/
theorem decimal_bounds {n : Nat} (h : 0 < n) (k : Int) :
    (10 : ℚ) ^ (((Nat.toDigits 10 n).length : Int) + k - 1) ≤ n * 10 ^ k ∧
      (n : ℚ) * 10 ^ k < 10 ^ (((Nat.toDigits 10 n).length : Int) + k) := by
  obtain ⟨hl, hr⟩ := pow_length_toDigits h
  have hpos : 0 < (Nat.toDigits 10 n).length := Nat.length_toDigits_pos
  have hk : (0 : ℚ) < 10 ^ k := zpow_pos (by norm_num) k
  generalize (Nat.toDigits 10 n).length = size at *
  have hs : (size : Int) + k - 1 = ((size - 1 : Nat) : Int) + k := by omega
  rw [hs, zpow_add₀ (by norm_num), zpow_add₀ (by norm_num), zpow_natCast, zpow_natCast]
  exact ⟨mul_le_mul_of_nonneg_right (by exact_mod_cast hl) hk.le,
    mul_lt_mul_of_pos_right (by exact_mod_cast hr) hk⟩

theorem ten_zpow_lt : (10 : ℚ) ^ (-324 : Int) < 1 / 2 * 2 ^ (-1074 : Int) := by
  have hn : 2 * 2 ^ 1074 < 10 ^ 324 := by decide +kernel
  have hr : (2 : ℚ) * 2 ^ 1074 < 10 ^ 324 := by exact_mod_cast hn
  rw [zpow_neg, zpow_neg, zpow_ofNat, zpow_ofNat, one_div, ← mul_inv]
  refine inv_strictAnti₀ ?_ hr
  exact mul_pos two_pos (pow_pos two_pos _)

theorem lt_ten_zpow : (2 : ℚ) ^ (1024 : Int) < 10 ^ (309 : Int) := by
  have hn : 2 ^ 1024 < 10 ^ 309 := by decide +kernel
  exact_mod_cast hn

/-- All numbers that round to a positive number of the format lie between these powers of ten. -/
theorem ten_zpow_bounds (h : Fits m q) (hm : 0 < m) (hx : RoundsTo m q x) :
    (10 : ℚ) ^ (-324 : Int) < x ∧ x < 10 ^ (309 : Int) := by
  constructor
  · have hm' : (1 : ℚ) ≤ m := by exact_mod_cast hm
    have hq : (2 : ℚ) ^ (-1074 : Int) ≤ 2 ^ q := zpow_le_zpow_right₀ (by norm_num) h.least
    calc (10 : ℚ) ^ (-324 : Int) < 1 / 2 * 2 ^ (-1074 : Int) := ten_zpow_lt
      _ ≤ (m - 1 / 2) * 2 ^ q := by
          have := two_zpow_pos q
          nlinarith
      _ ≤ low m q := low_le m q
      _ ≤ x := hx.1
  · have hq : (2 : ℚ) ^ (q + 53) ≤ 2 ^ (1024 : Int) :=
      zpow_le_zpow_right₀ (by norm_num) (by have := h.greatest; omega)
    exact (lt_of_roundsTo h hx).trans_le (hq.trans lt_ten_zpow.le)

/-- **A decimal number between the midpoints** is read as the number. -/
theorem ofDecimal_eq (negative : Bool) {n : Nat} {k : Int} (h : Fits m q) (hm : 0 < m)
    (hx : RoundsTo m q (n * 10 ^ k)) : ofDecimal negative n k = finite negative m q h := by
  obtain ⟨hlo, hhi⟩ := ten_zpow_bounds h hm hx
  have hn : 0 < n := by
    rcases Nat.eq_zero_or_pos n with rfl | hn
    · have : (0 : ℚ) < 10 ^ (-324 : Int) := zpow_pos (by norm_num) _
      simp only [Nat.cast_zero, zero_mul] at hlo
      linarith
    · exact hn
  obtain ⟨hdl, hdr⟩ := decimal_bounds hn k
  have hten : (1 : ℚ) < 10 := by norm_num
  have h₁ := (zpow_lt_zpow_iff_right₀ hten).1 (hdl.trans_lt hhi)
  have h₂ := (zpow_lt_zpow_iff_right₀ hten).1 (hlo.trans hdr)
  rw [zpow_eq_div] at hx
  unfold ofDecimal
  dsimp only
  rw [if_neg (Nat.pos_iff_ne_zero.1 hn), if_neg (by omega), if_neg (by omega)]
  rcases le_or_gt 0 k with hk | hk
  · have hz : (-k).toNat = 0 := by omega
    rw [if_pos hk, pow10_eq]
    refine ofRatio_eq negative (by positivity) Nat.one_pos h ?_
    rw [hz, pow_zero, div_one] at hx
    push_cast
    rwa [div_one]
  · have hz : k.toNat = 0 := by omega
    rw [if_neg (not_le.2 hk), pow10_eq]
    refine ofRatio_eq negative hn (by positivity) h ?_
    rw [hz, pow_zero, mul_one_div] at hx
    push_cast
    exact hx

end Binary64

end SourceAtlas
