import Mathlib.Data.List.Chain
import Mathlib.Tactic.IntervalCases
import SourceAtlas.Json.Reader
import SourceAtlas.Json.Writer
import SourceAtlas.Proofs.Points

/-!
# Strings read back

The writer spells every point outside ASCII by escapes of UTF-16 units. The reader joins the escapes
of two halves of a pair, so that two points that are such halves are read back as one.

* `Text.joinPairs`: the text with adjacent halves joined, which is how a text is read back;
* `Text.HasNoPair`: no two adjacent points are the halves of a pair;
* `Text.hasNoPair_joinPairs`, `Text.joinPairs_joinPairs`: what is joined stays as it is;
* **`Json.Reader.stringBody_writeText`**: every text that is written is read back, up to pairs.
-/

namespace SourceAtlas

open Json.Reader (isHigh isLow joinPair)

namespace Text

/-- The two points are the halves of a surrogate pair. -/
def isPair (p q : Point) : Bool := isHigh p.toNat && isLow q.toNat

/-- The text in which each pair of adjacent halves is the point that they stand for. -/
def joinPairs : Text → Text
  | [] => []
  | [p] => [p]
  | p :: q :: t =>
    if isPair p q then joinPair p.toNat q.toNat :: joinPairs t else p :: joinPairs (q :: t)

/-- No two adjacent points are the halves of a pair. -/
def HasNoPair (t : Text) : Prop := t.IsChain fun p q => isPair p q = false

theorem joinPairs_of_hasNoPair {t : Text} (h : HasNoPair t) : joinPairs t = t := by
  induction t with
  | nil => rfl
  | cons p t ih =>
    cases t with
    | nil => rfl
    | cons q t =>
      obtain ⟨hpq, ht⟩ := List.isChain_cons_cons.1 h
      rw [joinPairs, hpq, if_neg Bool.false_ne_true, ih ht]

theorem isHigh_iff {n : Nat} : isHigh n = true ↔ 0xD800 ≤ n ∧ n < 0xDC00 := by
  simp [isHigh]

theorem isLow_iff {n : Nat} : isLow n = true ↔ 0xDC00 ≤ n ∧ n < 0xE000 := by
  simp [isLow]

theorem toNat_joinPair {m n : Nat} (hm : isHigh m = true) (hn : isLow n = true) :
    (joinPair m n).toNat = 0x10000 + (m - 0xD800) * 0x400 + (n - 0xDC00) := by
  rw [isHigh_iff] at hm
  rw [isLow_iff] at hn
  exact Point.toNat_ofNat (by omega)

/-- A joined point is no half itself. -/
theorem not_isHigh_joinPair {m n : Nat} (hm : isHigh m = true) (hn : isLow n = true) :
    isHigh (joinPair m n).toNat = false ∧ isLow (joinPair m n).toNat = false := by
  rw [toNat_joinPair hm hn, ← Bool.not_eq_true, ← Bool.not_eq_true, isHigh_iff, isLow_iff]
  omega

/-- The first point of a joined text is the first point of the text, or no half. -/
theorem head?_joinPairs (t : Text) {p : Point} (h : (joinPairs t).head? = some p) :
    t.head? = some p ∨ isLow p.toNat = false := by
  match t with
  | [] => cases h
  | [_] => exact .inl h
  | a :: b :: t =>
    rw [joinPairs] at h
    split at h
    · rename_i hp
      rw [isPair, Bool.and_eq_true] at hp
      rw [List.head?_cons, Option.some.injEq] at h
      exact .inr (h ▸ (not_isHigh_joinPair hp.1 hp.2).2)
    · exact .inl h

/-- **What is joined has no pair any more.** -/
theorem hasNoPair_joinPairs (t : Text) : HasNoPair (joinPairs t) := by
  match t with
  | [] => exact List.isChain_nil
  | [p] => exact List.isChain_singleton p
  | a :: b :: t =>
    rw [joinPairs]
    split
    · rename_i hp
      rw [isPair, Bool.and_eq_true] at hp
      refine List.isChain_cons.2 ⟨fun q _ => ?_, hasNoPair_joinPairs t⟩
      rw [isPair, (not_isHigh_joinPair hp.1 hp.2).1, Bool.false_and]
    · rename_i hp
      refine List.isChain_cons.2 ⟨fun q hq => ?_, hasNoPair_joinPairs (b :: t)⟩
      rcases head?_joinPairs (b :: t) hq with hb | hl
      · cases hb
        exact Bool.eq_false_iff.2 hp
      · rw [isPair, hl, Bool.and_false]

theorem joinPairs_joinPairs (t : Text) : joinPairs (joinPairs t) = joinPairs t :=
  joinPairs_of_hasNoPair (hasNoPair_joinPairs t)

theorem ofString_injective : Function.Injective ofString := fun _ _ h =>
  String.toList_injective (List.map_injective_iff.2 (fun _ _ => Point.ofChar_inj.1) h)

/-- A point that is no half of a pair. -/
def IsWhole (p : Point) : Prop := isHigh p.toNat = false ∧ isLow p.toNat = false

theorem isWhole_ofChar (c : Char) : IsWhole (Point.ofChar c) := by
  have hv := c.valid
  rw [IsWhole, ← Bool.not_eq_true, ← Bool.not_eq_true, isHigh_iff, isLow_iff, Point.toNat_ofChar]
  simp only [UInt32.isValidChar, Nat.isValidChar, Char.toNat] at hv ⊢
  omega

/-- A text of characters has no pair. -/
theorem hasNoPair_ofString (s : String) : HasNoPair (ofString s) := by
  unfold HasNoPair ofString
  rw [List.isChain_map]
  refine (List.pairwise_of_forall fun c _ => ?_).isChain
  rw [isPair, (isWhole_ofChar c).1, Bool.false_and]

end Text

namespace Json.Reader

/-! ## Escapes -/

/-- A hexadecimal digit. -/
def hexPoint (k : Nat) : Point := Point.ofChar k.digitChar

theorem hexValue?_hexPoint {k : Nat} (h : k < 16) : (hexPoint k).hexValue? = some k := by
  interval_cases k <;> rfl

/-- The four digits of a unit. -/
theorem hex_four {n : Nat} (h : n < 0x10000) :
    Text.hex 4 n =
      [hexPoint (n / 4096), hexPoint (n / 256 % 16), hexPoint (n / 16 % 16), hexPoint (n % 16)] := by
  have hd : ∀ m, Nat.toDigits 16 m =
      if m < 16 then [m.digitChar] else Nat.toDigits 16 (m / 16) ++ [(m % 16).digitChar] :=
    fun m => Nat.toDigits_eq_if (by simp)
  unfold Text.hex hexPoint
  rcases lt_or_ge n 16 with h₁ | h₁
  · have e₁ : n / 4096 = 0 := by omega
    have e₂ : n / 256 = 0 := by omega
    have e₃ : n / 16 = 0 := by omega
    rw [hd n, if_pos h₁, e₁, e₂, e₃, Nat.mod_eq_of_lt h₁]
    rfl
  rw [hd n, if_neg (not_lt.2 h₁)]
  rcases lt_or_ge (n / 16) 16 with h₂ | h₂
  · have e₁ : n / 4096 = 0 := by omega
    have e₂ : n / 256 = 0 := by omega
    rw [hd (n / 16), if_pos h₂, e₁, e₂, Nat.mod_eq_of_lt h₂]
    rfl
  rw [hd (n / 16), if_neg (not_lt.2 h₂), Nat.div_div_eq_div_mul]
  rcases lt_or_ge (n / (16 * 16)) 16 with h₃ | h₃
  · have e₁ : n / 4096 = 0 := by omega
    rw [hd (n / (16 * 16)), if_pos h₃, e₁]
    simp [Nat.mod_eq_of_lt h₃]
  · have h₄ : n / (16 * 16) / 16 < 16 := by omega
    have e₁ : n / (16 * 16) / 16 = n / 4096 := by omega
    rw [hd (n / (16 * 16)), if_neg (not_lt.2 h₃), hd (n / (16 * 16) / 16), if_pos h₄, e₁]
    rfl

theorem hex4?_of_lt {n : Nat} (h : n < 0x10000) :
    hex4? (hexPoint (n / 4096)) (hexPoint (n / 256 % 16)) (hexPoint (n / 16 % 16))
      (hexPoint (n % 16)) = some n := by
  unfold hex4?
  rw [hexValue?_hexPoint (by omega), hexValue?_hexPoint (by omega), hexValue?_hexPoint (by omega),
    hexValue?_hexPoint (by omega)]
  simp only [Option.bind_eq_bind, Option.bind_some, Option.pure_def, Option.some.injEq]
  omega

theorem unitEscape_append {n : Nat} (h : n < 0x10000) (u : Text) :
    unitEscape n ++ u = Point.ofChar '\\' :: Point.ofChar 'u' :: hexPoint (n / 4096) ::
      hexPoint (n / 256 % 16) :: hexPoint (n / 16 % 16) :: hexPoint (n % 16) :: u := by
  rw [unitEscape, hex_four h]
  rfl

theorem unitEscape_ne_nil (n : Nat) : unitEscape n ≠ [] := List.cons_ne_nil _ _

variable {opened n m : Nat} {u s rest : Text} {p q : Point}

/-- The escape of a unit that is not joined with what follows. -/
theorem stringBody_unitEscape (h : n < 0x10000) (hu : u ≠ [])
    (ha : (if isHigh n then secondHalf u else .absent) = .absent)
    (hs : stringBody opened u = .ok (s, rest)) :
    stringBody opened (unitEscape n ++ u) = .ok (Point.ofNat n :: s, rest) := by
  have he : u.isEmpty = false := by
    cases u with
    | nil => exact absurd rfl hu
    | cons => rfl
  rw [unitEscape_append h, stringBody, if_neg (by simp), if_pos rfl]
  dsimp only
  rw [if_pos rfl]
  simp only [he, Bool.false_eq_true, if_false, hex4?_of_lt h, ha, hs]
  rfl

theorem secondHalf_unitEscape (h : n < 0x10000) (hu : u ≠ []) :
    secondHalf (unitEscape n ++ u) = if isLow n then .low n else .absent := by
  rw [unitEscape_append h]
  cases u with
  | nil => exact absurd rfl hu
  | cons c u =>
    rw [secondHalf, if_pos ⟨rfl, rfl⟩, hex4?_of_lt h]

/-- The escapes of two halves are read as one point. -/
theorem stringBody_pair (hn : isHigh n = true) (hm : isLow m = true) (hu : u ≠ [])
    (hs : stringBody opened u = .ok (s, rest)) :
    stringBody opened (unitEscape n ++ (unitEscape m ++ u)) = .ok (joinPair n m :: s, rest) := by
  have hn' : n < 0x10000 := by
    rw [Text.isHigh_iff] at hn
    omega
  have hm' : m < 0x10000 := by
    rw [Text.isLow_iff] at hm
    omega
  have hsecond := secondHalf_unitEscape hm' hu
  rw [if_pos hm] at hsecond
  rw [unitEscape_append hm'] at hsecond
  rw [unitEscape_append hm', unitEscape_append hn', stringBody, if_neg (by simp), if_pos rfl]
  dsimp only
  rw [if_pos rfl]
  simp only [List.isEmpty_cons, Bool.false_eq_true, if_false, hex4?_of_lt hn', hn, if_true, hsecond,
    hs]
  rfl

/-! ## Points as they are written -/

/-- The forms of a written point: a letter after a backslash, the point itself, the escape of a unit,
or the escapes of two halves. -/
inductive Written (p : Point) : Text → Prop where
  | letter (e : Char) : e ∈ ['"', '\\', 'n', 'r', 't', 'f', 'b'] → escaped? e = some p → isHigh p.toNat = false →
      isLow p.toNat = false → Written p [Point.ofChar '\\', Point.ofChar e]
  | plain : p ≠ Point.ofChar '"' → p ≠ Point.ofChar '\\' → 0x20 ≤ p.toNat → p.toNat < 0x7F →
      Written p [p]
  | unit : p.toNat < 0x10000 → Written p (unitEscape p.toNat)
  | halves (n m : Nat) : isHigh n = true → isLow m = true → joinPair n m = p →
      0x10000 ≤ p.toNat → Written p (unitEscape n ++ unitEscape m)

theorem written_writePoint (p : Point) : Written p (writePoint p) := by
  unfold writePoint
  split
  · exact ‹p = _› ▸ .letter '"' (by decide) rfl rfl rfl
  split
  · exact ‹p = _› ▸ .letter '\\' (by decide) rfl rfl rfl
  split
  · exact ‹p = _› ▸ .letter 'n' (by decide) rfl rfl rfl
  split
  · exact ‹p = _› ▸ .letter 'r' (by decide) rfl rfl rfl
  split
  · exact ‹p = _› ▸ .letter 't' (by decide) rfl rfl rfl
  split
  · exact ‹p = _› ▸ .letter 'f' (by decide) rfl rfl rfl
  split
  · exact ‹p = _› ▸ .letter 'b' (by decide) rfl rfl rfl
  split
  · rename_i h
    rw [Bool.and_eq_true, decide_eq_true_iff, decide_eq_true_iff] at h
    exact .plain ‹_› ‹_› h.1 h.2
  split
  · exact .unit ‹_›
  · rename_i h
    have hlt := p.isLt
    have hn : isHigh (0xD800 + (p.toNat - 0x10000) / 0x400) = true := by
      rw [Text.isHigh_iff]
      omega
    have hm : isLow (0xDC00 + (p.toNat - 0x10000) % 0x400) = true := by
      rw [Text.isLow_iff]
      omega
    refine .halves _ _ hn hm (Point.toNat_injective ?_) (by omega)
    rw [Text.toNat_joinPair hn hm]
    omega

/-- **A written point is read back** where it is not joined with what follows. -/
theorem Written.stringBody {w : Text} (h : Written p w) (hu : u ≠ [])
    (ha : (if isHigh p.toNat then secondHalf u else .absent) = .absent)
    (hs : Reader.stringBody opened u = .ok (s, rest)) :
    Reader.stringBody opened (w ++ u) = .ok (p :: s, rest) := by
  cases h with
  | letter e he hp =>
    have hu : e ≠ 'u' := by
      rintro rfl
      exact absurd he (by decide)
    have hb : ('\\' : Char) ≠ '"' := by decide
    rw [List.cons_append, List.cons_append, List.nil_append, Reader.stringBody.eq_def]
    simp only [Point.ofChar_inj, hb, if_false, if_true, hu, hp, hs]
    rfl
  | plain hq hb hl =>
    rw [List.singleton_append, Reader.stringBody.eq_def]
    simp only [hq, hb, if_false, Nat.not_lt.2 hl, hs]
    rfl
  | unit hn =>
    rw [stringBody_unitEscape hn hu ha hs, Point.ofNat_toNat]
  | halves n m hn hm hp =>
    rw [List.append_assoc, stringBody_pair hn hm hu hs, hp]

/-- What a written point is to the escape of a high half before it. -/
theorem Written.secondHalf {w : Text} (h : Written p w) (hu : u ≠ []) :
    Reader.secondHalf (w ++ u) = if isLow p.toNat then .low p.toNat else .absent := by
  cases h with
  | letter e he _ _ hl =>
    rw [hl, if_neg Bool.false_ne_true, List.cons_append, List.cons_append, List.nil_append]
    unfold Reader.secondHalf
    split
    · rename_i heq
      cases heq
      rw [if_neg]
      rintro ⟨-, h⟩
      obtain rfl := Point.ofChar_inj.1 h
      exact absurd he (by decide)
    · rfl
  | plain hq hb _ hlt =>
    have hl : isLow p.toNat = false := by
      rw [← Bool.not_eq_true, Text.isLow_iff]
      omega
    rw [hl, if_neg Bool.false_ne_true, List.singleton_append]
    unfold Reader.secondHalf
    split
    · rename_i heq
      cases heq
      rw [if_neg fun h => hb h.1]
    · rfl
  | unit hn => exact secondHalf_unitEscape hn hu
  | halves n m hn hm hp hlt =>
    have hl : isLow p.toNat = false := by
      rw [← Bool.not_eq_true, Text.isLow_iff]
      omega
    have hn' := Text.isHigh_iff.1 hn
    have hln : isLow n = false := by
      rw [← Bool.not_eq_true, Text.isLow_iff]
      omega
    have hne : unitEscape m ++ u ≠ [] := List.append_ne_nil_of_left_ne_nil (unitEscape_ne_nil m) u
    rw [List.append_assoc, secondHalf_unitEscape (by omega) hne, hl, hln, if_neg Bool.false_ne_true,
      if_neg Bool.false_ne_true]

/-- A half is written by its escape. -/
theorem writePoint_of_half (h : isHigh p.toNat = true ∨ isLow p.toNat = true) :
    writePoint p = unitEscape p.toNat := by
  rw [Text.isHigh_iff, Text.isLow_iff] at h
  have hne : ∀ c : Char, c.toNat < 0x80 → p ≠ Point.ofChar c := by
    rintro c hc rfl
    rw [Point.toNat_ofChar] at h
    omega
  unfold writePoint
  rw [if_neg (hne _ (by decide)), if_neg (hne _ (by decide)), if_neg (hne _ (by decide)),
    if_neg (hne _ (by decide)), if_neg (hne _ (by decide)), if_neg (hne _ (by decide)),
    if_neg (hne _ (by decide)), if_neg (by simp; omega), if_pos (by omega)]

theorem stringBody_quote (opened : Nat) (rest : Text) :
    stringBody opened (Point.ofChar '"' :: rest) = .ok ([], rest) := by
  rw [stringBody.eq_def]
  exact if_pos rfl

/-- **A text that is written is read back**, with its pairs joined. -/
theorem stringBody_writeText (opened : Nat) (t rest : Text) :
    stringBody opened (t.flatMap writePoint ++ Point.ofChar '"' :: rest) =
      .ok (t.joinPairs, rest) := by
  match t with
  | [] => exact stringBody_quote opened rest
  | [p] =>
    rw [List.flatMap_singleton]
    refine (written_writePoint p).stringBody (List.cons_ne_nil _ _) ?_ (stringBody_quote opened rest)
    split
    · unfold secondHalf
      split
      · rename_i heq
        cases heq
        rfl
      · rfl
    · rfl
  | p :: q :: t =>
    rw [Text.joinPairs]
    split
    · rename_i hp
      rw [Text.isPair, Bool.and_eq_true] at hp
      rw [List.flatMap_cons, List.flatMap_cons, writePoint_of_half (.inl hp.1),
        writePoint_of_half (.inr hp.2), List.append_assoc, List.append_assoc]
      exact stringBody_pair hp.1 hp.2 (by simp) (stringBody_writeText opened t rest)
    · rename_i hp
      rw [List.flatMap_cons, List.append_assoc]
      refine (written_writePoint p).stringBody (by simp) ?_ (stringBody_writeText opened (q :: t) rest)
      split
      · rename_i hh
        rw [List.flatMap_cons, List.append_assoc, (written_writePoint q).secondHalf (by simp), if_neg]
        exact fun hl => hp (by rw [Text.isPair, hh, hl]; rfl)
      · rfl

/-- A point beyond the first plane is written by the escapes of its halves. -/
theorem writePoint_of_le (h : 0x10000 ≤ p.toNat) :
    writePoint p = unitEscape (0xD800 + (p.toNat - 0x10000) / 0x400) ++
      unitEscape (0xDC00 + (p.toNat - 0x10000) % 0x400) := by
  have hne : ∀ c : Char, c.toNat < 0x80 → p ≠ Point.ofChar c := by
    rintro c hc rfl
    rw [Point.toNat_ofChar] at h
    omega
  unfold writePoint
  rw [if_neg (hne _ (by decide)), if_neg (hne _ (by decide)), if_neg (hne _ (by decide)),
    if_neg (hne _ (by decide)), if_neg (hne _ (by decide)), if_neg (hne _ (by decide)),
    if_neg (hne _ (by decide)), if_neg (by simp; omega), if_neg (by omega)]

/-- **Joined pairs are written as the pairs were.** -/
theorem flatMap_writePoint_joinPairs (t : Text) :
    t.joinPairs.flatMap writePoint = t.flatMap writePoint := by
  match t with
  | [] => rfl
  | [p] => rfl
  | p :: q :: t =>
    rw [Text.joinPairs]
    split
    · rename_i hp
      rw [Text.isPair, Bool.and_eq_true] at hp
      have hj := Text.toNat_joinPair hp.1 hp.2
      have hhigh := Text.isHigh_iff.1 hp.1
      have hlow := Text.isLow_iff.1 hp.2
      have h₁ : 0xD800 + ((joinPair p.toNat q.toNat).toNat - 0x10000) / 0x400 = p.toNat := by omega
      have h₂ : 0xDC00 + ((joinPair p.toNat q.toNat).toNat - 0x10000) % 0x400 = q.toNat := by omega
      rw [List.flatMap_cons, List.flatMap_cons, List.flatMap_cons, flatMap_writePoint_joinPairs t,
        writePoint_of_le (by omega), h₁, h₂, writePoint_of_half (.inl hp.1),
        writePoint_of_half (.inr hp.2), List.append_assoc]
    · rw [List.flatMap_cons, List.flatMap_cons, flatMap_writePoint_joinPairs (q :: t)]

end Json.Reader

end SourceAtlas
