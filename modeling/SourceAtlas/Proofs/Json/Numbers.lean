import SourceAtlas.Json.Reader
import SourceAtlas.Json.Writer
import SourceAtlas.Proofs.Decimal.Shortest
import SourceAtlas.Proofs.Points

/-!
# Numbers read back

The reader of numbers, run on what the writer makes of whole and of floating point numbers.

* `Json.Reader.Ends`: what may follow a number;
* `Json.Reader.SpellsExponent`: the texts of an exponent;
* `Json.Reader.unsignedNumber?_of_fraction`, `unsignedNumber?_of_exponent`: the forms of a number;
* **`Json.Reader.atom_ofInt`**, **`Json.Reader.atom_writeFloat`**: every number that is written is
  read back.
-/

namespace SourceAtlas.Json.Reader

/-! ## Digits -/

/-- What may follow a number: nothing, or a point that cannot be part of one. -/
def Ends (rest : Text) : Prop :=
  ∀ c ∈ rest.head?, c.isDigit = false ∧ c ≠ Point.ofChar '.' ∧ c ≠ Point.ofChar 'e' ∧
    c ≠ Point.ofChar 'E'

/-- What may follow a run of digits. -/
def EndsDigits (rest : Text) : Prop := ∀ c ∈ rest.head?, c.isDigit = false

variable {ds es : List Char} {rest : Text} {negative : Bool}

theorem Ends.endsDigits (h : Ends rest) : EndsDigits rest := fun c hc => (h c hc).1

theorem endsDigits_cons {c : Char} (h : c.isDigit = false) : EndsDigits (Point.ofChar c :: rest) := by
  intro d hd
  cases hd
  rw [Point.isDigit_ofChar, h]

theorem takeDigits_append (hd : ∀ d ∈ ds, d.isDigit = true) (hr : EndsDigits rest) :
    takeDigits (ds.map Point.ofChar ++ rest) = (ds.map Point.ofChar, rest) := by
  have hall : ∀ p ∈ ds.map Point.ofChar, p.isDigit = true := by
    intro p hp
    obtain ⟨d, hm, rfl⟩ := List.mem_map.1 hp
    rw [Point.isDigit_ofChar, hd d hm]
  unfold takeDigits
  rw [List.takeWhile_append_of_pos hall, List.dropWhile_append_of_pos hall]
  cases rest with
  | nil => simp
  | cons c rest =>
    have hc := hr c rfl
    rw [List.takeWhile_cons_of_neg (by simp [hc]), List.dropWhile_cons_of_neg (by simp [hc]),
      List.append_nil]

theorem digitsValue_ofChar (ds : List Char) :
    digitsValue (ds.map Point.ofChar) = Nat.ofDigitChars 10 ds 0 := by
  unfold digitsValue
  rw [Nat.ofDigitChars_eq_foldl, List.foldl_map]
  congr 1
  funext n d
  rw [Point.toNat_ofChar, Nat.mul_comm]
  rfl

/-! ## Parts of a number -/

/-- The digits of a whole part: zero alone, or digits that do not start with zero. -/
def IsWhole (ds : List Char) : Prop :=
  ds = ['0'] ∨ ∃ c es, ds = c :: es ∧ c ≠ '0' ∧ ∀ d ∈ ds, d.isDigit = true

theorem IsWhole.isDigit (h : IsWhole ds) : ∀ d ∈ ds, d.isDigit = true := by
  rcases h with rfl | ⟨c, es, -, -, hd⟩
  · simp
  · exact hd

theorem isWhole_toDigits (n : Nat) : IsWhole (Nat.toDigits 10 n) := by
  rcases Nat.eq_zero_or_pos n with rfl | hn
  · exact .inl (Nat.toDigits_zero 10)
  · obtain ⟨c, es, h, hc⟩ := Shortest.head_toDigits hn
    exact .inr ⟨c, es, h, hc, fun d hd => Nat.isDigit_of_mem_toDigits (by simp) (by simp) hd⟩

theorem wholePart?_append (h : IsWhole ds) (hr : EndsDigits rest) :
    wholePart? (ds.map Point.ofChar ++ rest) = some (ds.map Point.ofChar, rest) := by
  rcases h with rfl | ⟨c, es, rfl, hc, hd⟩
  · rfl
  · have ht := takeDigits_append hd hr
    rw [List.map_cons, List.cons_append] at ht ⊢
    rw [wholePart?, if_neg (by simpa using hc), if_pos (by simpa using hd c List.mem_cons_self), ht]

theorem fraction?_append (hne : ds ≠ []) (hd : ∀ d ∈ ds, d.isDigit = true) (hr : EndsDigits rest) :
    fraction? (Point.ofChar '.' :: (ds.map Point.ofChar ++ rest)) =
      some (ds.map Point.ofChar, rest) := by
  rw [fraction?, takeDigits_append hd hr]
  simp [hne]

theorem fraction?_of_ne {c : Point} (h : c ≠ Point.ofChar '.') : fraction? (c :: rest) = none := by
  simp [fraction?, h]

theorem Ends.fraction? (h : Ends rest) : fraction? rest = none := by
  cases rest with
  | nil => rfl
  | cons c rest => exact fraction?_of_ne (h c rfl).2.1

theorem Ends.exponent? (h : Ends rest) : exponent? rest = none := by
  cases rest with
  | nil => rfl
  | cons c rest => simp [Reader.exponent?, (h c rfl).2.2]

/-- The texts of an exponent: its letter, perhaps a sign, and digits. -/
inductive SpellsExponent : Text → Int → Prop where
  | unsigned {letter : Char} {ds : List Char} : letter ∈ ['e', 'E'] → ds ≠ [] →
      (∀ d ∈ ds, d.isDigit = true) →
      SpellsExponent (Point.ofChar letter :: ds.map Point.ofChar) (Nat.ofDigitChars 10 ds 0)
  | plus {letter : Char} {ds : List Char} : letter ∈ ['e', 'E'] → ds ≠ [] →
      (∀ d ∈ ds, d.isDigit = true) →
      SpellsExponent (Point.ofChar letter :: Point.ofChar '+' :: ds.map Point.ofChar)
        (Nat.ofDigitChars 10 ds 0)
  | minus {letter : Char} {ds : List Char} : letter ∈ ['e', 'E'] → ds ≠ [] →
      (∀ d ∈ ds, d.isDigit = true) →
      SpellsExponent (Point.ofChar letter :: Point.ofChar '-' :: ds.map Point.ofChar)
        (-(Nat.ofDigitChars 10 ds 0 : Int))

/-- An exponent is read. -/
theorem SpellsExponent.exponent? {x : Text} {e : Int} (h : SpellsExponent x e)
    (hr : EndsDigits rest) : exponent? (x ++ rest) = some (e, rest) := by
  have hletter : ∀ letter ∈ ['e', 'E'],
      Point.ofChar letter = Point.ofChar 'e' ∨ Point.ofChar letter = Point.ofChar 'E' := by simp
  cases h with
  | @unsigned letter ds hl hne hd =>
    obtain ⟨c, ds, rfl⟩ := List.exists_cons_of_ne_nil hne
    have hc := hd c List.mem_cons_self
    have hminus : Point.ofChar c ≠ Point.ofChar '-' := by
      rw [Ne, Point.ofChar_inj]
      rintro rfl
      cases hc
    have hplus : Point.ofChar c ≠ Point.ofChar '+' := by
      rw [Ne, Point.ofChar_inj]
      rintro rfl
      cases hc
    have ht := takeDigits_append hd hr
    rw [List.map_cons, List.cons_append] at ht
    rw [List.map_cons, List.cons_append, List.cons_append, Reader.exponent?, if_pos (hletter _ hl)]
    simp only [hminus, hplus, if_false, ht, ← List.map_cons, digitsValue_ofChar]
    rfl
  | @plus letter ds hl hne hd =>
    have hm : ('+' : Char) ≠ '-' := by decide
    rw [List.cons_append, List.cons_append, Reader.exponent?, if_pos (hletter _ hl)]
    simp only [Point.ofChar_inj, hm, if_false, if_true, takeDigits_append hd hr,
      List.map_eq_nil_iff, hne, digitsValue_ofChar]
    rfl
  | @minus letter ds hl hne hd =>
    rw [List.cons_append, List.cons_append, Reader.exponent?, if_pos (hletter _ hl)]
    simp only [if_true, takeDigits_append hd hr, List.map_eq_nil_iff, hne, if_false,
      digitsValue_ofChar]

theorem SpellsExponent.exists_cons {x : Text} {e : Int} (h : SpellsExponent x e) :
    ∃ letter ∈ ['e', 'E'], ∃ r, x = Point.ofChar letter :: r := by
  cases h with
  | unsigned hl | plus hl | minus hl => exact ⟨_, hl, _, rfl⟩

/-- The exponent part is written as an exponent. -/
theorem spellsExponent_exponentText (e : Int) : SpellsExponent (Binary64.exponentText e) e := by
  have hletter : 'e' ∈ ['e', 'E'] := by decide
  let digits := Nat.toDigits 10 e.natAbs
  let padded := if digits.length < 2 then '0' :: digits else digits
  have hd : ∀ d ∈ padded, d.isDigit = true := by
    have hds : ∀ d ∈ digits, d.isDigit = true :=
      fun d h => Nat.isDigit_of_mem_toDigits (by simp) (by simp) h
    intro d h
    by_cases hl : digits.length < 2
    · rw [show padded = '0' :: digits from if_pos hl] at h
      rcases List.mem_cons.1 h with rfl | h
      · rfl
      · exact hds d h
    · rw [show padded = digits from if_neg hl] at h
      exact hds d h
  have hv : Nat.ofDigitChars 10 padded 0 = e.natAbs := by
    by_cases hl : digits.length < 2
    · rw [show padded = '0' :: digits from if_pos hl, Nat.ofDigitChars_cons]
      exact Nat.ofDigitChars_ten_toDigits
    · rw [show padded = digits from if_neg hl]
      exact Nat.ofDigitChars_ten_toDigits
  have hne : padded ≠ [] := by
    intro h
    by_cases hl : digits.length < 2
    · rw [show padded = '0' :: digits from if_pos hl] at h
      cases h
    · rw [show padded = digits from if_neg hl] at h
      exact Nat.toDigits_ne_nil h
  by_cases he : e < 0
  · have ht : Binary64.exponentText e =
        Point.ofChar 'e' :: Point.ofChar '-' :: padded.map Point.ofChar := by
      unfold Binary64.exponentText
      rw [if_pos he]
      rfl
    have hs := SpellsExponent.minus hletter hne hd
    rwa [← ht, hv, show -(e.natAbs : Int) = e by omega] at hs
  · have ht : Binary64.exponentText e =
        Point.ofChar 'e' :: Point.ofChar '+' :: padded.map Point.ofChar := by
      unfold Binary64.exponentText
      rw [if_neg he]
      rfl
    have hs := SpellsExponent.plus hletter hne hd
    rwa [← ht, hv, show (e.natAbs : Int) = e by omega] at hs

/-! ## Forms of a number -/

/-- A number that is whole. -/
theorem unsignedNumber?_of_whole (negative : Bool) (hw : IsWhole ds) (hl : ds.length ≤ maxDigits)
    (hr : Ends rest) :
    unsignedNumber? negative (ds.map Point.ofChar ++ rest) =
      some (.ok (.int (if negative then -(Nat.ofDigitChars 10 ds 0 : Int)
        else Nat.ofDigitChars 10 ds 0), rest)) := by
  unfold unsignedNumber?
  rw [wholePart?_append hw hr.endsDigits]
  simp only [Option.map_some, hr.fraction?, Option.getD_none, hr.exponent?, if_true,
    List.length_map, Nat.not_lt.2 hl, if_false, digitsValue_ofChar]

/-- A number with decimals. -/
theorem unsignedNumber?_of_fraction (negative : Bool) (hw : IsWhole ds) (hne : es ≠ [])
    (hd : ∀ d ∈ es, d.isDigit = true) (hr : Ends rest) :
    unsignedNumber? negative
        (ds.map Point.ofChar ++ Point.ofChar '.' :: (es.map Point.ofChar ++ rest)) =
      some (.ok (.float (.ofDecimal negative (Nat.ofDigitChars 10 (ds ++ es) 0) (-es.length)),
        rest)) := by
  have hes : es.map Point.ofChar ≠ [] := by simpa using hne
  unfold unsignedNumber?
  rw [wholePart?_append hw (endsDigits_cons rfl)]
  simp only [Option.map_some, fraction?_append hne hd hr.endsDigits, Option.getD_some,
    hr.exponent?, hes, if_false, ← List.map_append, digitsValue_ofChar, List.length_map]

/-- A number with an exponent. -/
theorem unsignedNumber?_of_exponent (negative : Bool) (hw : IsWhole ds)
    (hd : ∀ d ∈ es, d.isDigit = true) {x : Text} {e : Int} (hx : SpellsExponent x e)
    (hr : EndsDigits rest) :
    unsignedNumber? negative
        (ds.map Point.ofChar ++ ((if es = [] then [] else Point.ofChar '.' :: es.map Point.ofChar) ++
          (x ++ rest))) =
      some (.ok (.float (.ofDecimal negative (Nat.ofDigitChars 10 (ds ++ es) 0) (e - es.length)),
        rest)) := by
  have hexp := hx.exponent? hr
  obtain ⟨letter, hl, r, rfl⟩ := hx.exists_cons
  have hdigit : ∀ letter ∈ ['e', 'E'], letter.isDigit = false := by simp
  have hpoint : ∀ letter ∈ ['e', 'E'], Point.ofChar letter ≠ Point.ofChar '.' := by simp
  have hends : EndsDigits (Point.ofChar letter :: r ++ rest) := endsDigits_cons (hdigit letter hl)
  have hne := hpoint letter hl
  unfold unsignedNumber?
  by_cases hes : es = []
  · subst hes
    rw [if_pos rfl, List.nil_append, wholePart?_append hw hends]
    simp only [Option.map_some, List.cons_append, fraction?_of_ne hne, Option.getD_none]
    rw [List.cons_append] at hexp
    simp only [hexp, List.append_nil, digitsValue_ofChar, List.length_nil]
  · rw [if_neg hes, List.cons_append, wholePart?_append hw (endsDigits_cons rfl)]
    simp only [Option.map_some, fraction?_append hes hd hends, Option.getD_some, hexp,
      ← List.map_append, digitsValue_ofChar, List.length_map]

/-! ## Atoms -/

theorem ofChar_ne_of_isDigit {c d : Char} (hc : c.isDigit = true) (hd : d.isDigit = false) :
    Point.ofChar c ≠ Point.ofChar d := by
  rw [Ne, Point.ofChar_inj]
  rintro rfl
  rw [hc] at hd
  cases hd

/-- A text that starts with a digit is read as a number. -/
theorem atom_of_digit {c : Char} {t : Text} {result : Except ReadError (Json × Text)}
    (hc : c.isDigit = true) (h : unsignedNumber? false (Point.ofChar c :: t) = some result) :
    atom (Point.ofChar c :: t) = result := by
  have hne : ∀ d : Char, d.isDigit = false → ∀ p : Text,
      Text.after? (Point.ofChar c :: t) (Point.ofChar d :: p) = none :=
    fun d hd p => Text.after?_of_ne (ofChar_ne_of_isDigit hc hd)
  have hwords : ∀ w ∈ [("null" : Text), "true", "false", "NaN", "Infinity", "-Infinity"],
      Text.after? (Point.ofChar c :: t) w = none := by
    simp only [List.forall_mem_cons, List.not_mem_nil, false_implies, implies_true, and_true]
    exact ⟨hne 'n' rfl _, hne 't' rfl _, hne 'f' rfl _, hne 'N' rfl _, hne 'I' rfl _, hne '-' rfl _⟩
  simp only [List.forall_mem_cons] at hwords
  obtain ⟨h₁, h₂, h₃, h₄, h₅, h₆, -⟩ := hwords
  simp only [atom, h₁, h₂, h₃, h₄, h₅, h₆, ofChar_ne_of_isDigit hc (d := '-') rfl, if_false, h]

/-- A text that starts with a minus sign and a digit is read as a number. -/
theorem atom_of_minus {c : Char} {t : Text} {result : Except ReadError (Json × Text)}
    (hc : c.isDigit = true) (h : unsignedNumber? true (Point.ofChar c :: t) = some result) :
    atom (Point.ofChar '-' :: Point.ofChar c :: t) = result := by
  have hne : ∀ d : Char, d ≠ '-' → ∀ p : Text,
      Text.after? (Point.ofChar '-' :: Point.ofChar c :: t) (Point.ofChar d :: p) = none :=
    fun d hd p => Text.after?_of_ne fun e => hd (Point.ofChar_inj.1 e).symm
  have hwords : ∀ w ∈ [("null" : Text), "true", "false", "NaN", "Infinity"],
      Text.after? (Point.ofChar '-' :: Point.ofChar c :: t) w = none := by
    simp only [List.forall_mem_cons, List.not_mem_nil, false_implies, implies_true, and_true]
    exact ⟨hne 'n' (by decide) _, hne 't' (by decide) _, hne 'f' (by decide) _,
      hne 'N' (by decide) _, hne 'I' (by decide) _⟩
  have hlast : Text.after? (Point.ofChar '-' :: Point.ofChar c :: t) "-Infinity" = none := by
    have hi : Text.after? (Point.ofChar c :: t) "Infinity" = none :=
      Text.after?_of_ne (ofChar_ne_of_isDigit hc (d := 'I') rfl)
    exact (if_pos rfl).trans hi
  simp only [List.forall_mem_cons] at hwords
  obtain ⟨h₁, h₂, h₃, h₄, h₅, -⟩ := hwords
  simp only [atom, h₁, h₂, h₃, h₄, h₅, hlast, if_true, h]

/-- A number, with a minus sign or without a sign. -/
theorem atom_signed (negative : Bool) {c : Char} {t : Text}
    {result : Except ReadError (Json × Text)} (hc : c.isDigit = true)
    (h : unsignedNumber? negative (Point.ofChar c :: t) = some result) :
    atom ((if negative then [Point.ofChar '-'] else []) ++ Point.ofChar c :: t) = result := by
  cases negative with
  | true => exact atom_of_minus hc h
  | false => exact atom_of_digit hc h

/-- **A whole number is read back**, unless it has too many digits. -/
theorem atom_ofInt (n : Int) (hl : (Nat.toDigits 10 n.natAbs).length ≤ maxDigits) (hr : Ends rest) :
    atom (Text.ofInt n ++ rest) = .ok (.int n, rest) := by
  obtain ⟨c, es, hds⟩ := List.exists_cons_of_ne_nil (Nat.toDigits_ne_nil (n := n.natAbs) (b := 10))
  have hdigit : c.isDigit = true :=
    Nat.isDigit_of_mem_toDigits (b := 10) (n := n.natAbs) (by simp) (by simp)
      (by rw [hds]; exact List.mem_cons_self)
  have hu := unsignedNumber?_of_whole (decide (n < 0)) (isWhole_toDigits n.natAbs) hl hr
  rw [Nat.ofDigitChars_ten_toDigits] at hu
  have ht : Text.ofInt n ++ rest = (if decide (n < 0) then [Point.ofChar '-'] else []) ++
      ((Nat.toDigits 10 n.natAbs).map Point.ofChar ++ rest) := by
    cases n with
    | ofNat k =>
      have hk : ¬ Int.ofNat k < 0 := Int.not_lt.2 (Int.natCast_nonneg k)
      rw [decide_eq_false hk]
      rfl
    | negSucc k =>
      rw [decide_eq_true (Int.negSucc_lt_zero k)]
      rfl
  have hn : (if decide (n < 0) then -(n.natAbs : Int) else (n.natAbs : Int)) = n := by
    by_cases h : n < 0
    · simp only [h, decide_true, if_true]
      omega
    · simp only [h, decide_false, Bool.false_eq_true, if_false]
      omega
  rw [hn, hds] at hu
  rw [ht, hds]
  exact atom_signed _ hdigit hu

/-! ## Floating point numbers -/

theorem ofDigitChars_zeros (n : Nat) (ds : List Char) :
    Nat.ofDigitChars 10 (List.replicate n '0' ++ ds) 0 = Nat.ofDigitChars 10 ds 0 := by
  rw [Nat.ofDigitChars_append, Nat.ofDigitChars_replicate_zero, Nat.mul_zero]

/-- **Digits with the point at its place** are a whole part and decimals of the same value. -/
theorem exists_positional {c : Char} (hc : c ≠ '0') (hd : ∀ d ∈ c :: ds, d.isDigit = true)
    (point : Int) :
    ∃ ws es, Binary64.positional (c :: ds) point =
        ws.map Point.ofChar ++ Point.ofChar '.' :: es.map Point.ofChar ∧
      IsWhole ws ∧ es ≠ [] ∧ (∀ d ∈ es, d.isDigit = true) ∧
      (Nat.ofDigitChars 10 (ws ++ es) 0 : ℚ) * 10 ^ (-(es.length : Int)) =
        Nat.ofDigitChars 10 (c :: ds) 0 * 10 ^ (point - (c :: ds).length) := by
  unfold Binary64.positional
  dsimp only
  rcases le_or_gt point 0 with hp | hp
  · refine ⟨['0'], List.replicate (-point).toNat '0' ++ c :: ds, ?_, .inl rfl, by simp, ?_, ?_⟩
    · rw [if_pos hp, List.map_append, List.map_replicate]
      rfl
    · intro d hm
      rcases List.mem_append.1 hm with hm | hm
      · rw [List.eq_of_mem_replicate hm]
        rfl
      · exact hd d hm
    · rw [← List.append_assoc, ← List.replicate_one, List.replicate_append_replicate,
        ofDigitChars_zeros, List.length_append, List.length_replicate]
      congr 2
      push_cast
      omega
  · rw [if_neg (not_le.2 hp)]
    rcases le_or_gt ((c :: ds).length : Int) point with hl | hl
    · refine ⟨c :: ds ++ List.replicate (point - (c :: ds).length).toNat '0', ['0'], ?_, ?_, by simp,
        by simp, ?_⟩
      · rw [if_pos hl, List.map_append, List.map_replicate, List.append_assoc, List.append_assoc]
        rfl
      · refine .inr ⟨c, _, rfl, hc, fun d hm => ?_⟩
        rcases List.mem_append.1 hm with hm | hm
        · exact hd d hm
        · rw [List.eq_of_mem_replicate hm]
          rfl
      · obtain ⟨zeros, hk⟩ : ∃ zeros : Nat, point - (c :: ds).length = zeros :=
          ⟨(point - (c :: ds).length).toNat, by omega⟩
        have hz : '0'.toNat - '0'.toNat = 0 := rfl
        rw [hk, Int.toNat_natCast, Nat.ofDigitChars_append, Nat.ofDigitChars_append,
          Nat.ofDigitChars_replicate_zero, Nat.ofDigitChars_cons, Nat.ofDigitChars_nil, hz,
          List.length_singleton, Nat.cast_one, zpow_neg_one, zpow_natCast]
        push_cast
        field_simp
        ring
    · obtain ⟨p, rfl⟩ : ∃ p : Nat, point = p + 1 := ⟨(point - 1).toNat, by omega⟩
      have hp : ((p : Int) + 1).toNat = p + 1 := by omega
      have hlt : p < ds.length := by
        rw [List.length_cons] at hl
        omega
      refine ⟨c :: ds.take p, ds.drop p, ?_, ?_, ?_, ?_, ?_⟩
      · rw [if_neg (not_le.2 hl), hp, ← List.map_take, ← List.map_drop,
          List.append_assoc]
        rfl
      · refine .inr ⟨c, _, rfl, hc, fun d hm => hd d ?_⟩
        rcases List.mem_cons.1 hm with rfl | hm
        · exact List.mem_cons_self
        · exact List.mem_cons_of_mem c (List.mem_of_mem_take hm)
      · intro h
        rw [List.drop_eq_nil_iff] at h
        omega
      · exact fun d hm => hd d (List.mem_cons_of_mem c (List.mem_of_mem_drop hm))
      · rw [List.cons_append, List.take_append_drop, List.length_drop, List.length_cons]
        congr 2
        omega

/-- A positive number by its digits and the place of the point. -/
def magnitudeText (ds : List Char) (point : Int) : Text :=
  let t := ds.map Point.ofChar
  if -4 < point ∧ point ≤ 16 then Binary64.positional ds point
  else (if t.length ≤ 1 then t else t.take 1 ++ "." ++ t.drop 1) ++ Binary64.exponentText (point - 1)

theorem text_finite {m : Nat} {q : Int} (h : Binary64.Fits m q) :
    (Binary64.finite negative m q h).text = (if negative then [Point.ofChar '-'] else []) ++
      if m = 0 then Text.ofString "0.0"
      else magnitudeText (Shortest.digits m q).1 (Shortest.digits m q).2 := by
  have hs : (if negative then Text.ofString "-" else []) =
      if negative then [Point.ofChar '-'] else [] := by
    cases negative <;> rfl
  unfold Binary64.text magnitudeText
  dsimp only
  rw [hs]
  split
  · rfl
  · split
    · rfl
    · rw [List.append_assoc]

/-- The digits of a positive number are read back as the number, whatever its sign. -/
theorem unsignedNumber?_magnitudeText (negative : Bool) {m : Nat} {q : Int} (h : Binary64.Fits m q)
    (hm : 0 < m) (hr : Ends rest) :
    ∃ c t, magnitudeText (Shortest.digits m q).1 (Shortest.digits m q).2 ++ rest =
        Point.ofChar c :: t ∧ c.isDigit = true ∧
      unsignedNumber? negative (Point.ofChar c :: t) =
        some (.ok (.float (.finite negative m q h), rest)) := by
  obtain ⟨c, ds, hds, hc, hd, hrounds⟩ := Shortest.digits_spec h hm
  generalize Shortest.digits m q = found at hds hrounds ⊢
  obtain ⟨ds', point⟩ := found
  obtain rfl : ds' = c :: ds := hds
  dsimp only [magnitudeText] at hrounds ⊢
  by_cases hp : -4 < point ∧ point ≤ 16
  · obtain ⟨ws, es, heq, hw, hne, he, hv⟩ := exists_positional hc hd point
    rw [← hv] at hrounds
    have hu := unsignedNumber?_of_fraction negative hw hne he hr
    rw [Binary64.ofDecimal_eq negative h hm hrounds] at hu
    obtain ⟨w, ws, rfl⟩ : ∃ w vs, ws = w :: vs := by
      rcases hw with rfl | ⟨w, vs, rfl, -⟩
      · exact ⟨_, _, rfl⟩
      · exact ⟨_, _, rfl⟩
    rw [if_pos hp, heq, List.append_assoc]
    exact ⟨w, _, rfl, hw.isDigit w List.mem_cons_self, hu⟩
  · have hw : IsWhole [c] := .inr ⟨c, [], rfl, hc, fun d hm => by
      rw [List.mem_singleton.1 hm]
      exact hd c List.mem_cons_self⟩
    have hu := unsignedNumber?_of_exponent negative hw (fun d hm => hd d (List.mem_cons_of_mem c hm))
      (spellsExponent_exponentText (point - 1)) hr.endsDigits
    have hexp : point - 1 - (ds.length : Int) = point - (c :: ds).length := by
      rw [List.length_cons]
      push_cast
      omega
    rw [List.singleton_append, hexp, Binary64.ofDecimal_eq negative h hm hrounds] at hu
    rw [if_neg hp]
    refine ⟨c, _, ?_, hd c List.mem_cons_self, hu⟩
    cases ds with
    | nil => rfl
    | cons d ds =>
      simp
      rfl

/-- **A floating point number is read back.** -/
theorem atom_writeFloat (x : Binary64) (hr : Ends rest) :
    atom (writeFloat x ++ rest) = .ok (.float x, rest) := by
  cases x with
  | nan => simp [writeFloat, atom, Text.ofString, Text.after?]
  | infinite negative => cases negative <;> simp [writeFloat, atom, Text.ofString, Text.after?]
  | finite negative m q h =>
    have ht : writeFloat (.finite negative m q h) = Binary64.text (.finite negative m q h) := rfl
    rw [ht, text_finite, List.append_assoc]
    rcases Nat.eq_zero_or_pos m with rfl | hm
    · obtain rfl : q = -1074 := h.normal.resolve_left (by simp [pow2_eq])
      have hu := unsignedNumber?_of_fraction negative (.inl rfl) (List.cons_ne_nil '0' [])
        (by simp) hr
      rw [if_pos rfl]
      exact atom_signed negative (c := '0') rfl hu
    · obtain ⟨c, t, heq, hc, hu⟩ := unsignedNumber?_magnitudeText negative h hm hr
      rw [if_neg (Nat.pos_iff_ne_zero.1 hm), heq]
      exact atom_signed negative hc hu

/-! ## Starts -/

theorem start_ofNat (n : Nat) : ∃ c r, Text.ofNat n = Point.ofChar c :: r ∧ c.isDigit = true := by
  obtain ⟨c, es, hds⟩ := List.exists_cons_of_ne_nil (Nat.toDigits_ne_nil (n := n) (b := 10))
  refine ⟨c, es.map Point.ofChar, by rw [Text.ofNat, hds]; rfl, ?_⟩
  exact Nat.isDigit_of_mem_toDigits (b := 10) (n := n) (by simp) (by simp)
    (by rw [hds]; exact List.mem_cons_self)

theorem start_ofInt (n : Int) :
    ∃ c r, Text.ofInt n = Point.ofChar c :: r ∧ (c.isDigit = true ∨ c = '-') := by
  cases n with
  | ofNat n =>
    obtain ⟨c, r, h, hc⟩ := start_ofNat n
    exact ⟨c, r, h, .inl hc⟩
  | negSucc n => exact ⟨'-', Text.ofNat (n + 1), rfl, .inr rfl⟩

theorem start_writeFloat (x : Binary64) :
    ∃ c r, writeFloat x = Point.ofChar c :: r ∧
      (c.isDigit = true ∨ c = '-' ∨ c = 'N' ∨ c = 'I') := by
  cases x with
  | nan => exact ⟨'N', _, rfl, by simp⟩
  | infinite negative =>
    cases negative with
    | true => exact ⟨'-', _, rfl, by simp⟩
    | false => exact ⟨'I', _, rfl, by simp⟩
  | finite negative m q h =>
    have ht : writeFloat (.finite negative m q h) = Binary64.text (.finite negative m q h) := rfl
    rw [ht, text_finite]
    cases negative with
    | true => exact ⟨'-', _, rfl, by simp⟩
    | false =>
      rcases Nat.eq_zero_or_pos m with rfl | hm
      · exact ⟨'0', _, rfl, .inl rfl⟩
      · obtain ⟨c, t, heq, hc, -⟩ :=
          @unsignedNumber?_magnitudeText [] false m q h hm (by simp [Ends])
        rw [List.append_nil] at heq
        rw [if_neg (Nat.pos_iff_ne_zero.1 hm), heq]
        exact ⟨c, t, rfl, .inl hc⟩

end SourceAtlas.Json.Reader
