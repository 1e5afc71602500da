import SourceAtlas.Proofs.Affixes
import SourceAtlas.Proofs.Json.Grammar

/-!
# Strings, words and numbers

The grammar of what a JSON text is made of besides its marks, and the reader's agreement with it: it
takes each text of the grammar, and all that it takes is of the grammar.

* `Json.SpellsBody`: what stands between the quotes of a string;
* `Json.SpellsAtom`: words and numbers;
* `Json.IntegerAt`: a text that starts with a whole number;
* **`Json.SpellsBody.spellsText`**, **`Json.exists_spellsBody`**: strings in both directions;
* **`Json.SpellsAtom.isAtom`**, **`Json.takesAtom_atom`**: words and numbers in both directions.
-/

namespace SourceAtlas.Json

open Reader (Ends EndsDigits IsWhole SpellsExponent escaped? hex4? isHigh isLow joinPair)

/-! ## Strings -/

/-- The text starts with the escape of a low half. -/
def StartsLow (b : Text) : Prop := ∃ (l₁ l₂ l₃ l₄ : Point) (r : Text) (m : Nat),
  b = Point.ofChar '\\' :: Point.ofChar 'u' :: l₁ :: l₂ :: l₃ :: l₄ :: r ∧
    hex4? l₁ l₂ l₃ l₄ = some m ∧ isLow m = true

/-- What stands between the quotes of a string, and the text that it spells: points, letters and units
after a backslash, where the units of two halves are one point. -/
inductive SpellsBody : Text → Text → Prop where
  | nil : SpellsBody [] []
  | plain {c : Point} {b s : Text} : c ≠ Point.ofChar '"' → c ≠ Point.ofChar '\\' →
      0x20 ≤ c.toNat → SpellsBody b s → SpellsBody (c :: b) (c :: s)
  | letter {e d : Point} {b s : Text} : escaped? e = some d → SpellsBody b s →
      SpellsBody (Point.ofChar '\\' :: e :: b) (d :: s)
  | unit {h₁ h₂ h₃ h₄ : Point} {n : Nat} {b s : Text} : hex4? h₁ h₂ h₃ h₄ = some n →
      (isHigh n = true → ¬ StartsLow b) → SpellsBody b s →
      SpellsBody (Point.ofChar '\\' :: Point.ofChar 'u' :: h₁ :: h₂ :: h₃ :: h₄ :: b)
        (Point.ofNat n :: s)
  | pair {h₁ h₂ h₃ h₄ l₁ l₂ l₃ l₄ : Point} {n m : Nat} {b s : Text} :
      hex4? h₁ h₂ h₃ h₄ = some n → isHigh n = true → hex4? l₁ l₂ l₃ l₄ = some m →
      isLow m = true → SpellsBody b s →
      SpellsBody (Point.ofChar '\\' :: Point.ofChar 'u' :: h₁ :: h₂ :: h₃ :: h₄ ::
        Point.ofChar '\\' :: Point.ofChar 'u' :: l₁ :: l₂ :: l₃ :: l₄ :: b) (joinPair n m :: s)

variable {b s t u rest : Text} {v : Json} {n : Nat}

/-- After the escape of a high half, what does not start with the escape of a low one stands for
itself. -/
theorem SpellsBody.secondHalf (h : SpellsBody b s) (hl : ¬ StartsLow b) (rest : Text) :
    Reader.secondHalf (b ++ Point.ofChar '"' :: rest) = .absent := by
  have hother : ∀ {c : Point} (r : Text), c ≠ Point.ofChar '\\' →
      Reader.secondHalf (c :: r) = .absent := by
    intro c r hc
    unfold Reader.secondHalf
    split
    · rename_i heq
      cases heq
      rw [if_neg fun h => hc h.1]
    · rfl
  cases h with
  | nil => exact hother _ (by simp)
  | plain _ hc => exact hother _ hc
  | @letter e d b s he =>
    have hu : e ≠ Point.ofChar 'u' := by
      rintro rfl
      cases he
    rw [List.cons_append, List.cons_append]
    generalize b ++ Point.ofChar '"' :: rest = r
    unfold Reader.secondHalf
    split
    · rename_i heq
      cases heq
      rw [if_neg fun h => hu h.2]
    · rfl
  | @unit h₁ h₂ h₃ h₄ n b s hn =>
    have hlow : isLow n ≠ true := fun hm => hl ⟨_, _, _, _, _, _, rfl, hn, hm⟩
    obtain ⟨c, r, hr⟩ : ∃ c r, b ++ Point.ofChar '"' :: rest = c :: r :=
      List.exists_cons_of_ne_nil (by simp)
    simp only [List.cons_append, hr]
    rw [Reader.secondHalf, if_pos ⟨rfl, rfl⟩, hn]
    exact if_neg hlow
  | @pair h₁ h₂ h₃ h₄ l₁ l₂ l₃ l₄ n m b s hn hh =>
    have hlow : isLow n ≠ true := fun hm => hl ⟨_, _, _, _, _, _, rfl, hn, hm⟩
    simp only [List.cons_append]
    rw [Reader.secondHalf, if_pos ⟨rfl, rfl⟩, hn]
    exact if_neg hlow

/-- **A string of the grammar is read.** -/
theorem SpellsBody.spellsText (h : SpellsBody b s) : SpellsText b s := by
  intro opened rest
  induction h with
  | nil => exact Reader.stringBody_quote opened rest
  | @plain c b s hq hb hc _ ih =>
    rw [List.cons_append, Reader.stringBody.eq_def]
    simp only [hq, hb, if_false, Nat.not_lt.2 hc, ih]
    rfl
  | @letter e d b s he _ ih =>
    have hu : e ≠ Point.ofChar 'u' := by
      rintro rfl
      cases he
    have hq : ('\\' : Char) ≠ '"' := by decide
    rw [List.cons_append, List.cons_append, Reader.stringBody.eq_def]
    simp only [Point.ofChar_inj, hq, if_false, if_true, hu, he, ih]
    rfl
  | @unit h₁ h₂ h₃ h₄ n b s hn hl hs ih =>
    have hq : ('\\' : Char) ≠ '"' := by decide
    have he : (b ++ Point.ofChar '"' :: rest).isEmpty = false := by simp
    have ha : (if isHigh n then Reader.secondHalf (b ++ Point.ofChar '"' :: rest)
        else .absent) = .absent := by
      split
      · exact hs.secondHalf (hl ‹_›) rest
      · rfl
    simp only [List.cons_append]
    rw [Reader.stringBody.eq_def]
    simp only [Point.ofChar_inj, hq, if_false, if_true, he, Bool.false_eq_true, hn, ha, ih]
    rfl
  | @pair h₁ h₂ h₃ h₄ l₁ l₂ l₃ l₄ n m b s hn hh hm hl _ ih =>
    have hq : ('\\' : Char) ≠ '"' := by decide
    obtain ⟨c, r, hr⟩ : ∃ c r, b ++ Point.ofChar '"' :: rest = c :: r :=
      List.exists_cons_of_ne_nil (by simp)
    have hsecond : Reader.secondHalf (Point.ofChar '\\' :: Point.ofChar 'u' :: l₁ :: l₂ :: l₃ ::
        l₄ :: c :: r) = .low m := by
      rw [Reader.secondHalf, if_pos ⟨rfl, rfl⟩, hm]
      exact if_pos hl
    simp only [List.cons_append]
    rw [Reader.stringBody.eq_def, hr]
    rw [hr] at ih
    simp only [Point.ofChar_inj, hq, if_false, if_true, List.isEmpty_cons, Bool.false_eq_true, hn,
      hh, hsecond, ih]
    rfl

/-- A string that goes on after a point. -/
theorem string_eq_ok {x : Except ReadError (Text × Text)} {c : Point} :
    (do
      let (s, rest) ← x
      return (c :: s, rest) : Except ReadError (Text × Text)) = .ok (s, rest) ↔
      ∃ s', x = .ok (s', rest) ∧ s = c :: s' := by
  cases x with
  | error e => simp [bind, Except.bind]
  | ok p =>
    obtain ⟨s', rest'⟩ := p
    simp only [bind, Except.bind, pure, Except.pure, Except.ok.injEq, Prod.mk.injEq]
    constructor
    · rintro ⟨rfl, rfl⟩
      exact ⟨s', ⟨rfl, rfl⟩, rfl⟩
    · rintro ⟨_, ⟨rfl, rfl⟩, rfl⟩
      exact ⟨rfl, rfl⟩

theorem secondHalf_of_startsLow (h : StartsLow b) (rest : Text) :
    Reader.secondHalf (b ++ Point.ofChar '"' :: rest) ≠ .absent := by
  obtain ⟨l₁, l₂, l₃, l₄, r, m, rfl, hm, hl⟩ := h
  obtain ⟨c, r', hr⟩ : ∃ c r', r ++ Point.ofChar '"' :: rest = c :: r' :=
    List.exists_cons_of_ne_nil (by simp)
  simp only [List.cons_append, hr]
  rw [Reader.secondHalf, if_pos ⟨rfl, rfl⟩, hm]
  simp only [hl, if_true]
  intro habsent
  cases habsent

theorem secondHalf_eq_low {m : Nat} (h : Reader.secondHalf t = .low m) :
    ∃ l₁ l₂ l₃ l₄ r, t = Point.ofChar '\\' :: Point.ofChar 'u' :: l₁ :: l₂ :: l₃ :: l₄ :: r ∧
      hex4? l₁ l₂ l₃ l₄ = some m ∧ isLow m = true := by
  unfold Reader.secondHalf at h
  split at h
  · split at h
    · rename_i hxu
      obtain ⟨rfl, rfl⟩ := hxu
      split at h
      · cases h
      · rename_i hm
        split at h
        · cases h
          exact ⟨_, _, _, _, _, rfl, hm, ‹_›⟩
        · cases h
    · cases h
  · cases h

/-- **All strings that are read are of the grammar.** -/
theorem exists_spellsBody {opened : Nat} (h : Reader.stringBody opened t = .ok (s, rest)) :
    ∃ b, t = b ++ Point.ofChar '"' :: rest ∧ SpellsBody b s := by
  fun_induction Reader.stringBody opened t generalizing s with
  | case1 | case3 | case4 | case6 | case7 | case9 | case10 | case12 => cases h
  | case2 t =>
    cases h
    exact ⟨[], rfl, .nil⟩
  -- The escapes of two halves, of one unit, a letter after a backslash, and the point itself.
  | case5 h₁ h₂ h₃ h₄ n m x₁ x₂ x₃ x₄ x₅ x₆ t hq hn hm ih =>
    obtain ⟨s', hs', rfl⟩ := string_eq_ok.1 h
    obtain ⟨b, rfl, hb⟩ := ih hs'
    rw [List.isEmpty_cons, if_neg Bool.false_ne_true] at hn
    split at hm
    · rename_i hh
      obtain ⟨l₁, l₂, l₃, l₄, r, heq, hl, hlow⟩ := secondHalf_eq_low hm
      cases heq
      exact ⟨_, rfl, .pair hn hh hl hlow hb⟩
    · cases hm
  | case8 h₁ h₂ h₃ h₄ t n hn ha hq ih =>
    obtain ⟨s', hs', rfl⟩ := string_eq_ok.1 h
    obtain ⟨b, rfl, hb⟩ := ih hs'
    rw [if_neg (by simp)] at hn
    refine ⟨_, rfl, .unit hn (fun hh hl => ?_) hb⟩
    rw [if_pos hh] at ha
    exact secondHalf_of_startsLow hl rest ha
  | case11 e t he d hd hq ih =>
    obtain ⟨s', hs', rfl⟩ := string_eq_ok.1 h
    obtain ⟨b, rfl, hb⟩ := ih hs'
    exact ⟨_, rfl, .letter hd hb⟩
  | case13 c t hq hb hc ih =>
    obtain ⟨s', hs', rfl⟩ := string_eq_ok.1 h
    obtain ⟨b, rfl, hs⟩ := ih hs'
    exact ⟨_, rfl, .plain hq hb (Nat.not_lt.1 hc) hs⟩

/-- A text with a faulty string has no long number to tell of. -/
theorem stringBody_error {opened : Nat} {e : ReadError} (h : Reader.stringBody opened t = .error e) :
    ∃ fault, e = .malformed fault := by
  have hbind : ∀ {c : Point} {x : Except ReadError (Text × Text)},
      (do
        let (s, rest) ← x
        return (c :: s, rest)) = .error e → x = .error e := by
    rintro c (_ | _) h <;> cases h
    rfl
  fun_induction Reader.stringBody opened t with
  | case1 | case3 | case4 | case6 | case7 | case9 | case10 | case12 =>
    cases h
    exact ⟨_, rfl⟩
  | case2 => cases h
  | case5 | case8 | case11 | case13 =>
    rename_i ih
    exact ih (hbind h)

/-! ## Words and numbers -/

/-- The words and their values. -/
def words : List (Text × Json) :=
  [("null", .null), ("true", .bool true), ("false", .bool false), ("NaN", .float .nan),
    ("Infinity", .float (.infinite false)), ("-Infinity", .float (.infinite true))]

/-- The sign of a number. -/
def sign (negative : Bool) : Text := if negative then [Point.ofChar '-'] else []

/-- The decimals of a number. -/
def decimals (es : List Char) : Text :=
  if es = [] then [] else Point.ofChar '.' :: es.map Point.ofChar

/-- The texts of a number without its sign: digits alone, or with decimals, or with an exponent. -/
inductive SpellsUnsigned (negative : Bool) : Text → Json → Prop where
  | whole {ds : List Char} : IsWhole ds → ds.length ≤ maxDigits →
      SpellsUnsigned negative (ds.map Point.ofChar)
        (.int (if negative then -(Nat.ofDigitChars 10 ds 0 : Int) else Nat.ofDigitChars 10 ds 0))
  | fraction {ds es : List Char} : IsWhole ds → es ≠ [] → (∀ d ∈ es, d.isDigit = true) →
      SpellsUnsigned negative (ds.map Point.ofChar ++ decimals es)
        (.float (.ofDecimal negative (Nat.ofDigitChars 10 (ds ++ es) 0) (-es.length)))
  | exponent {ds es : List Char} {x : Text} {e : Int} : IsWhole ds → (∀ d ∈ es, d.isDigit = true) →
      SpellsExponent x e →
      SpellsUnsigned negative (ds.map Point.ofChar ++ (decimals es ++ x))
        (.float (.ofDecimal negative (Nat.ofDigitChars 10 (ds ++ es) 0) (e - es.length)))

/-- The texts of words and numbers. -/
inductive SpellsAtom : Text → Json → Prop where
  | word {w : Text} {v : Json} : (w, v) ∈ words → SpellsAtom w v
  | number (negative : Bool) {t : Text} {v : Json} : SpellsUnsigned negative t v →
      SpellsAtom (sign negative ++ t) v

/-- What makes a number longer: a digit, decimals, or an exponent. -/
inductive Continues : Text → Prop where
  | digit {d : Char} {r : Text} : d.isDigit = true → Continues (Point.ofChar d :: r)
  | decimals {d : Char} {r : Text} : d.isDigit = true →
      Continues (Point.ofChar '.' :: Point.ofChar d :: r)
  | exponent {x r : Text} {e : Int} : SpellsExponent x e → Continues (x ++ r)

/-- The text starts with the whole number of the digits `ds`. -/
def IntegerAt (t : Text) (ds : List Char) : Prop := ∃ (negative : Bool) (rest : Text),
  t = sign negative ++ (ds.map Point.ofChar ++ rest) ∧ IsWhole ds ∧ ¬ Continues rest

theorem SpellsUnsigned.start {negative : Bool} (h : SpellsUnsigned negative t v) :
    ∃ c r, t = Point.ofChar c :: r ∧ c.isDigit = true := by
  have hstart : ∀ ds : List Char, IsWhole ds → ∀ r : Text,
      ∃ c r', ds.map Point.ofChar ++ r = Point.ofChar c :: r' ∧ c.isDigit = true := by
    intro ds hw r
    obtain ⟨c, es, rfl⟩ : ∃ c es, ds = c :: es := by
      rcases hw with rfl | ⟨c, es, rfl, -⟩
      · exact ⟨_, _, rfl⟩
      · exact ⟨_, _, rfl⟩
    exact ⟨c, _, rfl, hw.isDigit c List.mem_cons_self⟩
  cases h with
  | @whole ds hw =>
    obtain ⟨c, r, hr, hc⟩ := hstart ds hw []
    exact ⟨c, r, by rwa [List.append_nil] at hr, hc⟩
  | fraction hw => exact hstart _ hw _
  | exponent hw => exact hstart _ hw _

theorem SpellsUnsigned.reads {negative : Bool} (h : SpellsUnsigned negative t v)
    (hr : Ends rest) : Reader.unsignedNumber? negative (t ++ rest) = some (.ok (v, rest)) := by
  cases h with
  | whole hw hl => exact Reader.unsignedNumber?_of_whole negative hw hl hr
  | fraction hw hne hd =>
    have hu := Reader.unsignedNumber?_of_fraction negative hw hne hd hr
    rwa [decimals, if_neg hne, List.append_assoc]
  | exponent hw hd hx =>
    have hu := Reader.unsignedNumber?_of_exponent negative hw hd hx hr.endsDigits
    rwa [decimals, List.append_assoc, List.append_assoc]

theorem isAtom_of_mem_words {w : Text} (h : (w, v) ∈ words) : IsAtom w v := by
  simp only [words, List.mem_cons, List.not_mem_nil, or_false, Prod.mk.injEq] at h
  rcases h with ⟨rfl, rfl⟩ | ⟨rfl, rfl⟩ | ⟨rfl, rfl⟩ | ⟨rfl, rfl⟩ | ⟨rfl, rfl⟩ | ⟨rfl, rfl⟩ <;>
    exact ⟨⟨_, _, rfl, rfl⟩, fun rest _ => by simp [Reader.atom, Text.ofString, Text.after?]⟩

/-- **Words and numbers of the grammar are read.** -/
theorem SpellsAtom.isAtom (h : SpellsAtom t v) : IsAtom t v := by
  cases h with
  | word h => exact isAtom_of_mem_words h
  | @number negative t v h =>
    obtain ⟨c, r, rfl, hc⟩ := h.start
    refine ⟨?_, fun rest hr => ?_⟩
    · cases negative with
      | true => exact ⟨_, _, rfl, rfl⟩
      | false => exact ⟨_, r, rfl, by simp [startsAtom, hc]⟩
    · have hu := h.reads hr
      rw [List.append_assoc]
      exact Reader.atom_signed negative hc hu

/-! ### All that is read -/

theorem exists_ofChar_of_isDigit {c : Point} (h : c.isDigit = true) :
    ∃ d : Char, c = Point.ofChar d ∧ d.isDigit = true := by
  obtain ⟨n, hn⟩ := c
  have hc : 48 ≤ n ∧ n ≤ 57 := by simpa [Point.isDigit] using h
  exact ⟨Char.ofNatAux n (.inl (by omega)), rfl, Char.isDigit_iff_toNat.2 hc⟩

/-- The digits that start a text. -/
theorem exists_digits (t : Text) : ∃ (ds : List Char) (rest : Text),
    t = ds.map Point.ofChar ++ rest ∧ (∀ d ∈ ds, d.isDigit = true) ∧ EndsDigits rest := by
  induction t with
  | nil => exact ⟨[], [], rfl, nofun, nofun⟩
  | cons c t ih =>
    cases hc : c.isDigit with
    | false => exact ⟨[], c :: t, rfl, nofun, by rintro _ ⟨⟩; exact hc⟩
    | true =>
      obtain ⟨d, rfl, hd⟩ := exists_ofChar_of_isDigit hc
      obtain ⟨ds, rest, rfl, hds, hr⟩ := ih
      exact ⟨d :: ds, rest, rfl, List.forall_mem_cons.2 ⟨hd, hds⟩, hr⟩

/-- Longer digits of an exponent. -/
theorem exists_spellsExponent_append {x : Text} {e : Int} (h : SpellsExponent x e)
    {ds : List Char} (hd : ∀ d ∈ ds, d.isDigit = true) :
    ∃ e', SpellsExponent (x ++ ds.map Point.ofChar) e' := by
  have happend : ∀ es : List Char, es ≠ [] → (∀ d ∈ es, d.isDigit = true) →
      es ++ ds ≠ [] ∧ ∀ d ∈ es ++ ds, d.isDigit = true := fun es hne he =>
    ⟨List.append_ne_nil_of_left_ne_nil hne ds, List.forall_mem_append.2 ⟨he, hd⟩⟩
  cases h with
  | unsigned hl hne he =>
    obtain ⟨hne', he'⟩ := happend _ hne he
    rw [List.cons_append, ← List.map_append]
    exact ⟨_, .unsigned hl hne' he'⟩
  | plus hl hne he =>
    obtain ⟨hne', he'⟩ := happend _ hne he
    rw [List.cons_append, List.cons_append, ← List.map_append]
    exact ⟨_, .plus hl hne' he'⟩
  | minus hl hne he =>
    obtain ⟨hne', he'⟩ := happend _ hne he
    rw [List.cons_append, List.cons_append, ← List.map_append]
    exact ⟨_, .minus hl hne' he'⟩

theorem not_continues (hd : EndsDigits t) (hf : Reader.fraction? t = none)
    (he : Reader.exponent? t = none) : ¬ Continues t := by
  intro h
  cases h with
  | @digit d r hdigit =>
    have := hd _ rfl
    rw [Point.isDigit_ofChar, hdigit] at this
    cases this
  | @decimals d r hdigit =>
    obtain ⟨ds, rest, rfl, hds, hr⟩ := exists_digits r
    have := Reader.fraction?_append (List.cons_ne_nil d ds)
      (List.forall_mem_cons.2 ⟨hdigit, hds⟩) hr
    rw [List.map_cons, List.cons_append, hf] at this
    cases this
  | @exponent x r e hx =>
    obtain ⟨ds, rest, rfl, hds, hr⟩ := exists_digits r
    obtain ⟨e', hx'⟩ := exists_spellsExponent_append hx hds
    rw [← List.append_assoc, hx'.exponent? hr] at he
    cases he

theorem wholePart?_eq_some {w r : Text} (h : Reader.wholePart? t = some (w, r)) :
    ∃ ds : List Char, IsWhole ds ∧ w = ds.map Point.ofChar ∧ t = ds.map Point.ofChar ++ r ∧
      (1 < ds.length → EndsDigits r) := by
  unfold Reader.wholePart? at h
  split at h
  · rename_i c r'
    split at h
    · rename_i hc
      cases h
      exact ⟨['0'], .inl rfl, by rw [hc]; rfl, by rw [hc]; rfl, by simp⟩
    · rename_i hne
      split at h
      · rename_i hc
        obtain ⟨ds, rest, ht, hds, hr⟩ := exists_digits (c :: r')
        rw [ht, Reader.takeDigits_append hds hr] at h
        cases h
        cases ds with
        | nil =>
          rw [List.map_nil, List.nil_append] at ht
          have := hr c (ht ▸ rfl)
          rw [hc] at this
          cases this
        | cons d ds =>
          have hd : c = Point.ofChar d := (List.cons.inj ht).1
          refine ⟨d :: ds, .inr ⟨d, ds, rfl, ?_, hds⟩, rfl, ht, fun _ => hr⟩
          rintro rfl
          exact hne hd
      · cases h
  · cases h

theorem fraction?_eq_some {w r : Text} (h : Reader.fraction? t = some (w, r)) :
    ∃ es : List Char, es ≠ [] ∧ (∀ d ∈ es, d.isDigit = true) ∧ w = es.map Point.ofChar ∧
      t = decimals es ++ r := by
  unfold Reader.fraction? at h
  split at h
  · rename_i c r'
    obtain ⟨es, rest, rfl, hes, hr⟩ := exists_digits r'
    rw [Reader.takeDigits_append hes hr] at h
    dsimp only at h
    split at h
    · rename_i hc
      cases h
      have hne : es ≠ [] := fun he => hc.2 (by rw [he]; rfl)
      refine ⟨es, hne, hes, rfl, ?_⟩
      rw [decimals, if_neg hne, hc.1, List.cons_append]
    · cases h
  · cases h

/-- The digits of an exponent, behind its letter and its sign. -/
theorem exponentDigits_eq_some (negative : Bool) {e : Int} {r : Text}
    (h : (if (Reader.takeDigits t).1 = [] then none
      else some (if negative then -(Reader.digitsValue (Reader.takeDigits t).1 : Int)
        else Reader.digitsValue (Reader.takeDigits t).1, (Reader.takeDigits t).2)) = some (e, r)) :
    ∃ ds : List Char, ds ≠ [] ∧ (∀ d ∈ ds, d.isDigit = true) ∧ t = ds.map Point.ofChar ++ r ∧
      e = if negative then -(Nat.ofDigitChars 10 ds 0 : Int) else Nat.ofDigitChars 10 ds 0 := by
  obtain ⟨ds, rest, rfl, hds, hr⟩ := exists_digits t
  rw [Reader.takeDigits_append hds hr] at h
  split at h
  · cases h
  · rename_i hne
    cases h
    refine ⟨ds, fun he => hne (by rw [he]; rfl), hds, rfl, ?_⟩
    rw [Reader.digitsValue_ofChar]

theorem exponent?_eq_some {e : Int} {r : Text} (h : Reader.exponent? t = some (e, r)) :
    ∃ x, SpellsExponent x e ∧ t = x ++ r := by
  cases t with
  | nil => cases h
  | cons c t =>
    unfold Reader.exponent? at h
    dsimp only at h
    by_cases hc : c = Point.ofChar 'e' ∨ c = Point.ofChar 'E'
    · obtain ⟨letter, hl, rfl⟩ : ∃ letter ∈ ['e', 'E'], c = Point.ofChar letter := by
        rcases hc with rfl | rfl
        · exact ⟨'e', by decide, rfl⟩
        · exact ⟨'E', by decide, rfl⟩
      rw [if_pos hc] at h
      cases t with
      | nil => cases h
      | cons s t =>
        by_cases hm : s = Point.ofChar '-'
        · simp only [if_pos hm] at h
          obtain ⟨ds, hne, hds, rfl, rfl⟩ := exponentDigits_eq_some true h
          exact ⟨_, .minus hl hne hds, by rw [hm]; rfl⟩
        · by_cases hp : s = Point.ofChar '+'
          · simp only [if_neg hm, if_pos hp] at h
            obtain ⟨ds, hne, hds, rfl, rfl⟩ := exponentDigits_eq_some false h
            exact ⟨_, .plus hl hne hds, by rw [hp]; rfl⟩
          · simp only [if_neg hm, if_neg hp] at h
            obtain ⟨ds, hne, hds, ht, rfl⟩ := exponentDigits_eq_some false h
            exact ⟨_, .unsigned hl hne hds, by rw [ht]; rfl⟩
    · rw [if_neg hc] at h
      cases h

/-- What the reader of a word or a number may come to: it takes one, or the text is faulty, or the
whole number that starts it is too long. -/
inductive TakesAtom (t : Text) : Except ReadError (Json × Text) → Prop where
  | ok {x rest : Text} {v : Json} : t = x ++ rest → SpellsAtom x v → TakesAtom t (.ok (v, rest))
  | malformed (fault : Fault) : TakesAtom t (.error (.malformed fault))
  | tooManyDigits {ds : List Char} : IntegerAt t ds → maxDigits < ds.length →
      TakesAtom t (.error (.tooManyDigits ds.length))

theorem takesAtom_number (negative : Bool) {x : Except ReadError (Json × Text)}
    (h : Reader.unsignedNumber? negative t = some x) : TakesAtom (sign negative ++ t) x := by
  obtain ⟨⟨w, r⟩, hw, rfl⟩ := Option.map_eq_some_iff.1 h
  obtain ⟨ds, hds, rfl, rfl, hends⟩ := wholePart?_eq_some hw
  obtain ⟨es, r₁, hd, rfl, hfraction, hnone⟩ : ∃ (es : List Char) (r₁ : Text),
      (∀ d ∈ es, d.isDigit = true) ∧ r = decimals es ++ r₁ ∧
        (Reader.fraction? r).getD ([], r) = (es.map Point.ofChar, r₁) ∧
        (es = [] → Reader.fraction? r₁ = none) := by
    cases hf : Reader.fraction? r with
    | none => exact ⟨[], r, nofun, rfl, rfl, fun _ => hf⟩
    | some f =>
      obtain ⟨es, hne, hd, he, hr⟩ := fraction?_eq_some hf
      exact ⟨es, f.2, hd, hr, by rw [Option.getD_some, ← he], fun h => absurd h hne⟩
  simp only [hfraction, List.map_eq_nil_iff, List.length_map, ← List.map_append,
    Reader.digitsValue_ofChar]
  cases he : Reader.exponent? r₁ with
  | some p =>
    obtain ⟨x, hx, rfl⟩ := exponent?_eq_some he
    exact .ok (by simp only [List.append_assoc]) (.number negative (.exponent hds hd hx))
  | none =>
    dsimp only
    by_cases hes : es = []
    · subst hes
      rw [if_pos rfl]
      split
      · rename_i hl
        have hone : 1 ≤ maxDigits := by decide
        have hr := not_continues (hends (Nat.lt_of_le_of_lt hone hl)) (hnone rfl) he
        exact .tooManyDigits ⟨negative, r₁, rfl, hds, hr⟩ hl
      · rename_i hl
        exact .ok (List.append_assoc ..).symm (.number negative (.whole hds (Nat.not_lt.1 hl)))
    · rw [if_neg hes]
      exact .ok (by simp only [List.append_assoc]) (.number negative (.fraction hds hes hd))

/-- A word, or what stands for one. -/
theorem takesAtom_word {w : Text} {x : Except ReadError (Json × Text)} (hw : (w, v) ∈ words)
    (h : TakesAtom t x) :
    TakesAtom t (match Text.after? t w with
      | some r => .ok (v, r)
      | none => x) := by
  split
  · rename_i r hr
    exact .ok (Text.after?_eq_some.1 hr) (.word hw)
  · exact h

/-- **All words and numbers that are read are of the grammar.** -/
theorem takesAtom_atom (t : Text) : TakesAtom t (Reader.atom t) := by
  unfold Reader.atom
  refine takesAtom_word (by simp [words]) (takesAtom_word (by simp [words])
    (takesAtom_word (by simp [words]) (takesAtom_word (by simp [words])
      (takesAtom_word (by simp [words]) (takesAtom_word (by simp [words]) ?_)))))
  split
  · rename_i c r
    split
    · rename_i x hx
      split at hx
      · rename_i hc
        have := takesAtom_number true hx
        rwa [hc]
      · exact takesAtom_number false hx
    · exact .malformed _
  · exact .malformed _

end SourceAtlas.Json
