import SourceAtlas.Proofs.Json.Phrases
import SourceAtlas.Proofs.RoundTrip

/-!
# What values texts give

A value that is read has each key once and no number too long to be written. If its text is of scalar
values, none of its texts holds two halves of a surrogate pair side by side.

* `Json.Made`: values with these keys and numbers, all texts of which have a property;
* `Json.Made.isWritable`, `Json.Made.settled`: such values are written, and read back as they are;
* `Json.SpellsBody.hasNoPair`: strings between whose quotes stand scalar values;
* **`Json.Phrase.made`**, **`Json.ValueText.made`**: the values that texts give.
-/

namespace SourceAtlas.Json

open Reader (isHigh isLow escaped? hex4? joinPair IsWhole)

/-! ## Values -/

/-- A value in which no key is there twice, no whole number is too long to be written, and all texts
and keys have the property `P`. -/
inductive Made (P : Text → Prop) : Json → Prop where
  | null : Made P .null
  | bool (b : Bool) : Made P (.bool b)
  | int (n : Int) : (Nat.toDigits 10 n.natAbs).length ≤ maxDigits → Made P (.int n)
  | float (x : Binary64) : Made P (.float x)
  | text (t : Text) : P t → Made P (.text t)
  | list (vs : List Json) : (∀ v ∈ vs, Made P v) → Made P (.list vs)
  | object (ms : List (Text × Json)) : (ms.map Prod.fst).Nodup → (∀ m ∈ ms, P m.1) →
      (∀ m ∈ ms, Made P m.2) → Made P (.object ms)

variable {P : Text → Prop} {v : Json}

theorem Made.isWritable (h : Made P v) : v.isWritable = true := by
  induction h with
  | null | bool | float | text => rfl
  | int n hn => exact decide_eq_true hn
  | list vs _ ih => exact areWritable_iff.2 ih
  | object ms _ _ _ ih => exact membersWritable_iff.2 ih

theorem Made.settled (h : Made Text.HasNoPair v) : v.Settled := by
  induction h with
  | null => exact .null
  | bool b => exact .bool b
  | int n => exact .int n
  | float x => exact .float x
  | text t ht => exact .text t ht
  | list vs _ ih => exact .list vs ih
  | object ms hn hk _ ih => exact .object ms hn hk ih

/-! ## Numbers -/

theorem ofDigitChars_lt {ds : List Char} (h : ∀ d ∈ ds, d.isDigit = true) :
    Nat.ofDigitChars 10 ds 0 < 10 ^ ds.length := by
  induction ds with
  | nil => exact Nat.one_pos
  | cons d ds ih =>
    obtain ⟨hd, hds⟩ := List.forall_mem_cons.1 h
    have hlt := ih hds
    have hd' := Char.isDigit_iff_toNat.1 hd
    have hzero : '0'.toNat = 48 := rfl
    have hnine : '9'.toNat = 57 := rfl
    have hle : 10 ^ ds.length * (d.toNat - 48) ≤ 10 ^ ds.length * 9 :=
      Nat.mul_le_mul_left _ (by omega)
    rw [Nat.ofDigitChars_cons, Nat.ofDigitChars_eq_ofDigitChars_zero, List.length_cons, Nat.pow_succ,
      hzero, Nat.mul_zero, Nat.zero_add]
    omega

/-- A number has no more digits than it is spelled with. -/
theorem length_toDigits_le {ds : List Char} (h : IsWhole ds) :
    (Nat.toDigits 10 (Nat.ofDigitChars 10 ds 0)).length ≤ ds.length := by
  have hpos : 0 < ds.length := by
    rcases h with rfl | ⟨c, es, rfl, -⟩ <;> exact Nat.succ_pos _
  exact (Nat.length_toDigits_le_iff (by decide) hpos).2 (ofDigitChars_lt h.isDigit)

theorem SpellsAtom.made {t : Text} (h : SpellsAtom t v) : Made P v := by
  cases h with
  | word h =>
    simp only [words, List.mem_cons, List.not_mem_nil, or_false, Prod.mk.injEq] at h
    rcases h with ⟨-, rfl⟩ | ⟨-, rfl⟩ | ⟨-, rfl⟩ | ⟨-, rfl⟩ | ⟨-, rfl⟩ | ⟨-, rfl⟩ <;> constructor
  | number negative h =>
    cases h with
    | @whole ds hw hl =>
      refine .int _ ?_
      have hn : (if negative then -(Nat.ofDigitChars 10 ds 0 : Int)
          else Nat.ofDigitChars 10 ds 0).natAbs = Nat.ofDigitChars 10 ds 0 := by
        cases negative <;> simp
      rw [hn]
      exact (length_toDigits_le hw).trans hl
    | fraction | exponent => exact .float _

/-! ## Strings -/

/-- The number of a point that is half of a pair is the number that it was made of. -/
theorem toNat_ofNat_of_half {n : Nat}
    (h : isHigh (Point.ofNat n).toNat = true ∨ isLow (Point.ofNat n).toNat = true) :
    (Point.ofNat n).toNat = n := by
  by_cases hn : n < 0x110000
  · exact Point.toNat_ofNat hn
  · rw [Point.ofNat, dif_neg hn] at h
    exact absurd h (by decide)

/-- A letter after a backslash is no half of a pair. -/
theorem isWhole_of_escaped? {e d : Point} (h : escaped? e = some d) : Text.IsWhole d := by
  unfold escaped? at h
  split_ifs at h with he
  · obtain rfl := Option.some.inj h
    rcases he with rfl | rfl | rfl <;> exact Text.isWhole_ofChar _
  all_goals
    obtain rfl := Option.some.inj h
    exact Text.isWhole_ofChar _

theorem isWhole_of_isScalar {c : Point} {b : Text} (h : Text.isScalar (c :: b) = true) :
    Text.IsWhole c := by
  rw [Text.isScalar, List.all_cons, Bool.and_eq_true, Bool.not_eq_true'] at h
  exact Point.isWhole_of_not_isSurrogate h.1

/-- A string that starts with a low half has a body that spells it out. -/
theorem SpellsBody.startsLow {b s : Text} (h : SpellsBody b s) (hb : b.isScalar = true) {q : Point}
    (hq : s.head? = some q) (hl : isLow q.toNat = true) : StartsLow b := by
  cases h with
  | nil => cases hq
  | plain =>
    cases hq
    rw [(isWhole_of_isScalar hb).2] at hl
    cases hl
  | letter he =>
    cases hq
    rw [(isWhole_of_escaped? he).2] at hl
    cases hl
  | unit hn =>
    cases hq
    rw [toNat_ofNat_of_half (.inr hl)] at hl
    exact ⟨_, _, _, _, _, _, rfl, hn, hl⟩
  | pair _ hh _ hm =>
    obtain rfl := Option.some.inj hq
    rw [(Text.not_isHigh_joinPair hh hm).2] at hl
    cases hl

theorem isScalar_of_suffix {a b : Text} (h : Text.isScalar (a ++ b) = true) : b.isScalar = true := by
  rw [Text.isScalar, List.all_append, Bool.and_eq_true] at h
  exact h.2

/-- **A string between whose quotes stand scalar values has no pair.** Two escapes of halves are read as
one point, and no other half stands beside one. -/
theorem SpellsBody.hasNoPair {b s : Text} (h : SpellsBody b s) (hb : b.isScalar = true) :
    s.HasNoPair := by
  have hwhole : ∀ {c q : Point}, Text.IsWhole c → Text.isPair c q = false := fun hc => by
    rw [Text.isPair, hc.1, Bool.false_and]
  induction h with
  | nil => exact List.isChain_nil
  | @plain c b s _ _ _ _ ih =>
    exact List.isChain_cons.2 ⟨fun q _ => hwhole (isWhole_of_isScalar hb),
      ih (isScalar_of_suffix (a := [c]) hb)⟩
  | @letter e d b s he _ ih =>
    exact List.isChain_cons.2 ⟨fun q _ => hwhole (isWhole_of_escaped? he),
      ih (isScalar_of_suffix (a := [Point.ofChar '\\', e]) hb)⟩
  | @unit h₁ h₂ h₃ h₄ n b s _ hstart hs ih =>
    have hb' : b.isScalar = true :=
      isScalar_of_suffix (a := [Point.ofChar '\\', Point.ofChar 'u', h₁, h₂, h₃, h₄]) hb
    refine List.isChain_cons.2 ⟨fun q hq => ?_, ih hb'⟩
    rw [← Bool.not_eq_true, Text.isPair, Bool.and_eq_true]
    rintro ⟨hh, hl⟩
    rw [toNat_ofNat_of_half (.inl hh)] at hh
    exact hstart hh (hs.startsLow hb' hq hl)
  | @pair h₁ h₂ h₃ h₄ l₁ l₂ l₃ l₄ n m b s _ hh _ hl _ ih =>
    have hb' : b.isScalar = true := isScalar_of_suffix (a := [Point.ofChar '\\', Point.ofChar 'u', h₁,
      h₂, h₃, h₄, Point.ofChar '\\', Point.ofChar 'u', l₁, l₂, l₃, l₄]) hb
    refine List.isChain_cons.2 ⟨fun q _ => ?_, ih hb'⟩
    rw [Text.isPair, (Text.not_isHigh_joinPair hh hl).1, Bool.false_and]

/-! ## Texts -/

theorem mem_commas {rows : List (List Token)} {ks : List Token} {k : Token} (hk : k ∈ ks)
    (hks : ks ∈ rows) : k ∈ commas rows := by
  fun_induction commas rows with
  | case1 => cases hks
  | case2 ls => rwa [List.mem_singleton.1 hks] at hk
  | case3 ls ls' rows ih =>
    rw [List.mem_append]
    rcases List.mem_cons.1 hks with rfl | hks
    · exact .inl hk
    · exact .inr (List.mem_cons_of_mem _ (ih hks))

/-- **The value of a row of tokens**, if what stands in its strings gives texts with a property. -/
theorem Phrase.made {ks : List Token} (h : Phrase ks v)
    (hP : ∀ b s, Token.string b ∈ ks → SpellsBody b s → P s) : Made P v := by
  induction h with
  | atom h => exact h.made
  | string h => exact .text _ (hP _ _ List.mem_cons_self h)
  | list is _ ih =>
    refine .list _ fun v hv => ?_
    obtain ⟨i, hi, rfl⟩ := List.mem_map.1 hv
    refine ih i hi fun b s hb => hP b s ?_
    have hmem := mem_commas hb (List.mem_map_of_mem (f := Prod.fst) hi)
    exact List.mem_cons_of_mem _ (List.mem_append_left _ hmem)
  | object ms hk _ ih =>
    have hmem : ∀ m ∈ ms, ∀ k ∈ m.whole, k ∈ Token.mark '{' ::
        (commas (ms.map MemberPhrase.whole) ++ [.mark '}']) := fun m hm k hkm =>
      List.mem_cons_of_mem _ (List.mem_append_left _
        (mem_commas hkm (List.mem_map_of_mem (f := MemberPhrase.whole) hm)))
    have hmembers : ∀ m ∈ mergeMembers (ms.map MemberPhrase.member), P m.1 ∧ Made P m.2 := by
      intro m hm
      obtain ⟨p, hp, rfl⟩ := List.mem_map.1 (mem_of_mem_mergeMembers hm)
      refine ⟨hP _ _ (hmem p hp _ List.mem_cons_self) (hk p hp), ih p hp fun b s hb => hP b s ?_⟩
      exact hmem p hp _ (List.mem_cons_of_mem _ (List.mem_cons_of_mem _ hb))
    exact .object _ (nodup_mergeMembers _) (fun m hm => (hmembers m hm).1)
      fun m hm => (hmembers m hm).2

/-- A string token of a text is part of it. -/
theorem Laid.isScalar {ks : List Token} {x b : Text} (h : Laid Spaces ks x) (hx : x.isScalar = true)
    (hb : Token.string b ∈ ks) : b.isScalar = true := by
  simp only [Text.isScalar, List.all_eq_true] at hx ⊢
  intro c hc
  refine hx c ?_
  clear hx
  induction h with
  | nil => cases hb
  | @cons g t k ks _ _ ih =>
    rw [List.mem_append, List.mem_append]
    rcases List.mem_cons.1 hb with rfl | hb
    · exact .inr (.inl (List.mem_cons_of_mem _ (List.mem_append_left _ hc)))
    · exact .inr (.inr (ih hb))

/-- **The value of a text**, and of a text of scalar values. -/
theorem ValueText.made {x : Text} (h : ValueText x v) :
    Made (fun _ => True) v ∧ (x.isScalar = true → Made Text.HasNoPair v) := by
  obtain ⟨ks, hks, hlaid⟩ := h
  exact ⟨hks.made fun _ _ _ _ => trivial, fun hx => hks.made fun b s hb hs =>
    hs.hasNoPair (hlaid.isScalar hx hb)⟩

end SourceAtlas.Json
