import SourceAtlas.Summary.OfText
import SourceAtlas.Proofs.Json.Layouts
import SourceAtlas.Proofs.Json.Phrases
import SourceAtlas.Proofs.RoundTrip

/-!
# The first complete object of a text

A summary is the first complete object of an answer, whatever surrounds it. An object ends with its
brace, so that no text behind it changes it. The text behind it can complete an object that begins
before it, though, and then that one is the first.

* `Json.ObjectText`, `Json.readFront_of_objectText`: the texts of objects, read whatever follows;
* `Summary.FirstObject`: the object that starts at the first brace at which one does;
* `Summary.HasShortIntegers`: no whole number in a text is too long to be read;
* `Summary.objectFrom_cases`: the search from a place on;
* **`Summary.firstObject_complete`**: what is found, and what can change it.
-/

namespace SourceAtlas

namespace Json

/-- The texts of an object, from brace to brace. -/
def ObjectText (x : Text) (v : Json) : Prop :=
  ValueText x v ∧ ∃ t, x = Point.ofChar '{' :: t

variable {x t rest : Text} {v w : Json}

/-- **An object is read whatever follows it.** -/
theorem readFront_of_objectText (h : ObjectText x v) (rest : Text) :
    readFront (x ++ rest) = .ok (v, rest) := by
  obtain ⟨⟨ks, hks, hlaid⟩, t, rfl⟩ := h
  obtain ⟨g, y, hg, hy, ht⟩ := exists_spells hks _ hlaid
  -- Nothing can stand before the brace.
  cases g with
  | nil =>
    rw [List.nil_append] at ht
    rw [← ht] at hy
    exact hy.readFront_of_brace rest
  | cons c g =>
    have hspace := hg c List.mem_cons_self
    rw [List.cons_append, List.cons.injEq] at ht
    rw [← ht.1] at hspace
    cases hspace

/-- **What is read from a brace on is an object.** -/
theorem exists_objectText (h : readFront (Point.ofChar '{' :: t) = .ok (v, rest)) :
    ∃ x, Point.ofChar '{' :: t = x ++ rest ∧ ObjectText x v := by
  have hcomes := comes_readFront (Point.ofChar '{' :: t)
  rw [h] at hcomes
  cases hcomes with
  | @ok x _ _ ht hx hl =>
    refine ⟨x, ht, hx, ?_⟩
    cases x with
    | nil =>
      obtain ⟨ks, hks, hlaid⟩ := hx
      obtain ⟨g, y, -, hy, hnil⟩ := exists_spells hks _ hlaid
      rw [(List.append_eq_nil_iff.1 hnil.symm).2] at hy
      exact absurd hy.length_pos (Nat.lt_irrefl 0)
    | cons c x =>
      rw [List.cons_append, List.cons.injEq] at ht
      exact ⟨x, by rw [ht.1]⟩

/-- Where reading fails stands no object. -/
theorem not_objectText_of_error {e : ReadError} (h : readFront t = .error e) (ht : t = x ++ rest) :
    ¬ ObjectText x v := by
  intro hx
  rw [ht, readFront_of_objectText hx] at h
  cases h

end Json

namespace Summary

open Json (ObjectText Lexes IntegerAt maxDigits)

/-! ## The first object -/

/-- An object stands somewhere in the text. -/
def HoldsObject (t : Text) : Prop := ∃ a x r v, t = a ++ (x ++ r) ∧ ObjectText x v

/-- The text `front` behind `before` is an object, and none begins earlier. -/
structure FirstObject (t before front rest : Text) (v : Json) : Prop where
  text : t = before ++ (front ++ rest)
  object : ObjectText front v
  first : ∀ {a x r : Text} {w : Json}, t = a ++ (x ++ r) → ObjectText x w → before.length ≤ a.length

/-- No whole number that comes after tokens from a brace on has more digits than are read. -/
def HasShortIntegers (t : Text) : Prop := ∀ (a u w : Text) (ds : List Char),
  t = a ++ Point.ofChar '{' :: u → Lexes (Point.ofChar '{' :: u) w → IntegerAt w ds →
    ds.length ≤ maxDigits

variable {t u a x r before front rest whole : Text} {v w : Json} {c : Point}

theorem HasShortIntegers.tail (h : HasShortIntegers (c :: t)) : HasShortIntegers t :=
  fun a u w ds ht => h (c :: a) u w ds (by rw [ht, List.cons_append])

/-- An object that does not start at the first point stands behind it. -/
theorem eq_cons_of_object (h : c :: t = a ++ (x ++ r)) (hx : ObjectText x w)
    (hc : ∀ x' r' w', c :: t = x' ++ r' → ¬ ObjectText x' w') :
    ∃ a', a = c :: a' ∧ t = a' ++ (x ++ r) := by
  cases a with
  | nil => exact absurd hx (hc x r w h)
  | cons d a =>
    rw [List.cons_append, List.cons.injEq] at h
    exact ⟨a, by rw [h.1], h.2⟩

theorem not_objectText_of_ne (hc : c ≠ Point.ofChar '{') (h : c :: t = x ++ r) :
    ¬ ObjectText x w := by
  rintro ⟨-, y, rfl⟩
  exact hc (List.cons.inj h).1

/-- The first object behind a point at which none starts. -/
theorem FirstObject.cons (h : FirstObject t before front rest v)
    (hc : ∀ x' r' w', c :: t = x' ++ r' → ¬ ObjectText x' w') :
    FirstObject (c :: t) (c :: before) front rest v where
  text := by rw [h.text, List.cons_append]
  object := h.object
  first := by
    intro a x r w ht hx
    obtain ⟨a', rfl, ht'⟩ := eq_cons_of_object ht hx hc
    exact Nat.succ_le_succ (h.first ht' hx)

/-- The first object behind a text without a brace. -/
theorem FirstObject.append {p : Text} (hp : Point.ofChar '{' ∉ p)
    (h : FirstObject t before front rest v) : FirstObject (p ++ t) (p ++ before) front rest v := by
  induction p with
  | nil => exact h
  | cons c p ih =>
    rw [List.mem_cons, not_or] at hp
    exact (ih hp.2).cons fun _ _ _ hx => not_objectText_of_ne (Ne.symm hp.1) hx

/-- What the search from a place on may come to. -/
inductive Finds (t : Text) : Except Fault Json → Prop where
  | object {before front rest : Text} {v : Json} : FirstObject t before front rest v →
      Finds t (.ok v)
  | nothing {fault : Fault} {message : Text} : ¬ HoldsObject t →
      fault.failure = .reported message → Finds t (.error fault)

theorem Finds.cons {result : Except Fault Json} (h : Finds t result)
    (hc : ∀ x' r' w', c :: t = x' ++ r' → ¬ ObjectText x' w') : Finds (c :: t) result := by
  cases h with
  | object h => exact .object (h.cons hc)
  | nothing hn hf =>
    refine .nothing (fun ⟨a, x, r, w, ht, hx⟩ => hn ?_) hf
    obtain ⟨a', -, ht'⟩ := eq_cons_of_object ht hx hc
    exact ⟨a', x, r, w, ht', hx⟩

/-- **The search from a place on** finds the first object, or reports that there is none. -/
theorem finds_objectFrom (ht : HasShortIntegers t) (first : Option Json.Fault) :
    Finds t (objectFrom whole first t) := by
  induction t generalizing first with
  | nil =>
    have hnone : ¬ HoldsObject [] := by
      rintro ⟨a, x, r, w, hnil, -, y, rfl⟩
      simp at hnil
    cases first with
    | none => exact .nothing hnone rfl
    | some fault => exact .nothing hnone rfl
  | cons c t ih =>
    rw [objectFrom]
    split
    · rename_i hc
      subst hc
      cases hr : Json.readFront (Point.ofChar '{' :: t) with
      | ok p =>
        obtain ⟨v, rest⟩ := p
        obtain ⟨x, hx, ho⟩ := Json.exists_objectText hr
        have hfirst : FirstObject (Point.ofChar '{' :: t) [] x rest v :=
          ⟨hx, ho, fun _ _ => Nat.zero_le _⟩
        exact .object hfirst
      | error e =>
        have hno : ∀ x r w, Point.ofChar '{' :: t = x ++ r → ¬ ObjectText x w :=
          fun x r w hx => Json.not_objectText_of_error hr hx
        cases e with
        | malformed fault => exact (ih ht.tail _).cons hno
        | tooManyDigits count =>
          have hcomes := Json.comes_readFront (Point.ofChar '{' :: t)
          rw [hr] at hcomes
          cases hcomes with
          | tooManyDigits hl hi hd => exact absurd (ht [] t _ _ rfl hl hi) (Nat.not_le.2 hd)
    · rename_i hc
      exact (ih ht.tail first).cons fun x r w hx => not_objectText_of_ne hc hx

theorem finds_firstObject (ht : HasShortIntegers t) : Finds t (firstObject t) :=
  finds_objectFrom ht none

/-! ## What is found -/

/-- At one place stands at most one object. -/
theorem FirstObject.unique (h : FirstObject t before front rest v) {x r : Text}
    (ht : t = a ++ (x ++ r)) (hx : ObjectText x w) (ha : a.length = before.length) : w = v := by
  obtain ⟨rfl, hrest⟩ := List.append_inj (ht.symm.trans h.text) ha
  have hread := Json.readFront_of_objectText hx r
  rw [hrest, Json.readFront_of_objectText h.object rest] at hread
  cases hread
  rfl

theorem FirstObject.firstObject (h : FirstObject t before front rest v) (ht : HasShortIntegers t) :
    firstObject t = .ok v := by
  have hfinds := finds_firstObject ht
  generalize Summary.firstObject t = result at hfinds
  cases hfinds with
  | object h' =>
    rw [h.unique h'.text h'.object (Nat.le_antisymm (h'.first h.text h.object)
      (h.first h'.text h'.object))]
  | nothing hn => exact absurd ⟨before, front, rest, v, h.text, h.object⟩ hn

/-- An object that begins in `before` is complete only behind `front`. -/
def Overtaken (before front rest : Text) : Prop := ∃ a x r w,
  before ++ (front ++ rest) = a ++ (x ++ r) ∧ ObjectText x w ∧ a.length < before.length ∧
    before.length + front.length < a.length + x.length

/-- **The first object stays the first one** whatever follows it, unless that completes an object
which begins before it. -/
theorem FirstObject.change (h : FirstObject t before front rest v) {rest' : Text}
    (ho : ¬ Overtaken before front rest') :
    FirstObject (before ++ (front ++ rest')) before front rest' v where
  text := rfl
  object := h.object
  first := by
    intro a x r w ht hx
    by_contra hlt
    have hle : (a ++ x).length ≤ (before ++ front).length := by
      rw [List.length_append, List.length_append]
      by_contra hle
      exact ho ⟨a, x, r, w, ht, hx, Nat.lt_of_not_le hlt, Nat.lt_of_not_le hle⟩
    -- The object stands in `before` and `front` alone, so that it stood there before.
    rw [← List.append_assoc, ← List.append_assoc] at ht
    obtain ⟨z, hz⟩ := List.prefix_of_prefix_length_le ⟨r, rfl⟩ ⟨rest', ht⟩ hle
    refine hlt (h.first (x := x) (r := z ++ rest) (w := w) ?_ hx)
    rw [h.text, ← List.append_assoc before, ← hz, List.append_assoc, List.append_assoc]

/-! ## Objects that are written -/

theorem objectFrom_append {p : Text} (hp : Point.ofChar '{' ∉ p) (first : Option Json.Fault)
    (t : Text) : objectFrom whole first (p ++ t) = objectFrom whole first t := by
  induction p with
  | nil => rfl
  | cons c p ih =>
    rw [List.mem_cons, not_or] at hp
    rw [List.cons_append, objectFrom, if_neg (Ne.symm hp.1), ih hp.2]

/-- **What is found of an object that is written** is what is read back of it, behind any text without
a brace and whatever follows it. -/
theorem firstObject_written {indent : Option Text} (hi : ∀ i ∈ indent, Json.Spaces i) {p : Text}
    (hp : Point.ofChar '{' ∉ p) {ms : List (Text × Json)} (hw : (Json.object ms).isWritable = true)
    (s : Text) :
    firstObject (p ++ (Json.dumps indent (.object ms) ++ s)) = .ok (Json.object ms).reread := by
  obtain ⟨d, hd⟩ : ∃ d, Json.dumps indent (.object ms) = Point.ofChar '{' :: d :=
    ⟨_, Json.written_object ..⟩
  have hspells := Json.spells_written (Json.isSpace_layout hi) hw 0
  rw [← Json.dumps, hd] at hspells
  have hread := hspells.readFront_of_brace s
  rw [firstObject, objectFrom_append hp, hd, List.cons_append, objectFrom, if_pos rfl, hread]

/-- **An object that is written is found** behind any text without a brace, whatever follows it. -/
theorem firstObject_dumps {indent : Option Text} (hi : ∀ i ∈ indent, Json.Spaces i) {p : Text}
    (hp : Point.ofChar '{' ∉ p) {ms : List (Text × Json)}
    (hproper : (Json.object ms).isProper = true) (hw : (Json.object ms).isWritable = true)
    (s : Text) : firstObject (p ++ (Json.dumps indent (.object ms) ++ s)) = .ok (.object ms) := by
  rw [firstObject_written hi hp hw, Json.reread_of_settled (Json.settled_of_isProper hproper)]

/-- **The first complete object of a text is found**, and a text without one is reported. What follows
the object is of no matter, unless it completes an object that begins before it; so an object that is
written is found behind any text without a brace. -/
theorem firstObject_complete {t : Text} (ht : HasShortIntegers t) :
    ((∃ v, firstObject t = .ok v) ↔ HoldsObject t) ∧
    (∀ v, firstObject t = .ok v ↔ ∃ before front rest, FirstObject t before front rest v) ∧
    (¬ HoldsObject t → ∃ fault message, firstObject t = .error fault ∧
      fault.failure = .reported message) ∧
    (∀ before front rest v, FirstObject t before front rest v → ∀ rest',
      HasShortIntegers (before ++ (front ++ rest')) → ¬ Overtaken before front rest' →
        firstObject (before ++ (front ++ rest')) = .ok v) ∧
    ∀ (indent : Option Text) (p s : Text) (ms : List (Text × Json)), (∀ i ∈ indent, Json.Spaces i) →
      Point.ofChar '{' ∉ p → (Json.object ms).isProper = true →
      (Json.object ms).isWritable = true →
        firstObject (p ++ (Json.dumps indent (.object ms) ++ s)) = .ok (.object ms) := by
  have hfinds := finds_firstObject ht
  have hfirst : ∀ v, firstObject t = .ok v → ∃ before front rest,
      FirstObject t before front rest v := by
    intro v hv
    rw [hv] at hfinds
    cases hfinds with
    | object h => exact ⟨_, _, _, h⟩
  have hnone : ¬ HoldsObject t → ∃ fault message, firstObject t = .error fault ∧
      fault.failure = .reported message := by
    intro hn
    generalize firstObject t = result at hfinds
    cases hfinds with
    | object h => exact absurd ⟨_, _, _, _, h.text, h.object⟩ hn
    | nothing _ hf => exact ⟨_, _, rfl, hf⟩
  refine ⟨⟨fun ⟨v, hv⟩ => ?_, fun hholds => ?_⟩, fun v => ⟨hfirst v, ?_⟩, hnone, ?_, ?_⟩
  · obtain ⟨before, front, rest, h⟩ := hfirst v hv
    exact ⟨before, front, rest, v, h.text, h.object⟩
  · generalize firstObject t = result at hfinds
    cases hfinds with
    | object => exact ⟨_, rfl⟩
    | nothing hn => exact absurd hholds hn
  · rintro ⟨before, front, rest, h⟩
    exact h.firstObject ht
  · intro before front rest v h rest' hshort ho
    exact (h.change ho).firstObject hshort
  · intro indent p s ms hi hp hproper hw
    exact firstObject_dumps hi hp hproper hw s

/-- A text that is short has no long number in it. -/
theorem hasShortIntegers_of_length (h : t.length ≤ maxDigits) : HasShortIntegers t := by
  rintro a u w ds rfl hl ⟨negative, rest, rfl, -, -⟩
  have hle := hl.isSuffix.length_le
  simp only [List.length_append, List.length_map, List.length_cons] at h hle ⊢
  omega

theorem firstObject_complete_inText :
    HasShortIntegers "see \x7b\"b\": 1\x7d." ∧ ∃ before front rest,
      FirstObject "see \x7b\"b\": 1\x7d." before front rest (.object [("b", .int 1)]) := by
  have hshort : HasShortIntegers "see \x7b\"b\": 1\x7d." :=
    hasShortIntegers_of_length (by decide)
  have hfound : firstObject "see \x7b\"b\": 1\x7d." = .ok (.object [("b", .int 1)]) := by cbv
  exact ⟨hshort, ((firstObject_complete hshort).2.1 _).1 hfound⟩

/-- An object behind a brace that starts none. -/
theorem firstObject_of_inner {p : Text} {e : Json.ReadError} (hp : Point.ofChar '{' ∉ p)
    (h : Json.readFront (Point.ofChar '{' :: t) = .ok (v, []))
    (he : Json.readFront (Point.ofChar '{' :: (p ++ Point.ofChar '{' :: t)) = .error e) :
    FirstObject (Point.ofChar '{' :: (p ++ Point.ofChar '{' :: t)) (Point.ofChar '{' :: p)
      (Point.ofChar '{' :: t) [] v := by
  obtain ⟨x, hx, ho⟩ := Json.exists_objectText h
  rw [List.append_nil] at hx
  have hfirst : FirstObject (Point.ofChar '{' :: t) [] (Point.ofChar '{' :: t) [] v :=
    ⟨(List.append_nil _).symm, hx ▸ ho, fun _ _ => Nat.zero_le _⟩
  have hbehind := hfirst.append hp
  rw [List.append_nil] at hbehind
  exact hbehind.cons fun _ _ _ ht => Json.not_objectText_of_error he ht

/-- An object that is found is no longer the first one where a brace behind it completes another
one. -/
theorem firstObject_overtaken :
    FirstObject "\x7b\"a\": \x7b\"b\": 1\x7d" "\x7b\"a\": " "\x7b\"b\": 1\x7d" []
        (.object [("b", .int 1)]) ∧
      HasShortIntegers "\x7b\"a\": \x7b\"b\": 1\x7d" ∧
      HasShortIntegers "\x7b\"a\": \x7b\"b\": 1\x7d\x7d" ∧
      firstObject "\x7b\"a\": \x7b\"b\": 1\x7d\x7d" =
        .ok (.object [("a", .object [("b", .int 1)])]) := by
  have hinner : Json.readFront (Point.ofChar '{' :: Text.ofString "\"b\": 1\x7d") =
      .ok (.object [("b", .int 1)], []) := by cbv
  have houter : Json.readFront (Point.ofChar '{' :: (Text.ofString "\"a\": " ++
      Point.ofChar '{' :: Text.ofString "\"b\": 1\x7d")) =
      .error (.malformed ⟨.expectedComma, 0⟩) := by cbv
  have hfirst := firstObject_of_inner (by decide) hinner houter
  refine ⟨hfirst, hasShortIntegers_of_length (by decide), hasShortIntegers_of_length (by decide), ?_⟩
  cbv

end Summary

end SourceAtlas
