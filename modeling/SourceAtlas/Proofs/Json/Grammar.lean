import SourceAtlas.Json.Reader
import SourceAtlas.Proofs.Json.Numbers

/-!
# Texts that spell a value

The texts of a value: its words, numbers and strings with any white space between them. The reader
takes each of them.

* `Json.Spaces`: white space alone;
* `Json.IsAtom`, `Json.SpellsText`: texts of words and numbers, and of the contents of strings;
* `Json.Spells`: texts of a value;
* `Json.Spells.items`, `Json.Spells.members`: the reader of items and members, given that of values;
* **`Json.Spells.value`**, **`Json.Spells.read`**: the reader takes every text of a value.
-/

namespace SourceAtlas.Json

open Reader (isSpace skipSpace Ends)

/-! ## Texts -/

/-- White space alone. -/
def Spaces (w : Text) : Prop := ∀ c ∈ w, isSpace c = true

instance (w : Text) : Decidable (Spaces w) :=
  inferInstanceAs (Decidable (∀ c ∈ w, isSpace c = true))

/-- The points that a word or a number starts with. -/
def startsAtom (c : Point) : Bool :=
  c.isDigit || ['-', 'n', 't', 'f', 'N', 'I'].any fun d => c = Point.ofChar d

/-- A text of a word or a number. -/
structure IsAtom (t : Text) (v : Json) : Prop where
  start : ∃ c r, t = c :: r ∧ startsAtom c = true
  reads : ∀ rest, Ends rest → Reader.atom (t ++ rest) = .ok (v, rest)

/-- A text between the quotes of a string. -/
def SpellsText (body s : Text) : Prop :=
  ∀ opened rest, Reader.stringBody opened (body ++ Point.ofChar '"' :: rest) = .ok (s, rest)

/-- An item of a list, with the white space around it. -/
structure ItemText where
  before : Text
  text : Text
  after : Text
  value : Json

/-- A member of an object, with the white space around its parts. -/
structure MemberText where
  before : Text
  body : Text
  afterKey : Text
  beforeValue : Text
  text : Text
  after : Text
  key : Text
  value : Json

namespace ItemText

def whole (i : ItemText) : Text := i.before ++ (i.text ++ i.after)

structure Spaced (i : ItemText) : Prop where
  before : Spaces i.before
  after : Spaces i.after

end ItemText

namespace MemberText

/-- The member from its key on. -/
def fromKey (m : MemberText) : Text :=
  Point.ofChar '"' :: (m.body ++ Point.ofChar '"' :: (m.afterKey ++ Point.ofChar ':' ::
    (m.beforeValue ++ (m.text ++ m.after))))

def whole (m : MemberText) : Text := m.before ++ m.fromKey

structure Spaced (m : MemberText) : Prop where
  before : Spaces m.before
  afterKey : Spaces m.afterKey
  beforeValue : Spaces m.beforeValue
  after : Spaces m.after
  key : SpellsText m.body m.key

end MemberText

/-- The texts of a value. -/
inductive Spells : Text → Json → Prop where
  | atom {t : Text} {v : Json} : IsAtom t v → Spells t v
  | text {body s : Text} : SpellsText body s →
      Spells (Point.ofChar '"' :: (body ++ [Point.ofChar '"'])) (.text s)
  | list (w : Text) (is : List ItemText) : Spaces w → (∀ i ∈ is, i.Spaced) →
      (∀ i ∈ is, Spells i.text i.value) →
      Spells (Point.ofChar '[' :: (Text.joinWith [Point.ofChar ','] (is.map ItemText.whole) ++
        (w ++ [Point.ofChar ']']))) (.list (is.map ItemText.value))
  | object (w : Text) (ms : List MemberText) : Spaces w → (∀ m ∈ ms, m.Spaced) →
      (∀ m ∈ ms, Spells m.text m.value) →
      Spells (Point.ofChar '{' :: (Text.joinWith [Point.ofChar ','] (ms.map MemberText.whole) ++
        (w ++ [Point.ofChar '}']))) (ofMembers (ms.map fun m => (m.key, m.value)))

/-! ## White space -/

variable {w t u rest : Text} {v : Json} {c : Point} {n : Nat}

theorem Spaces.nil : Spaces [] := fun _ h => nomatch h

theorem Spaces.append {w' : Text} (h : Spaces w) (h' : Spaces w') : Spaces (w ++ w') :=
  fun c hc => (List.mem_append.1 hc).elim (h c) (h' c)

theorem Spaces.skipSpace (h : Spaces w) (t : Text) : skipSpace (w ++ t) = Reader.skipSpace t :=
  List.dropWhile_append_of_pos h

theorem skipSpace_of_not_space (h : isSpace c = false) : skipSpace (c :: t) = c :: t :=
  List.dropWhile_cons_of_neg (by simp [h])

theorem isSpace_iff : isSpace c = true ↔ c = Point.ofChar ' ' ∨ c = Point.ofChar '\t' ∨
    c = Point.ofChar '\n' ∨ c = Point.ofChar '\r' := by
  simp [isSpace, or_assoc]

/-- What stands between values ends a number. -/
theorem Spaces.ends {d : Char} (h : Spaces w)
    (hd : d.isDigit = false ∧ d ≠ '.' ∧ d ≠ 'e' ∧ d ≠ 'E') : Ends (w ++ Point.ofChar d :: rest) := by
  intro c hc
  cases w with
  | nil =>
    cases hc
    simpa using hd
  | cons b w =>
    cases hc
    rcases isSpace_iff.1 (h c List.mem_cons_self) with rfl | rfl | rfl | rfl <;> simp

/-! ## Starts -/

/-- What the text of a value starts with. -/
structure StartsValue (c : Point) : Prop where
  isSpace : isSpace c = false
  bracket : c ≠ Point.ofChar ']'
  brace : c ≠ Point.ofChar '}'
  mark : c ≠ Point.ofChar '\uFEFF'

theorem startsAtom_ne {d : Char} (h : startsAtom c = true) (hd : startsAtom (Point.ofChar d) = false) :
    c ≠ Point.ofChar d := by
  rintro rfl
  rw [hd] at h
  cases h

theorem StartsValue.of_startsAtom (h : startsAtom c = true) : StartsValue c where
  isSpace := by
    rw [← Bool.not_eq_true, isSpace_iff]
    rintro (e | e | e | e)
    · exact startsAtom_ne h rfl e
    · exact startsAtom_ne h rfl e
    · exact startsAtom_ne h rfl e
    · exact startsAtom_ne h rfl e
  bracket := startsAtom_ne h rfl
  brace := startsAtom_ne h rfl
  mark := startsAtom_ne h rfl

theorem Spells.start (h : Spells t v) : ∃ c r, t = c :: r ∧ StartsValue c := by
  cases h with
  | atom h =>
    obtain ⟨c, r, rfl, hc⟩ := h.start
    exact ⟨c, r, rfl, .of_startsAtom hc⟩
  | text h => exact ⟨_, _, rfl, rfl, by simp, by simp, by simp⟩
  | list w is => exact ⟨_, _, rfl, rfl, by simp, by simp, by simp⟩
  | object w ms => exact ⟨_, _, rfl, rfl, by simp, by simp, by simp⟩

theorem Spells.skipSpace (h : Spells t v) (rest : Text) :
    skipSpace (t ++ rest) = t ++ rest := by
  obtain ⟨c, r, rfl, hc⟩ := h.start
  exact skipSpace_of_not_space hc.isSpace

theorem Spells.length_pos (h : Spells t v) : 0 < t.length := by
  obtain ⟨c, r, rfl, -⟩ := h.start
  exact Nat.succ_pos _

/-! ## The reader -/

/-- The reader takes the text `t` of `v`, whatever ends it. -/
def Reads (t : Text) (v : Json) : Prop :=
  ∀ n rest, 2 * t.length ≤ n → Ends rest → Reader.value n (t ++ rest) = .ok (v, rest)

/-- **Items**: the reader takes each of them, with the space around it, up to the bracket. -/
theorem items_of_reads {is : List ItemText} {i : ItemText} (hw : Spaces w)
    (hs : ∀ j ∈ i :: is, j.Spaced) (ht : ∀ j ∈ i :: is, Spells j.text j.value)
    (hr : ∀ j ∈ i :: is, Reads j.text j.value) {n : Nat}
    (hn : 2 * (Text.joinWith [Point.ofChar ','] ((i :: is).map ItemText.whole)).length + 1 ≤ n) :
    Reader.items n (skipSpace (Text.joinWith [Point.ofChar ','] ((i :: is).map ItemText.whole) ++
        (w ++ Point.ofChar ']' :: rest))) =
      .ok ((i :: is).map ItemText.value, rest) := by
  induction is generalizing i n with
  | nil =>
    have hspaced := hs i List.mem_cons_self
    have hspells := ht i List.mem_cons_self
    obtain ⟨n, rfl⟩ : ∃ k, n = k + 1 := ⟨n - 1, by omega⟩
    have hlen : 2 * i.text.length ≤ n := by
      simp only [List.map_cons, List.map_nil, Text.joinWith, ItemText.whole, List.length_append]
        at hn
      omega
    have hwa := hspaced.after.append hw
    simp only [List.map_cons, List.map_nil, Text.joinWith, ItemText.whole, List.append_assoc]
    rw [hspaced.before.skipSpace, hspells.skipSpace, Reader.items, ← List.append_assoc i.after,
      hr i List.mem_cons_self n _ hlen (hwa.ends (by decide))]
    simp only [bind, Except.bind]
    rw [hwa.skipSpace, skipSpace_of_not_space rfl]
    simp only [pure, Except.pure, if_true]
  | cons j is ih =>
    have hspaced := hs i List.mem_cons_self
    have hspells := ht i List.mem_cons_self
    obtain ⟨n, rfl⟩ : ∃ k, n = k + 1 := ⟨n - 1, by omega⟩
    have hjoin : Text.joinWith [Point.ofChar ','] ((i :: j :: is).map ItemText.whole) =
        i.before ++ (i.text ++ (i.after ++ Point.ofChar ',' ::
          Text.joinWith [Point.ofChar ','] ((j :: is).map ItemText.whole))) := by
      simp [Text.joinWith, ItemText.whole]
    rw [hjoin] at hn ⊢
    simp only [List.length_append, List.length_cons] at hn
    have hrest := @ih j (fun k hk => hs k (List.mem_cons_of_mem i hk))
      (fun k hk => ht k (List.mem_cons_of_mem i hk)) (fun k hk => hr k (List.mem_cons_of_mem i hk))
      n (by omega)
    simp only [List.append_assoc, List.cons_append]
    rw [hspaced.before.skipSpace, hspells.skipSpace, Reader.items,
      hr i List.mem_cons_self n _ (by omega) (hspaced.after.ends (by decide))]
    simp only [bind, Except.bind]
    rw [hspaced.after.skipSpace, skipSpace_of_not_space rfl]
    have hcomma : (',' : Char) ≠ ']' := by decide
    simp only [Point.ofChar_inj, hcomma, if_false, if_true, pure, Except.pure]
    rw [hrest]
    rfl

/-- **Members**: the reader takes each of them, with the space around it, up to the brace. -/
theorem members_of_reads {ms : List MemberText} {m : MemberText} (hw : Spaces w)
    (hs : ∀ k ∈ m :: ms, k.Spaced) (ht : ∀ k ∈ m :: ms, Spells k.text k.value)
    (hr : ∀ k ∈ m :: ms, Reads k.text k.value) {n : Nat}
    (hn : 2 * (Text.joinWith [Point.ofChar ','] ((m :: ms).map MemberText.whole)).length ≤ n) :
    Reader.members n (skipSpace (Text.joinWith [Point.ofChar ','] ((m :: ms).map MemberText.whole) ++
        (w ++ Point.ofChar '}' :: rest))) =
      .ok ((m :: ms).map fun k => (k.key, k.value), rest) := by
  induction ms generalizing m n with
  | nil =>
    have hspaced := hs m List.mem_cons_self
    have hspells := ht m List.mem_cons_self
    have hpos := hspells.length_pos
    simp only [List.map_cons, List.map_nil, Text.joinWith, MemberText.whole, MemberText.fromKey,
      List.length_append, List.length_cons] at hn
    obtain ⟨n, rfl⟩ : ∃ k, n = k + 1 := ⟨n - 1, by omega⟩
    have hwa := hspaced.after.append hw
    simp only [List.map_cons, List.map_nil, Text.joinWith, MemberText.whole, MemberText.fromKey,
      List.append_assoc, List.cons_append]
    rw [hspaced.before.skipSpace, skipSpace_of_not_space rfl, Reader.members, if_pos rfl,
      hspaced.key]
    simp only [bind, Except.bind]
    rw [hspaced.afterKey.skipSpace, skipSpace_of_not_space rfl]
    dsimp only
    rw [if_pos rfl, hspaced.beforeValue.skipSpace, hspells.skipSpace, ← List.append_assoc m.after,
      hr m List.mem_cons_self n _ (by omega) (hwa.ends (by decide))]
    dsimp only
    rw [hwa.skipSpace, skipSpace_of_not_space rfl]
    simp only [pure, Except.pure, if_true]
  | cons k ms ih =>
    have hspaced := hs m List.mem_cons_self
    have hspells := ht m List.mem_cons_self
    have hjoin : Text.joinWith [Point.ofChar ','] ((m :: k :: ms).map MemberText.whole) =
        m.whole ++ Point.ofChar ',' ::
          Text.joinWith [Point.ofChar ','] ((k :: ms).map MemberText.whole) := by
      simp [Text.joinWith]
    rw [hjoin] at hn ⊢
    simp only [MemberText.whole, MemberText.fromKey, List.length_append, List.length_cons] at hn
    obtain ⟨n, rfl⟩ : ∃ k, n = k + 1 := ⟨n - 1, by omega⟩
    have hrest := @ih k (fun l hl => hs l (List.mem_cons_of_mem m hl))
      (fun l hl => ht l (List.mem_cons_of_mem m hl)) (fun l hl => hr l (List.mem_cons_of_mem m hl))
      n (by omega)
    simp only [MemberText.whole, MemberText.fromKey, List.append_assoc, List.cons_append]
    rw [hspaced.before.skipSpace, skipSpace_of_not_space rfl, Reader.members, if_pos rfl,
      hspaced.key]
    simp only [bind, Except.bind]
    rw [hspaced.afterKey.skipSpace, skipSpace_of_not_space rfl]
    dsimp only
    rw [if_pos rfl, hspaced.beforeValue.skipSpace, hspells.skipSpace,
      hr m List.mem_cons_self n _ (by omega) (hspaced.after.ends (by decide))]
    dsimp only
    rw [hspaced.after.skipSpace, skipSpace_of_not_space rfl]
    have hcomma : (',' : Char) ≠ '}' := by decide
    simp only [Point.ofChar_inj, hcomma, if_false, if_true, pure, Except.pure]
    rw [hrest]
    rfl

theorem joinWith_cons (sep t : Text) (ts : List Text) :
    Text.joinWith sep (t :: ts) = t ++ ts.flatMap fun u => sep ++ u := by
  induction ts generalizing t with
  | nil => exact (List.append_nil t).symm
  | cons u ts ih =>
    rw [Text.joinWith, ih u, List.flatMap_cons, List.append_assoc, List.append_assoc]
    simp

/-- The first item starts right after the space before it. -/
theorem start_items {is : List ItemText} {i : ItemText} (hs : i.Spaced) (ht : Spells i.text i.value)
    (u : Text) :
    ∃ c r, skipSpace (Text.joinWith [Point.ofChar ','] ((i :: is).map ItemText.whole) ++ u) = c :: r ∧
      StartsValue c := by
  obtain ⟨c, r, hc, hstart⟩ := ht.start
  rw [List.map_cons, joinWith_cons, ItemText.whole, List.append_assoc, List.append_assoc,
    hs.before.skipSpace, List.append_assoc, ht.skipSpace, hc]
  exact ⟨c, _, rfl, hstart⟩

theorem start_members {ms : List MemberText} {m : MemberText} (hs : m.Spaced) (u : Text) :
    ∃ r, skipSpace (Text.joinWith [Point.ofChar ','] ((m :: ms).map MemberText.whole) ++ u) =
      Point.ofChar '"' :: r := by
  rw [List.map_cons, joinWith_cons, MemberText.whole, List.append_assoc, List.append_assoc,
    hs.before.skipSpace, MemberText.fromKey, List.cons_append, skipSpace_of_not_space rfl]
  exact ⟨_, rfl⟩

/-- **Objects** need nothing that ends them. -/
theorem value_of_members {ms : List MemberText} (hw : Spaces w) (hs : ∀ m ∈ ms, m.Spaced)
    (ht : ∀ m ∈ ms, Spells m.text m.value) (hr : ∀ m ∈ ms, Reads m.text m.value) {n : Nat}
    (hn : 2 * (Point.ofChar '{' :: (Text.joinWith [Point.ofChar ','] (ms.map MemberText.whole) ++
      (w ++ [Point.ofChar '}']))).length ≤ n) :
    Reader.value n (Point.ofChar '{' :: (Text.joinWith [Point.ofChar ','] (ms.map MemberText.whole) ++
        (w ++ Point.ofChar '}' :: rest))) =
      .ok (ofMembers (ms.map fun m => (m.key, m.value)), rest) := by
  simp only [List.length_cons, List.length_append, List.length_nil] at hn
  obtain ⟨n, rfl⟩ : ∃ k, n = k + 1 := ⟨n - 1, by omega⟩
  rw [Reader.value, if_neg (by simp), if_pos rfl]
  cases ms with
  | nil =>
    rw [List.map_nil, Text.joinWith, List.nil_append, hw.skipSpace, skipSpace_of_not_space rfl]
    simp only [if_true]
    rfl
  | cons m ms =>
    have hmembers := @members_of_reads w rest ms m hw hs ht hr n (by omega)
    obtain ⟨r, hstart⟩ := @start_members ms m (hs m List.mem_cons_self)
      (w ++ Point.ofChar '}' :: rest)
    have hquote : ('"' : Char) ≠ '}' := by decide
    rw [hstart] at hmembers ⊢
    simp only [Point.ofChar_inj, hquote, if_false, hmembers]
    rfl

/-- **The reader takes every text of a value.** -/
theorem Spells.reads (h : Spells t v) : Reads t v := by
  induction h with
  | atom h =>
    intro n rest hn hr
    obtain ⟨c, r, rfl, hc⟩ := h.start
    obtain ⟨n, rfl⟩ : ∃ k, n = k + 1 := ⟨n - 1, by simp at hn; omega⟩
    rw [← h.reads rest hr, List.cons_append, Reader.value, if_neg (startsAtom_ne hc rfl),
      if_neg (startsAtom_ne hc rfl), if_neg (startsAtom_ne hc rfl)]
  | text h =>
    intro n rest hn hr
    obtain ⟨n, rfl⟩ : ∃ k, n = k + 1 := ⟨n - 1, by simp at hn; omega⟩
    rw [List.cons_append, List.append_assoc, Reader.value, if_pos rfl, List.singleton_append, h]
    rfl
  | list w is hw hs ht ih =>
    intro n rest hn hr
    simp only [List.length_cons, List.length_append, List.length_nil] at hn
    obtain ⟨n, rfl⟩ : ∃ k, n = k + 1 := ⟨n - 1, by omega⟩
    rw [List.cons_append, List.append_assoc, List.append_assoc, Reader.value, if_neg (by simp),
      if_neg (by simp), if_pos rfl, List.singleton_append]
    cases is with
    | nil =>
      rw [List.map_nil, Text.joinWith, List.nil_append, hw.skipSpace, skipSpace_of_not_space rfl]
      simp only [if_true]
      rfl
    | cons i is =>
      have hitems := @items_of_reads w rest is i hw hs ht ih n (by omega)
      obtain ⟨c, r, hstart, hc⟩ := @start_items is i (hs i List.mem_cons_self)
        (ht i List.mem_cons_self) (w ++ Point.ofChar ']' :: rest)
      rw [hstart] at hitems ⊢
      simp only [hc.bracket, if_false, hitems]
      rfl
  | object w ms hw hs ht ih =>
    intro n rest hn _
    rw [List.cons_append, List.append_assoc, List.append_assoc, List.singleton_append]
    exact value_of_members hw hs ht ih hn

/-- **A text of a value is read**, with any white space around it. -/
theorem Spells.read {w' : Text} (h : Spells t v) (hw : Spaces w) (hw' : Spaces w') :
    Json.read (w ++ (t ++ w')) = .ok v := by
  have hends : Ends w' := by
    intro c hc
    rcases isSpace_iff.1 (hw' c (List.mem_of_mem_head? hc)) with rfl | rfl | rfl | rfl <;> simp
  have hfront : readFront (t ++ w') = .ok (v, w') :=
    h.reads _ w' (by rw [List.length_append]; omega) hends
  have hback : Reader.skipSpace w' = [] := by
    have := hw'.skipSpace []
    rwa [List.append_nil] at this
  obtain ⟨c, r, hstart, hc⟩ : ∃ c r, w ++ (t ++ w') = c :: r ∧ c ≠ Point.ofChar '﻿' := by
    cases w with
    | nil =>
      obtain ⟨c, r, rfl, hc⟩ := h.start
      exact ⟨c, _, rfl, hc.mark⟩
    | cons c w =>
      refine ⟨c, _, rfl, ?_⟩
      rcases isSpace_iff.1 (hw c List.mem_cons_self) with rfl | rfl | rfl | rfl <;> simp
  have hskip : Reader.skipSpace (c :: r) = t ++ w' := by
    rw [← hstart, hw.skipSpace, h.skipSpace]
  rw [hstart, Json.read, if_neg hc, hskip, hfront]
  simp only [bind, Except.bind, hback]
  rfl

/-- **A text of an object is read whatever follows it.** -/
theorem Spells.readFront_of_brace (h : Spells (Point.ofChar '{' :: t) v) (rest : Text) :
    readFront (Point.ofChar '{' :: (t ++ rest)) = .ok (v, rest) := by
  unfold readFront
  generalize hu : Point.ofChar '{' :: t = u at h
  cases h with
  | atom h =>
    obtain ⟨c, r, rfl, hc⟩ := h.start
    exact absurd (List.cons.inj hu).1.symm (startsAtom_ne hc rfl)
  | text => exact absurd (List.cons.inj hu).1 (by simp)
  | list => exact absurd (List.cons.inj hu).1 (by simp)
  | object w ms hw hs ht =>
    obtain ⟨-, rfl⟩ := List.cons.inj hu
    rw [List.append_assoc, List.append_assoc, List.singleton_append]
    refine value_of_members hw hs ht (fun m hm => (ht m hm).reads) ?_
    simp only [List.length_cons, List.length_append, List.length_nil]
    omega

end SourceAtlas.Json
