import Mathlib.Data.List.Forall2
import SourceAtlas.Proofs.Json.Tokens

/-!
# JSON texts as tokens

A JSON text is a row of tokens with white space between them. Which rows are the tokens of a value is
told without a reader; the reader takes the texts of these rows, and no others.

* `Json.Token`, `Json.Laid`, `Json.Document`: tokens, and texts with gaps between them;
* `Json.Phrase`: the rows of tokens of a value;
* `Json.Lexes`: what comes after some tokens of a text;
* **`Json.exists_spells`**: the text of such a row spells the value;
* `Json.Comes`, **`Json.comes_value`**: what the reader may come to;
* **`Json.read_eq_ok_iff`**: a text is read exactly if it is the text of such a row.
-/

namespace SourceAtlas.Json

open Reader (isSpace skipSpace Ends)

/-! ## Tokens -/

/-- A token: a mark, a string by what stands between its quotes, or a word or number. -/
inductive Token where
  | mark (c : Char)
  | string (body : Text)
  | atom (text : Text)
deriving DecidableEq

def Token.text : Token → Text
  | mark c => [Point.ofChar c]
  | string body => Point.ofChar '"' :: (body ++ [Point.ofChar '"'])
  | atom text => text

/-- The rows of tokens with commas between them. -/
def commas : List (List Token) → List Token
  | [] => []
  | [ks] => ks
  | ks :: ls :: rows => ks ++ .mark ',' :: commas (ls :: rows)

/-- The tokens of a member of an object. -/
structure MemberPhrase where
  body : Text
  key : Text
  tokens : List Token
  value : Json

namespace MemberPhrase

/-- The tokens of the member, with its key. -/
def whole (m : MemberPhrase) : List Token := .string m.body :: .mark ':' :: m.tokens

def member (m : MemberPhrase) : Text × Json := (m.key, m.value)

end MemberPhrase

/-- The rows of tokens of a value. -/
inductive Phrase : List Token → Json → Prop where
  | atom {t : Text} {v : Json} : SpellsAtom t v → Phrase [.atom t] v
  | string {b s : Text} : SpellsBody b s → Phrase [.string b] (.text s)
  | list (is : List (List Token × Json)) : (∀ i ∈ is, Phrase i.1 i.2) →
      Phrase (.mark '[' :: (commas (is.map Prod.fst) ++ [.mark ']'])) (.list (is.map Prod.snd))
  | object (ms : List MemberPhrase) : (∀ m ∈ ms, SpellsBody m.body m.key) →
      (∀ m ∈ ms, Phrase m.tokens m.value) →
      Phrase (.mark '{' :: (commas (ms.map MemberPhrase.whole) ++ [.mark '}']))
        (ofMembers (ms.map MemberPhrase.member))

/-- The texts of a row of tokens with a gap before each of them. -/
inductive Laid (G : Text → Prop) : List Token → Text → Prop where
  | nil : Laid G [] []
  | cons {g t : Text} {k : Token} {ks : List Token} : G g → Laid G ks t →
      Laid G (k :: ks) (g ++ (k.text ++ t))

/-- The texts of a row of tokens with gaps around each of them. -/
def Document (G : Text → Prop) (ks : List Token) (t : Text) : Prop :=
  ∃ x g, Laid G ks x ∧ G g ∧ t = x ++ g

variable {G : Text → Prop} {k : Token} {ks ls : List Token} {g t u w x y z rest : Text} {v : Json}
  {n : Nat}

theorem laid_cons_iff :
    Laid G (k :: ks) t ↔ ∃ g u, G g ∧ Laid G ks u ∧ t = g ++ (k.text ++ u) := by
  constructor
  · rintro (_ | ⟨hg, hu⟩)
    exact ⟨_, _, hg, hu, rfl⟩
  · rintro ⟨g, u, hg, hu, rfl⟩
    exact .cons hg hu

theorem laid_singleton_iff : Laid G [k] t ↔ ∃ g, G g ∧ t = g ++ k.text := by
  rw [laid_cons_iff]
  constructor
  · rintro ⟨g, u, hg, ⟨⟩, rfl⟩
    exact ⟨g, hg, by rw [List.append_nil]⟩
  · rintro ⟨g, hg, rfl⟩
    exact ⟨g, [], hg, .nil, by rw [List.append_nil]⟩

theorem Laid.append (hx : Laid G ks x) (hy : Laid G ls y) : Laid G (ks ++ ls) (x ++ y) := by
  induction hx with
  | nil => exact hy
  | cons hg _ ih =>
    rw [List.append_assoc, List.append_assoc]
    exact .cons hg ih

/-- The text of two rows is a text of each of them. -/
theorem exists_laid_append (h : Laid G (ks ++ ls) t) :
    ∃ x y, Laid G ks x ∧ Laid G ls y ∧ t = x ++ y := by
  induction ks generalizing t with
  | nil => exact ⟨[], t, .nil, h, rfl⟩
  | cons k ks ih =>
    obtain ⟨g, u, hg, hu, rfl⟩ := laid_cons_iff.1 h
    obtain ⟨x, y, hx, hy, rfl⟩ := ih hu
    exact ⟨_, y, .cons hg hx, hy, by simp only [List.append_assoc]⟩

theorem Laid.space (h : Laid Spaces ks t) (hw : Spaces w) (hne : ks ≠ []) :
    Laid Spaces ks (w ++ t) := by
  cases h with
  | nil => exact absurd rfl hne
  | cons hg hu =>
    rw [← List.append_assoc]
    exact .cons (hw.append hg) hu

theorem Phrase.ne_nil (h : Phrase ks v) : ks ≠ [] := by
  cases h <;> exact List.cons_ne_nil _ _

/-! ## Texts of values -/

/-- Rows with commas between them: the text of each row, and the gap after it. -/
theorem exists_laid_commas (hG : G []) {rows : List (List Token)} (h : Laid G (commas rows) t) :
    ∃ pieces : List (Text × Text),
      List.Forall₂ (fun ks p => Laid G ks p.1 ∧ G p.2) rows pieces ∧
        t = Text.joinWith [Point.ofChar ','] (pieces.map fun p => p.1 ++ p.2) := by
  fun_induction commas rows generalizing t with
  | case1 =>
    cases h
    exact ⟨[], .nil, rfl⟩
  | case2 ks => exact ⟨[(t, [])], .cons ⟨h, hG⟩ .nil, (List.append_nil t).symm⟩
  | case3 ks ls rows ih =>
    obtain ⟨x, y, hx, hy, rfl⟩ := exists_laid_append h
    obtain ⟨g, u, hg, hu, rfl⟩ := laid_cons_iff.1 hy
    obtain ⟨pieces, hp, rfl⟩ := ih hu
    obtain ⟨p, ps, rfl⟩ : ∃ p ps, pieces = p :: ps := by
      cases hp
      exact ⟨_, _, rfl⟩
    refine ⟨(x, g) :: p :: ps, .cons ⟨hx, hg⟩ hp, ?_⟩
    simp [Text.joinWith, Token.text]

/-- The text of a row spells a value, after some space. -/
def SpellsRow (ks : List Token) (v : Json) : Prop :=
  ∀ x, Laid Spaces ks x → ∃ w y, Spaces w ∧ Spells y v ∧ x = w ++ y

theorem exists_items {is : List (List Token × Json)} (hi : ∀ i ∈ is, SpellsRow i.1 i.2)
    {pieces : List (Text × Text)}
    (hp : List.Forall₂ (fun ks p => Laid Spaces ks p.1 ∧ Spaces p.2) (is.map Prod.fst) pieces) :
    ∃ items : List ItemText, (∀ i ∈ items, i.Spaced) ∧ (∀ i ∈ items, Spells i.text i.value) ∧
      items.map ItemText.value = is.map Prod.snd ∧
      items.map ItemText.whole = pieces.map fun p => p.1 ++ p.2 := by
  induction is generalizing pieces with
  | nil =>
    cases hp
    exact ⟨[], nofun, nofun, rfl, rfl⟩
  | cons i is ih =>
    obtain ⟨hmem, his⟩ := List.forall_mem_cons.1 hi
    rw [List.map_cons, List.forall₂_cons_left_iff] at hp
    obtain ⟨p, ps, ⟨hlaid, hspaces⟩, hps, rfl⟩ := hp
    obtain ⟨items, hspaced, hspells, hvalue, hwhole⟩ := ih his hps
    obtain ⟨w, y, hw, hy, hxy⟩ := hmem p.1 hlaid
    refine ⟨⟨w, y, p.2, i.2⟩ :: items, List.forall_mem_cons.2 ⟨⟨hw, hspaces⟩, hspaced⟩,
      List.forall_mem_cons.2 ⟨hy, hspells⟩, ?_, ?_⟩
    · rw [List.map_cons, List.map_cons, hvalue]
    · rw [List.map_cons, List.map_cons, hwhole, hxy, ItemText.whole, List.append_assoc]

theorem exists_members {ms : List MemberPhrase} (hk : ∀ m ∈ ms, SpellsBody m.body m.key)
    (hm : ∀ m ∈ ms, SpellsRow m.tokens m.value) {pieces : List (Text × Text)}
    (hp : List.Forall₂ (fun ks p => Laid Spaces ks p.1 ∧ Spaces p.2) (ms.map MemberPhrase.whole)
      pieces) :
    ∃ members : List MemberText, (∀ m ∈ members, m.Spaced) ∧
      (∀ m ∈ members, Spells m.text m.value) ∧
      (members.map fun m => (m.key, m.value)) = ms.map MemberPhrase.member ∧
      members.map MemberText.whole = pieces.map fun p => p.1 ++ p.2 := by
  induction ms generalizing pieces with
  | nil =>
    cases hp
    exact ⟨[], nofun, nofun, rfl, rfl⟩
  | cons m ms ih =>
    obtain ⟨hkey, hks⟩ := List.forall_mem_cons.1 hk
    obtain ⟨hmem, hms⟩ := List.forall_mem_cons.1 hm
    rw [List.map_cons, List.forall₂_cons_left_iff] at hp
    obtain ⟨p, ps, ⟨hlaid, hspaces⟩, hps, rfl⟩ := hp
    obtain ⟨members, hspaced, hspells, hvalue, hwhole⟩ := ih hks hms hps
    obtain ⟨g, u, hg, hu, hp⟩ := laid_cons_iff.1 hlaid
    obtain ⟨g', u', hg', hu', rfl⟩ := laid_cons_iff.1 hu
    obtain ⟨w, y, hw, hy, rfl⟩ := hmem u' hu'
    refine ⟨⟨g, m.body, g', w, y, p.2, m.key, m.value⟩ :: members,
      List.forall_mem_cons.2 ⟨⟨hg, hg', hw, hspaces, hkey.spellsText⟩, hspaced⟩,
      List.forall_mem_cons.2 ⟨hy, hspells⟩, ?_, ?_⟩
    · rw [List.map_cons, List.map_cons, hvalue]
      rfl
    · rw [List.map_cons, List.map_cons, hwhole, hp]
      simp [MemberText.whole, MemberText.fromKey, Token.text]

/-- **The text of the tokens of a value spells the value.** -/
theorem exists_spells (h : Phrase ks v) : SpellsRow ks v := by
  induction h with
  | atom h =>
    intro x hx
    obtain ⟨w, hw, rfl⟩ := laid_singleton_iff.1 hx
    exact ⟨w, _, hw, .atom h.isAtom, rfl⟩
  | string h =>
    intro x hx
    obtain ⟨w, hw, rfl⟩ := laid_singleton_iff.1 hx
    exact ⟨w, _, hw, .text h.spellsText, rfl⟩
  | list is _ ih =>
    intro x hx
    obtain ⟨g, u, hg, hu, rfl⟩ := laid_cons_iff.1 hx
    obtain ⟨y, z, hy, hz, rfl⟩ := exists_laid_append hu
    obtain ⟨w, hw, rfl⟩ := laid_singleton_iff.1 hz
    obtain ⟨pieces, hp, rfl⟩ := exists_laid_commas Spaces.nil hy
    obtain ⟨items, hspaced, hspells, hvalue, hwhole⟩ := exists_items ih hp
    rw [← hvalue, ← hwhole]
    exact ⟨g, _, hg, .list w items hw hspaced hspells, rfl⟩
  | object ms hk _ ih =>
    intro x hx
    obtain ⟨g, u, hg, hu, rfl⟩ := laid_cons_iff.1 hx
    obtain ⟨y, z, hy, hz, rfl⟩ := exists_laid_append hu
    obtain ⟨w, hw, rfl⟩ := laid_singleton_iff.1 hz
    obtain ⟨pieces, hp, rfl⟩ := exists_laid_commas Spaces.nil hy
    obtain ⟨members, hspaced, hspells, hvalue, hwhole⟩ := exists_members hk ih hp
    rw [← hvalue, ← hwhole]
    exact ⟨g, _, hg, .object w members hw hspaced hspells, rfl⟩

theorem commas_cons {rows : List (List Token)} (h : rows ≠ []) :
    commas (ks :: rows) = ks ++ .mark ',' :: commas rows := by
  cases rows with
  | nil => exact absurd rfl h
  | cons => rfl

/-! ## What comes after some tokens -/

/-- The marks between values. -/
def marks : List Char := ['[', ']', '{', '}', ',', ':']

/-- In the text `t` come tokens with white space between them, and then `u`. Words and numbers are
taken as far as they go. -/
inductive Lexes : Text → Text → Prop where
  | refl (t : Text) : Lexes t t
  | space {c : Point} {t u : Text} : isSpace c = true → Lexes t u → Lexes (c :: t) u
  | mark {c : Char} {t u : Text} : c ∈ marks → Lexes t u → Lexes (Point.ofChar c :: t) u
  | string {b s t u : Text} : SpellsBody b s → Lexes t u →
      Lexes (Point.ofChar '"' :: (b ++ Point.ofChar '"' :: t)) u
  | atom {a t u : Text} {v : Json} : SpellsAtom a v → Ends t → Lexes t u → Lexes (a ++ t) u

theorem Lexes.trans (h : Lexes t u) (h' : Lexes u w) : Lexes t w := by
  induction h with
  | refl => exact h'
  | space hc _ ih => exact .space hc (ih h')
  | mark hc _ ih => exact .mark hc (ih h')
  | string hb _ ih => exact .string hb (ih h')
  | atom ha ht _ ih => exact .atom ha ht (ih h')

theorem Lexes.isSuffix (h : Lexes t u) : u <:+ t := by
  induction h with
  | refl t => exact List.suffix_rfl
  | space _ _ ih | mark _ _ ih => exact ih.trans (List.suffix_cons _ _)
  | @string b s t u _ _ ih =>
    exact ih.trans ⟨Point.ofChar '"' :: (b ++ [Point.ofChar '"']), by simp⟩
  | atom _ _ _ ih => exact ih.trans (List.suffix_append _ _)

theorem lexes_spaces (hw : Spaces w) (t : Text) : Lexes (w ++ t) t := by
  induction w with
  | nil => exact .refl t
  | cons c w ih =>
    rw [Spaces, List.forall_mem_cons] at hw
    exact .space hw.1 (ih hw.2)

/-! ## What the reader may come to -/

variable {α β : Type} {P : Text → α → Prop} {Q : Text → β → Prop}

/-- What a reader may come to: it takes the front of the text that `P` tells of, or the text is faulty,
or after some tokens comes a whole number that is too long. -/
inductive Comes (P : Text → α → Prop) (t : Text) : Except ReadError (α × Text) → Prop where
  | ok {x rest : Text} {a : α} : t = x ++ rest → P x a → (Ends rest → Lexes t rest) →
      Comes P t (.ok (a, rest))
  | malformed (fault : Fault) : Comes P t (.error (.malformed fault))
  | tooManyDigits {u : Text} {ds : List Char} : Lexes t u → IntegerAt u ds → maxDigits < ds.length →
      Comes P t (.error (.tooManyDigits ds.length))

/-- A reader that goes on after another one. The first one reads `u`, which comes after some tokens
of `t`. -/
theorem Comes.bind {r : Except ReadError (α × Text)} {f : α × Text → Except ReadError (β × Text)}
    (h : Comes P u r) (hl : Lexes t u)
    (hf : ∀ x a rest, u = x ++ rest → P x a → (Ends rest → Lexes t rest) → Comes Q t (f (a, rest))) :
    Comes Q t (r >>= f) := by
  cases h with
  | ok hu hp hrest => exact hf _ _ _ hu hp fun hr => hl.trans (hrest hr)
  | malformed fault => exact .malformed fault
  | tooManyDigits hu hi hd => exact .tooManyDigits (hl.trans hu) hi hd

theorem comes_fault (kind : FaultKind) (rest : Text) :
    Comes P t (Reader.fault kind rest : Except ReadError (α × Text)) :=
  .malformed _

/-- A string, with its quotes. -/
def StringText (x s : Text) : Prop :=
  ∃ b, SpellsBody b s ∧ x = Point.ofChar '"' :: (b ++ [Point.ofChar '"'])

theorem comes_string (opened : Nat) (t : Text) :
    Comes StringText (Point.ofChar '"' :: t) (Reader.stringBody opened t) := by
  cases h : Reader.stringBody opened t with
  | error e =>
    obtain ⟨fault, rfl⟩ := stringBody_error h
    exact .malformed fault
  | ok p =>
    obtain ⟨s, rest⟩ := p
    obtain ⟨b, rfl, hb⟩ := exists_spellsBody h
    exact .ok (by simp) ⟨b, hb, rfl⟩ fun _ => .string hb (.refl rest)

theorem comes_atom (t : Text) : Comes SpellsAtom t (Reader.atom t) := by
  have h := takesAtom_atom t
  generalize Reader.atom t = result at h
  cases h with
  | ok ht ha => exact .ok ht ha fun hr => ht ▸ .atom ha hr (.refl _)
  | malformed fault => exact .malformed fault
  | tooManyDigits hi hd => exact .tooManyDigits (.refl t) hi hd

theorem skipSpace_spec (t : Text) : ∃ w, Spaces w ∧ t = w ++ skipSpace t :=
  ⟨t.takeWhile isSpace, fun _ hc => List.mem_takeWhile_imp hc, List.takeWhile_append_dropWhile.symm⟩

/-- Space and a mark. -/
theorem exists_spaces_of_skipSpace {c : Point} (h : skipSpace t = c :: rest) :
    ∃ w, Spaces w ∧ t = w ++ c :: rest :=
  h ▸ skipSpace_spec t

/-- After a value comes space and a mark. -/
theorem lexes_mark {c : Char} (hc : c ∈ marks) (hw : Spaces w)
    (h : Ends (w ++ Point.ofChar c :: rest) → Lexes t (w ++ Point.ofChar c :: rest)) :
    Lexes t rest := by
  have hends : ∀ c ∈ marks, c.isDigit = false ∧ c ≠ '.' ∧ c ≠ 'e' ∧ c ≠ 'E' := by simp [marks]
  exact (h (hw.ends (hends c hc))).trans ((lexes_spaces hw _).trans (.mark hc (.refl rest)))

/-- After a value comes space, a mark, and space again. -/
theorem lexes_mark_spaces {c : Char} {w' r r' : Text} (hc : c ∈ marks) (hw : Spaces w)
    (hw' : Spaces w') (hr : r = w' ++ r')
    (h : Ends (w ++ Point.ofChar c :: r) → Lexes t (w ++ Point.ofChar c :: r)) : Lexes t r' :=
  (lexes_mark hc hw h).trans (hr ▸ lexes_spaces hw' r')

/-- The text of a value. -/
def ValueText (x : Text) (v : Json) : Prop := ∃ ks, Phrase ks v ∧ Laid Spaces ks x

/-- The text of items and the closing bracket. -/
def ItemsText (x : Text) (vs : List Json) : Prop := ∃ is : List (List Token × Json), is ≠ [] ∧
  (∀ i ∈ is, Phrase i.1 i.2) ∧ vs = is.map Prod.snd ∧
    Laid Spaces (commas (is.map Prod.fst) ++ [.mark ']']) x

/-- The text of a member, from its key on. -/
def EntryText (x : Text) (m : Text × Json) : Prop := ∃ p : MemberPhrase,
  SpellsBody p.body p.key ∧ Phrase p.tokens p.value ∧ m = p.member ∧ Laid Spaces p.whole x

/-- The text of members and the closing brace. -/
def MembersText (x : Text) (ms : List (Text × Json)) : Prop := ∃ ps : List MemberPhrase, ps ≠ [] ∧
  (∀ p ∈ ps, SpellsBody p.body p.key) ∧ (∀ p ∈ ps, Phrase p.tokens p.value) ∧
    ms = ps.map MemberPhrase.member ∧
    Laid Spaces (commas (ps.map MemberPhrase.whole) ++ [.mark '}']) x

theorem laid_mark {c : Char} (hw : Spaces w) : Laid Spaces [.mark c] (w ++ [Point.ofChar c]) :=
  laid_singleton_iff.2 ⟨w, hw, rfl⟩

/-- A row that starts with a mark. -/
theorem Laid.mark (h : Laid Spaces ks t) (c : Char) :
    Laid Spaces (.mark c :: ks) (Point.ofChar c :: t) :=
  laid_cons_iff.2 ⟨[], t, Spaces.nil, h, rfl⟩

/-- Rows with a comma between them. -/
theorem Laid.append_comma {w' : Text} (hx : Laid Spaces ks x) (hy : Laid Spaces ls y)
    (hl : ls ≠ []) (hw : Spaces w) (hw' : Spaces w') :
    Laid Spaces (ks ++ .mark ',' :: ls) (x ++ (w ++ [Point.ofChar ','] ++ (w' ++ y))) :=
  hx.append ((laid_mark hw).append (hy.space hw' hl))

theorem ValueText.items (h : ValueText x v) (hw : Spaces w) :
    ItemsText (x ++ (w ++ [Point.ofChar ']'])) [v] := by
  obtain ⟨ks, hk, hx⟩ := h
  exact ⟨[(ks, v)], by simp, by simpa using hk, rfl, hx.append (laid_mark hw)⟩

theorem ItemsText.cons {w' : Text} {vs : List Json} (h : ItemsText y vs) (hv : ValueText x v)
    (hw : Spaces w) (hw' : Spaces w') :
    ItemsText (x ++ (w ++ [Point.ofChar ','] ++ (w' ++ y))) (v :: vs) := by
  obtain ⟨ks, hk, hx⟩ := hv
  obtain ⟨is, hne, hp, rfl, hlaid⟩ := h
  refine ⟨(ks, v) :: is, by simp, List.forall_mem_cons.2 ⟨hk, hp⟩, rfl, ?_⟩
  rw [List.map_cons, commas_cons (by simpa using hne), List.append_assoc, List.cons_append]
  exact hx.append_comma hlaid (by simp) hw hw'

theorem ValueText.entry {w' b s : Text} (h : ValueText y v) (hb : SpellsBody b s) (hw : Spaces w)
    (hw' : Spaces w') : EntryText (Point.ofChar '"' :: (b ++ [Point.ofChar '"']) ++
      (w ++ [Point.ofChar ':'] ++ (w' ++ y))) (s, v) := by
  obtain ⟨ks, hk, hy⟩ := h
  have hkey : Laid Spaces [.string b] (Point.ofChar '"' :: (b ++ [Point.ofChar '"'])) :=
    laid_singleton_iff.2 ⟨[], Spaces.nil, rfl⟩
  exact ⟨⟨b, s, ks, v⟩, hb, hk, rfl, hkey.append ((laid_mark hw).append (hy.space hw' hk.ne_nil))⟩

variable {m : Text × Json} {ms : List (Text × Json)}

theorem EntryText.members (h : EntryText x m) (hw : Spaces w) :
    MembersText (x ++ (w ++ [Point.ofChar '}'])) [m] := by
  obtain ⟨p, hb, hk, rfl, hx⟩ := h
  exact ⟨[p], by simp, by simpa using hb, by simpa using hk, rfl, hx.append (laid_mark hw)⟩

theorem MembersText.cons {w' : Text} (h : MembersText y ms) (hm : EntryText x m) (hw : Spaces w)
    (hw' : Spaces w') : MembersText (x ++ (w ++ [Point.ofChar ','] ++ (w' ++ y))) (m :: ms) := by
  obtain ⟨p, hb, hk, rfl, hx⟩ := hm
  obtain ⟨ps, hne, hkeys, hvalues, rfl, hlaid⟩ := h
  refine ⟨p :: ps, by simp, List.forall_mem_cons.2 ⟨hb, hkeys⟩,
    List.forall_mem_cons.2 ⟨hk, hvalues⟩, rfl, ?_⟩
  rw [List.map_cons, commas_cons (by simpa using hne), List.append_assoc, List.cons_append]
  exact hx.append_comma hlaid (by simp) hw hw'

/-- What comes after an opening mark and space. -/
theorem lexes_open {c : Char} {r r' : Text} (hc : c ∈ marks) (hw : Spaces w) (hr : r = w ++ r') :
    Lexes (Point.ofChar c :: r) r' :=
  .mark hc (hr ▸ lexes_spaces hw r')

section Step

variable (hv : ∀ t, Comes ValueText t (Reader.value n t))
  (hi : ∀ t, Comes ItemsText t (Reader.items n t))
  (hm : ∀ t, Comes MembersText t (Reader.members n t))

include hi hm in
theorem comes_value_succ (t : Text) : Comes ValueText t (Reader.value (n + 1) t) := by
  cases t with
  | nil => exact comes_fault _ _
  | cons c r =>
    rw [Reader.value.eq_def]
    dsimp only
    split
    -- a string
    · rename_i hc
      subst hc
      refine (comes_string (r.length + 1) r).bind (.refl _) fun x s rest ht hs hl => ?_
      obtain ⟨b, hb, rfl⟩ := hs
      exact .ok ht ⟨_, .string hb, laid_singleton_iff.2 ⟨[], Spaces.nil, rfl⟩⟩ hl
    split
    -- an object
    · rename_i hc
      subst hc
      split
      · exact comes_fault _ _
      · rename_i d r' hs
        obtain ⟨w, hw, hr⟩ := exists_spaces_of_skipSpace hs
        have hlex := lexes_open (c := '{') (by decide) hw hr
        split
        · rename_i hd
          subst hd
          exact .ok (by simp [hr]) ⟨_, .object [] nofun nofun, (laid_mark hw).mark '{'⟩
            fun _ => hlex.trans (.mark (by decide) (.refl r'))
        · refine (hm (d :: r')).bind hlex fun x ms rest hx hms hl => ?_
          obtain ⟨ps, hne, hk, hp, rfl, hlaid⟩ := hms
          exact .ok (by simp [hr, hx]) ⟨_, .object ps hk hp, (hlaid.space hw (by simp)).mark '{'⟩ hl
    split
    -- a list
    · rename_i hc
      subst hc
      split
      · exact comes_fault _ _
      · rename_i d r' hs
        obtain ⟨w, hw, hr⟩ := exists_spaces_of_skipSpace hs
        have hlex := lexes_open (c := '[') (by decide) hw hr
        split
        · rename_i hd
          subst hd
          exact .ok (by simp [hr]) ⟨_, .list [] nofun, (laid_mark hw).mark '['⟩
            fun _ => hlex.trans (.mark (by decide) (.refl r'))
        · refine (hi (d :: r')).bind hlex fun x vs rest hx hvs hl => ?_
          obtain ⟨is, hne, hp, rfl, hlaid⟩ := hvs
          exact .ok (by simp [hr, hx]) ⟨_, .list is hp, (hlaid.space hw (by simp)).mark '['⟩ hl
    -- a word or a number
    · have h := comes_atom (c :: r)
      generalize Reader.atom (c :: r) = result at h
      cases h with
      | ok ht ha hl => exact .ok ht ⟨_, .atom ha, laid_singleton_iff.2 ⟨[], Spaces.nil, rfl⟩⟩ hl
      | malformed fault => exact .malformed fault
      | tooManyDigits hl hd hlong => exact .tooManyDigits hl hd hlong

include hv hi in
theorem comes_items_succ (t : Text) : Comes ItemsText t (Reader.items (n + 1) t) := by
  rw [Reader.items]
  refine (hv t).bind (.refl t) fun x v r ht hx hl => ?_
  dsimp only
  split
  · exact comes_fault _ _
  · rename_i c r' hs
    obtain ⟨w, hw, rfl⟩ := exists_spaces_of_skipSpace hs
    split
    · rename_i hc
      subst hc
      exact .ok (by simp [ht]) (hx.items hw) fun _ => lexes_mark (by decide) hw hl
    split
    · rename_i hc
      subst hc
      obtain ⟨w', hw', hr⟩ := skipSpace_spec r'
      have hlex := lexes_mark_spaces (by decide) hw hw' hr hl
      refine (hi (skipSpace r')).bind hlex fun y vs rest hy hvs hl' => ?_
      refine .ok ?_ (hvs.cons hx hw hw') hl'
      rw [ht, hr, hy]
      simp
    · exact comes_fault _ _

include hv hm in
theorem comes_members_succ (t : Text) : Comes MembersText t (Reader.members (n + 1) t) := by
  cases t with
  | nil => exact comes_fault _ _
  | cons c r =>
    rw [Reader.members.eq_def]
    dsimp only
    split
    · rename_i hc
      subst hc
      refine (comes_string (r.length + 1) r).bind (.refl _) fun x key r₁ ht hs hl => ?_
      obtain ⟨b, hb, rfl⟩ := hs
      dsimp only
      split
      · exact comes_fault _ _
      · rename_i d r₂ hs
        obtain ⟨w₁, hw₁, rfl⟩ := exists_spaces_of_skipSpace hs
        split
        · rename_i hd
          subst hd
          obtain ⟨w₂, hw₂, hr₂⟩ := skipSpace_spec r₂
          have hlex := lexes_mark_spaces (by decide) hw₁ hw₂ hr₂ hl
          refine (hv (skipSpace r₂)).bind hlex fun y v r₃ hy hv hl => ?_
          have hentry := hv.entry hb hw₁ hw₂
          dsimp only
          split
          · exact comes_fault _ _
          · rename_i e r₄ hs
            obtain ⟨w₃, hw₃, rfl⟩ := exists_spaces_of_skipSpace hs
            split
            · rename_i he
              subst he
              refine .ok ?_ (hentry.members hw₃) fun _ => lexes_mark (by decide) hw₃ hl
              rw [ht, hr₂, hy]
              simp
            split
            · rename_i he
              subst he
              obtain ⟨w₄, hw₄, hr₄⟩ := skipSpace_spec r₄
              have hlex := lexes_mark_spaces (by decide) hw₃ hw₄ hr₄ hl
              refine (hm (skipSpace r₄)).bind hlex fun z ms rest hz hms hl' => ?_
              refine .ok ?_ (hms.cons hentry hw₃ hw₄) hl'
              rw [ht, hr₂, hy, hr₄, hz]
              simp
            · exact comes_fault _ _
        · exact comes_fault _ _
    · exact comes_fault _ _

end Step

/-- **What the reader may come to**, at values, items and members. -/
theorem comes_value (n : Nat) : (∀ t, Comes ValueText t (Reader.value n t)) ∧
    (∀ t, Comes ItemsText t (Reader.items n t)) ∧
    ∀ t, Comes MembersText t (Reader.members n t) := by
  induction n with
  | zero => exact ⟨fun _ => comes_fault _ _, fun _ => comes_fault _ _, fun _ => comes_fault _ _⟩
  | succ n ih =>
    obtain ⟨hv, hi, hm⟩ := ih
    exact ⟨comes_value_succ hi hm, comes_items_succ hv hi, comes_members_succ hv hm⟩

theorem comes_readFront (t : Text) : Comes ValueText t (readFront t) := (comes_value _).1 t

/-- The texts of a row with space around its tokens are the texts of the value with space around
them. -/
theorem read_of_document (h : Phrase ks v) (ht : Document Spaces ks t) : Json.read t = .ok v := by
  obtain ⟨x, g, hx, hg, rfl⟩ := ht
  obtain ⟨w, y, hw, hy, rfl⟩ := exists_spells h x hx
  rw [List.append_assoc]
  exact hy.read hw hg

/-- **A text is read exactly if it is a text of the tokens of the value**, with white space around
them. -/
theorem read_eq_ok_iff : Json.read t = .ok v ↔ ∃ ks, Phrase ks v ∧ Document Spaces ks t := by
  refine ⟨fun h => ?_, fun ⟨ks, hks, ht⟩ => read_of_document hks ht⟩
  obtain ⟨w, hw, ht⟩ := skipSpace_spec t
  unfold Json.read at h
  split at h
  · rename_i c r
    split at h
    · cases h
    · cases hf : readFront (skipSpace (c :: r)) with
      | error e =>
        rw [hf] at h
        cases h
      | ok p =>
        obtain ⟨v', rest⟩ := p
        rw [hf] at h
        simp only [bind, Except.bind] at h
        split at h
        · rename_i hnil
          cases h
          have hcomes := comes_readFront (skipSpace (c :: r))
          rw [hf] at hcomes
          cases hcomes with
          | ok hx hv hl =>
            obtain ⟨ks, hks, hlaid⟩ := hv
            obtain ⟨g, hg, hrest⟩ := skipSpace_spec rest
            rw [hnil, List.append_nil] at hrest
            subst hrest
            refine ⟨ks, hks, _, rest, hlaid.space hw hks.ne_nil, hg, ?_⟩
            rw [List.append_assoc, ← hx, ← ht]
        · cases h
  · cases h

end SourceAtlas.Json
