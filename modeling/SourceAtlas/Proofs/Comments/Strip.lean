import Mathlib.Tactic.Choose
import SourceAtlas.Proofs.Comments.Scan

/-!
# JSON texts with comments

A JSON text may have comments between its tokens, and a comma behind a last item or member. The
comments are taken out by a scan that knows of strings, the commas by one that does not, so that it
goes into the strings.

* `Json.HoldsLastComma`, `Json.dropLastCommas_eq_self_iff`: the texts that lose a comma;
* `Json.TrailingCommas`: commas behind last items and members;
* `Json.Token.trimmed`, `Json.exists_phrase_trimmed`: what becomes of strings;
* `Json.laid_dropLastCommas`, `Json.dropCommas_trailing`: the tokens without these commas;
* **`Json.read_stripComments`**: what is read, and when it is what was there before.
-/

namespace SourceAtlas.Json

variable {b s t w : Text} {c : Point} {k l : Token} {ks ks' ls : List Token} {v : Json}

/-! ## Commas that are dropped -/

/-- A closing bracket or brace. -/
def IsClosing (c : Point) : Prop := c = Point.ofChar ']' ∨ c = Point.ofChar '}'

instance (c : Point) : Decidable (IsClosing c) :=
  inferInstanceAs (Decidable (c = Point.ofChar ']' ∨ c = Point.ofChar '}'))

/-- A comma stands in the text, and after it, with blank points between them at most, a closing
bracket or brace. -/
def HoldsLastComma (t : Text) : Prop := ∃ a w c r,
  t = a ++ Point.ofChar ',' :: (w ++ c :: r) ∧ (∀ d ∈ w, d.isBlank = true) ∧ IsClosing c

theorem IsClosing.not_isBlank (h : IsClosing c) : c.isBlank = false := by
  rcases h with rfl | rfl <;> rfl

theorem closesNext_append (hw : ∀ d ∈ w, d.isBlank = true) (t : Text) :
    closesNext (w ++ t) = closesNext t := by
  rw [closesNext, Text.trimStart, Text.trimStartBy, List.dropWhile_append_of_pos hw]
  rfl

theorem closesNext_cons (hc : c.isBlank = false) : closesNext (c :: t) = decide (IsClosing c) := by
  rw [closesNext, Text.trimStart, Text.trimStartBy, List.dropWhile_cons_of_neg (by simp [hc])]
  rw [Bool.eq_iff_iff, decide_eq_true_iff]
  simp [IsClosing]

theorem closesNext_of_blank (hw : ∀ d ∈ w, d.isBlank = true) : closesNext w = false := by
  have := closesNext_append hw []
  rwa [List.append_nil] at this

/-- The blank points that start a text. -/
theorem exists_blank (t : Text) : ∃ w r, t = w ++ r ∧ (∀ d ∈ w, d.isBlank = true) ∧
    ∀ d ∈ r.head?, d.isBlank = false := by
  refine ⟨t.takeWhile Point.isBlank, t.dropWhile Point.isBlank,
    List.takeWhile_append_dropWhile.symm, fun _ hd => List.mem_takeWhile_imp hd, fun d hd => ?_⟩
  have := List.head?_dropWhile_not Point.isBlank t
  rw [Option.mem_def.1 hd] at this
  simpa using this

theorem closesNext_iff : closesNext t = true ↔
    ∃ w c r, t = w ++ c :: r ∧ (∀ d ∈ w, d.isBlank = true) ∧ IsClosing c := by
  constructor
  · intro h
    obtain ⟨w, r, rfl, hw, hr⟩ := exists_blank t
    rw [closesNext_append hw] at h
    cases r with
    | nil => cases h
    | cons c r =>
      rw [closesNext_cons (hr c rfl), decide_eq_true_iff] at h
      exact ⟨w, c, r, rfl, hw, h⟩
  · rintro ⟨w, c, r, rfl, hw, hc⟩
    rw [closesNext_append hw, closesNext_cons hc.not_isBlank, decide_eq_true_iff]
    exact hc

theorem holdsLastComma_cons : HoldsLastComma (c :: t) ↔
    (c = Point.ofChar ',' ∧ closesNext t = true) ∨ HoldsLastComma t := by
  constructor
  · rintro ⟨a, w, d, r, h, hw, hd⟩
    cases a with
    | nil =>
      obtain ⟨hc, ht⟩ := List.cons.inj h
      exact .inl ⟨hc, closesNext_iff.2 ⟨w, d, r, ht, hw, hd⟩⟩
    | cons e a => exact .inr ⟨a, w, d, r, (List.cons.inj h).2, hw, hd⟩
  · rintro (⟨rfl, h⟩ | ⟨a, w, d, r, rfl, hw, hd⟩)
    · obtain ⟨w, d, r, rfl, hw, hd⟩ := closesNext_iff.1 h
      exact ⟨[], w, d, r, rfl, hw, hd⟩
    · exact ⟨c :: a, w, d, r, rfl, hw, hd⟩

theorem dropLastCommas_of_ne (hc : c ≠ Point.ofChar ',') :
    dropLastCommas (c :: t) = c :: dropLastCommas t := by
  rw [dropLastCommas, if_neg fun h => hc h.1]

theorem length_dropLastCommas_le (t : Text) : (dropLastCommas t).length ≤ t.length := by
  induction t with
  | nil => exact Nat.le_refl _
  | cons c t ih =>
    rw [dropLastCommas]
    split
    · exact Nat.le_succ_of_le ih
    · exact Nat.succ_le_succ ih

/-- **The texts that lose no comma.** -/
theorem dropLastCommas_eq_self_iff : dropLastCommas t = t ↔ ¬ HoldsLastComma t := by
  induction t with
  | nil => simp [dropLastCommas, HoldsLastComma]
  | cons c t ih =>
    rw [dropLastCommas, holdsLastComma_cons]
    split
    · rename_i h
      refine ⟨fun he => ?_, fun hn => absurd (.inl h) hn⟩
      have hle := length_dropLastCommas_le t
      rw [he, List.length_cons] at hle
      omega
    · rename_i h
      rw [List.cons.injEq, and_iff_right rfl, ih, not_or, and_iff_right h]

/-! ## Commas between tokens -/

/-- The token closes a list or an object. -/
def Token.Closes (k : Token) : Prop := k = .mark ']' ∨ k = .mark '}'

instance (k : Token) : Decidable (k.Closes) :=
  inferInstanceAs (Decidable (k = .mark ']' ∨ k = .mark '}'))

/-- The token ends a value: no mark but a closing one does. -/
def Token.EndsValue : Token → Prop
  | .mark c => c = ']' ∨ c = '}'
  | _ => True

/-- The token with its string as it is without commas before closing brackets and braces. -/
def Token.trimmed : Token → Token
  | .string b => .string (dropLastCommas b)
  | k => k

/-- The row without each comma that a closing token follows, and with its strings trimmed. -/
def dropCommas : List Token → List Token
  | [] => []
  | k :: ks =>
    if k = .mark ',' ∧ ∃ l ∈ ks.head?, l.Closes then dropCommas ks else k.trimmed :: dropCommas ks

theorem isBlank_of_isSpace (h : Reader.isSpace c = true) : c.isBlank = true := by
  rcases isSpace_iff.1 h with rfl | rfl | rfl | rfl <;> rfl

theorem dropLastCommas_append (h : Point.ofChar ',' ∉ w) (t : Text) :
    dropLastCommas (w ++ t) = w ++ dropLastCommas t := by
  induction w with
  | nil => rfl
  | cons c w ih =>
    rw [List.mem_cons, not_or] at h
    rw [List.cons_append, dropLastCommas_of_ne (Ne.symm h.1), ih h.2, List.cons_append]

theorem not_mem_spaces (hw : Spaces w) : Point.ofChar ',' ∉ w :=
  fun h => isSpace_ne (hw _ h) rfl rfl

/-- What follows a quote does not close the list or object that a comma before the quote is in. -/
theorem closesNext_append_quote (b t : Text) :
    closesNext (b ++ Point.ofChar '"' :: t) = closesNext b := by
  obtain ⟨w, r, rfl, hw, hr⟩ := exists_blank b
  rw [List.append_assoc, closesNext_append hw, closesNext_append hw]
  cases r with
  | nil => rfl
  | cons c r => rw [List.cons_append, closesNext_cons (hr c rfl), closesNext_cons (hr c rfl)]

/-- The commas of a string are dropped as if it stood alone. -/
theorem dropLastCommas_string (b t : Text) :
    dropLastCommas (b ++ Point.ofChar '"' :: t) =
      dropLastCommas b ++ Point.ofChar '"' :: dropLastCommas t := by
  induction b with
  | nil => exact dropLastCommas_of_ne (by simp)
  | cons c b ih =>
    rw [List.cons_append, dropLastCommas, closesNext_append_quote, dropLastCommas, ih]
    split
    · rfl
    · rw [List.cons_append]

theorem dropLastCommas_token (h : k.IsProper) (hk : k ≠ .mark ',') (t : Text) :
    dropLastCommas (k.text ++ t) = k.trimmed.text ++ dropLastCommas t := by
  cases k with
  | mark c =>
    refine dropLastCommas_of_ne fun hc => hk ?_
    rw [Point.ofChar_inj.1 hc]
  | string b =>
    simp only [Token.text, Token.trimmed, List.cons_append, List.append_assoc]
    rw [dropLastCommas_of_ne (by simp)]
    exact congrArg _ (dropLastCommas_string b t)
  | atom x =>
    obtain ⟨v, hv⟩ := h
    exact dropLastCommas_append (fun hc => (isInner_atom hv _ hc).2.2 rfl) t

theorem startsAtom_not_isBlank (h : startsAtom c = true) : c.isBlank = false := by
  rw [startsAtom, Bool.or_eq_true] at h
  rcases h with h | h
  · have hc : 48 ≤ c.toNat ∧ c.toNat ≤ 57 := by simpa [Point.isDigit] using h
    simp [Point.isBlank]
    omega
  · have hwords : ∀ d ∈ ['-', 'n', 't', 'f', 'N', 'I'], (Point.ofChar d).isBlank = false := by
      simp [Point.isBlank]
    obtain ⟨d, hd, hc⟩ := List.any_eq_true.1 h
    rw [of_decide_eq_true hc]
    exact hwords d hd

/-- What a token starts with is no space, and closes as the token does. -/
theorem closesNext_token (h : k.IsProper) (t : Text) :
    closesNext (k.text ++ t) = decide (k.Closes) := by
  cases k with
  | mark c =>
    have hmarks : ∀ c ∈ marks, (Point.ofChar c).isBlank = false := by simp [marks, Point.isBlank]
    refine (closesNext_cons (hmarks c h)).trans ?_
    simp [IsClosing, Token.Closes]
  | string b => exact closesNext_cons rfl
  | atom x =>
    obtain ⟨v, hv⟩ := h
    obtain ⟨c, r, rfl, hc⟩ := hv.isAtom.start
    have hstart := StartsValue.of_startsAtom hc
    refine (closesNext_cons (startsAtom_not_isBlank hc)).trans ?_
    simp [IsClosing, Token.Closes, hstart.bracket, hstart.brace]

theorem closesNext_laid (hk : ∀ k ∈ ks, k.IsProper) (h : Laid Spaces ks t) (hw : Spaces w) :
    closesNext (t ++ w) = decide (∃ l ∈ ks.head?, l.Closes) := by
  have hblank : ∀ {w}, Spaces w → ∀ d ∈ w, d.isBlank = true :=
    fun hw d hd => isBlank_of_isSpace (hw d hd)
  cases h with
  | nil =>
    rw [List.nil_append, closesNext_of_blank (hblank hw)]
    simp
  | cons hg _ =>
    rw [List.append_assoc, closesNext_append (hblank hg), List.append_assoc,
      closesNext_token (hk _ List.mem_cons_self)]
    simp

/-- A row that starts with a closing token still does so without its commas. -/
theorem dropCommas_ne_nil (h : ∃ l ∈ ks.head?, l.Closes) : dropCommas ks ≠ [] := by
  obtain ⟨l, hl, hc⟩ := h
  cases ks with
  | nil => cases hl
  | cons k ks =>
    cases hl
    have hne : l ≠ .mark ',' := by rcases hc with rfl | rfl <;> simp
    rw [dropCommas, if_neg fun h => hne h.1]
    exact List.cons_ne_nil _ _

/-- **The tokens of a text without commas** are those of the text, without commas. -/
theorem laid_dropLastCommas (hk : ∀ k ∈ ks, k.IsProper) (h : Laid Spaces ks t) (hw : Spaces w) :
    ∃ u, Laid Spaces (dropCommas ks) u ∧ dropLastCommas (t ++ w) = u ++ w := by
  induction h with
  | nil =>
    have := dropLastCommas_append (not_mem_spaces hw) []
    rw [dropLastCommas, List.append_nil] at this
    exact ⟨[], .nil, this⟩
  | @cons g t k ks hg hlaid ih =>
    obtain ⟨hk, hks⟩ := List.forall_mem_cons.1 hk
    obtain ⟨u, hu, ih⟩ := ih hks
    simp only [List.append_assoc]
    rw [dropLastCommas_append (not_mem_spaces hg), dropCommas]
    by_cases hcomma : k = .mark ','
    · subst hcomma
      have hcloses : closesNext (t ++ w) = true ↔ ∃ l ∈ ks.head?, l.Closes := by
        rw [closesNext_laid hks hlaid hw, decide_eq_true_iff]
      rw [Token.text, List.singleton_append, dropLastCommas, ih]
      by_cases hnext : ∃ l ∈ ks.head?, l.Closes
      · rw [if_pos ⟨rfl, hnext⟩, if_pos ⟨rfl, hcloses.2 hnext⟩]
        exact ⟨g ++ u, hu.space hg (dropCommas_ne_nil hnext), (List.append_assoc ..).symm⟩
      · rw [if_neg fun h => hnext h.2, if_neg fun h => hnext (hcloses.1 h.2)]
        exact ⟨_, .cons hg hu, by simp [Token.text, Token.trimmed]⟩
    · rw [dropLastCommas_token hk hcomma, if_neg fun h => hcomma h.1, ih]
      exact ⟨_, .cons hg hu, by simp only [List.append_assoc]⟩

/-! ## Rows of a value -/

/-- A row with commas behind last items and members: before a closing token, and after a token that
ends a value. -/
inductive TrailingCommas : List Token → List Token → Prop where
  | nil : TrailingCommas [] []
  | keep (k : Token) {ks ks' : List Token} : TrailingCommas ks ks' → TrailingCommas (k :: ks) (k :: ks')
  | comma {k l : Token} {ks ks' : List Token} : k.EndsValue → l.Closes →
      TrailingCommas (l :: ks) ks' → TrailingCommas (k :: l :: ks) (k :: .mark ',' :: ks')

/-- Between two tokens of a row: a comma stands before none that closes. -/
def Between (k l : Token) : Prop := k = .mark ',' → ¬ l.Closes

/-- A row of tokens in which each comma stands between two values. -/
structure IsRow (ks : List Token) : Prop where
  tokens : ∀ k ∈ ks, k.IsProper
  chain : ks.IsChain Between
  ne_nil : ks ≠ []
  head : ∀ k ∈ ks.head?, ¬ k.Closes
  last : ∀ k ∈ ks.getLast?, k ≠ .mark ','

theorem isRow_singleton (h : k.IsProper) (hc : ¬ k.Closes) (hk : k ≠ .mark ',') : IsRow [k] where
  tokens := by simpa using h
  chain := .singleton k
  ne_nil := List.cons_ne_nil k []
  head := by simpa using hc
  last := by simpa using hk

theorem isProper_mark {c : Char} (h : c ∈ marks) : (Token.mark c).IsProper := h

theorem IsRow.append (h : IsRow ks) (h' : IsRow ls) : IsRow (ks ++ ls) where
  tokens := List.forall_mem_append.2 ⟨h.tokens, h'.tokens⟩
  chain := List.isChain_append.2 ⟨h.chain, h'.chain, fun k hk _ _ hc => absurd hc (h.last k hk)⟩
  ne_nil := List.append_ne_nil_of_left_ne_nil h.ne_nil ls
  head := by
    rw [List.head?_append_of_ne_nil ks h.ne_nil]
    exact h.head
  last := by
    rw [List.getLast?_append_of_ne_nil ks h'.ne_nil]
    exact h'.last

/-- A mark before a row. -/
theorem IsRow.cons_mark {c : Char} (h : IsRow ks) (hc : c ∈ marks) (hn : ¬ (Token.mark c).Closes) :
    IsRow (.mark c :: ks) where
  tokens := List.forall_mem_cons.2 ⟨hc, h.tokens⟩
  chain := List.isChain_cons.2 ⟨fun l hl _ => h.head l hl, h.chain⟩
  ne_nil := List.cons_ne_nil _ ks
  head := by simpa using hn
  last := by
    rw [List.getLast?_cons_of_ne_nil h.ne_nil]
    exact h.last

theorem isRow_commas {rows : List (List Token)} (h : ∀ ks ∈ rows, IsRow ks) (hne : rows ≠ []) :
    IsRow (commas rows) := by
  fun_induction commas rows with
  | case1 => exact absurd rfl hne
  | case2 ks => exact h ks List.mem_cons_self
  | case3 ks ls rows ih =>
    obtain ⟨hks, hrows⟩ := List.forall_mem_cons.1 h
    exact hks.append ((ih hrows (List.cons_ne_nil _ _)).cons_mark (by decide) (by decide))

/-- A row and a closing mark. -/
theorem IsRow.append_closing {d : Char} (h : IsRow ks) (hd : d = ']' ∨ d = '}') :
    IsRow (ks ++ [.mark d]) where
  tokens := by
    refine List.forall_mem_append.2 ⟨h.tokens, ?_⟩
    rcases hd with rfl | rfl <;> simp [Token.IsProper, marks]
  chain := List.isChain_append.2 ⟨h.chain, .singleton _, fun k hk _ _ hc => absurd hc (h.last k hk)⟩
  ne_nil := List.append_ne_nil_of_left_ne_nil h.ne_nil _
  head := by
    rw [List.head?_append_of_ne_nil ks h.ne_nil]
    exact h.head
  last := by
    rw [List.getLast?_concat]
    rcases hd with rfl | rfl <;> simp

/-- Rows in brackets or braces. -/
theorem isRow_closed {rows : List (List Token)} {c d : Char} (h : ∀ ks ∈ rows, IsRow ks)
    (hc : c = '[' ∨ c = '{') (hd : d = ']' ∨ d = '}') :
    IsRow (.mark c :: (commas rows ++ [.mark d])) := by
  have hopen : IsRow [.mark c] := by
    rcases hc with rfl | rfl <;>
      exact isRow_singleton (isProper_mark (by decide)) (by decide) (by decide)
  rcases eq_or_ne rows [] with rfl | hne
  · exact hopen.append_closing hd
  · exact hopen.append ((isRow_commas h hne).append_closing hd)

theorem isRow_of_phrase (h : Phrase ks v) : IsRow ks := by
  induction h with
  | atom h => exact isRow_singleton ⟨_, h⟩ (by simp [Token.Closes]) (by simp)
  | string h => exact isRow_singleton ⟨_, h⟩ (by simp [Token.Closes]) (by simp)
  | list is _ ih =>
    exact isRow_closed (List.forall_mem_map.2 ih) (.inl rfl) (.inl rfl)
  | object ms hk _ ih =>
    refine isRow_closed (List.forall_mem_map.2 fun m hm => ?_) (.inr rfl) (.inr rfl)
    have hkey : IsRow [.string m.body] :=
      isRow_singleton ⟨_, hk m hm⟩ (by simp [Token.Closes]) (by simp)
    exact hkey.append ((ih m hm).cons_mark (by decide) (by decide))

theorem TrailingCommas.head? (h : TrailingCommas ks ks') : ks'.head? = ks.head? := by
  cases h <;> rfl

theorem TrailingCommas.isProper (h : TrailingCommas ks ks') (hk : ∀ k ∈ ks, k.IsProper) :
    ∀ k ∈ ks', k.IsProper := by
  induction h with
  | nil => exact hk
  | keep k _ ih =>
    obtain ⟨hk, hks⟩ := List.forall_mem_cons.1 hk
    exact List.forall_mem_cons.2 ⟨hk, ih hks⟩
  | comma _ _ _ ih =>
    obtain ⟨hk, hks⟩ := List.forall_mem_cons.1 hk
    exact List.forall_mem_cons.2 ⟨hk, List.forall_mem_cons.2 ⟨isProper_mark (by decide), ih hks⟩⟩

/-- **Without commas, a row with commas behind last items and members** is what it was before, its
strings trimmed. -/
theorem dropCommas_trailing (h : TrailingCommas ks ks') (hc : ks.IsChain Between) :
    dropCommas ks' = ks.map Token.trimmed := by
  induction h with
  | nil => rfl
  | @keep k ks ks' h ih =>
    rw [List.isChain_cons] at hc
    have hkeep : ¬ (k = .mark ',' ∧ ∃ l ∈ ks'.head?, l.Closes) := by
      rintro ⟨hk, l, hl, hcloses⟩
      exact hc.1 l (h.head? ▸ hl) hk hcloses
    rw [dropCommas, if_neg hkeep, ih hc.2, List.map_cons]
  | @comma k l ks ks' hk hl h ih =>
    rw [List.isChain_cons] at hc
    have hkeep : k ≠ .mark ',' := by
      rintro rfl
      rcases hk with hk | hk <;> cases hk
    have hdrop : ∃ l ∈ ks'.head?, l.Closes := ⟨l, by rw [h.head?]; rfl, hl⟩
    rw [dropCommas, if_neg fun h => hkeep h.1, dropCommas, if_pos ⟨rfl, hdrop⟩, ih hc.2]
    rfl

/-! ## Strings without commas -/

/-- A point that is kept and is neither blank nor closing was the first one before. -/
theorem dropLastCommas_eq_cons {r : Text} (h : dropLastCommas b = c :: r) (hb : c.isBlank = false)
    (hc : ¬ IsClosing c) : ∃ r', b = c :: r' ∧ dropLastCommas r' = r := by
  cases b with
  | nil => cases h
  | cons d b =>
    rw [dropLastCommas] at h
    split at h
    · rename_i hd
      -- What is left behind a comma starts with a blank point, or with what closes.
      obtain ⟨w, e, r', rfl, hw, he⟩ := closesNext_iff.1 hd.2
      have hcomma : Point.ofChar ',' ∉ w := fun h => absurd (hw _ h) (by decide)
      have hne : e ≠ Point.ofChar ',' := by rcases he with rfl | rfl <;> simp
      rw [dropLastCommas_append hcomma, dropLastCommas_of_ne hne] at h
      cases w with
      | nil =>
        obtain ⟨rfl, -⟩ := List.cons.inj h
        exact absurd he hc
      | cons f w =>
        obtain ⟨rfl, -⟩ := List.cons.inj h
        rw [hw f List.mem_cons_self] at hb
        cases hb
    · obtain ⟨rfl, rfl⟩ := List.cons.inj h
      exact ⟨b, rfl, rfl⟩

theorem hexValue?_not_isBlank {n : Nat} (h : c.hexValue? = some n) :
    c.isBlank = false ∧ ¬ IsClosing c := by
  refine ⟨?_, fun hc => ?_⟩
  · rw [Point.hexValue?] at h
    simp only [Bool.and_eq_true, decide_eq_true_eq] at h
    have hrange : 48 ≤ c.toNat ∧ c.toNat ≤ 102 := by
      split_ifs at h <;> omega
    simp [Point.isBlank]
    omega
  · rcases hc with rfl | rfl <;> cases h

/-- What starts with the escape of a low half did so before. -/
theorem startsLow_of_dropLastCommas (h : StartsLow (dropLastCommas b)) : StartsLow b := by
  obtain ⟨l₁, l₂, l₃, l₄, r, m, hb, hm, hl⟩ := h
  have hhex := forall_hex4? hm
  simp only [List.forall_mem_cons] at hhex
  obtain ⟨⟨_, h₁⟩, ⟨_, h₂⟩, ⟨_, h₃⟩, ⟨_, h₄⟩, -⟩ := hhex
  obtain ⟨b₁, rfl, hb₁⟩ := dropLastCommas_eq_cons hb (by decide) (by decide)
  obtain ⟨b₂, rfl, hb₂⟩ := dropLastCommas_eq_cons hb₁ (by decide) (by decide)
  obtain ⟨b₃, rfl, hb₃⟩ := dropLastCommas_eq_cons hb₂ (hexValue?_not_isBlank h₁).1
    (hexValue?_not_isBlank h₁).2
  obtain ⟨b₄, rfl, hb₄⟩ := dropLastCommas_eq_cons hb₃ (hexValue?_not_isBlank h₂).1
    (hexValue?_not_isBlank h₂).2
  obtain ⟨b₅, rfl, hb₅⟩ := dropLastCommas_eq_cons hb₄ (hexValue?_not_isBlank h₃).1
    (hexValue?_not_isBlank h₃).2
  obtain ⟨b₆, rfl, -⟩ := dropLastCommas_eq_cons hb₅ (hexValue?_not_isBlank h₄).1
    (hexValue?_not_isBlank h₄).2
  exact ⟨l₁, l₂, l₃, l₄, b₆, m, rfl, hm, hl⟩

theorem dropLastCommas_unit {h₁ h₂ h₃ h₄ : Point} {n : Nat}
    (h : Reader.hex4? h₁ h₂ h₃ h₄ = some n) (t : Text) :
    dropLastCommas (Point.ofChar '\\' :: Point.ofChar 'u' :: h₁ :: h₂ :: h₃ :: h₄ :: t) =
      Point.ofChar '\\' :: Point.ofChar 'u' :: h₁ :: h₂ :: h₃ :: h₄ :: dropLastCommas t := by
  have hw : Point.ofChar ',' ∉ [h₁, h₂, h₃, h₄] := fun hc =>
    have ⟨_, hk⟩ := forall_hex4? h _ hc
    hexValue?_ne hk rfl rfl
  rw [dropLastCommas_of_ne (by simp), dropLastCommas_of_ne (by simp)]
  exact congrArg _ (congrArg _ (dropLastCommas_append hw t))

/-- **A string without commas is a string.** -/
theorem exists_spellsBody_dropLastCommas (h : SpellsBody b s) :
    ∃ s', SpellsBody (dropLastCommas b) s' := by
  induction h with
  | nil => exact ⟨[], .nil⟩
  | plain hq hb hc _ ih =>
    obtain ⟨s', hs'⟩ := ih
    rw [dropLastCommas]
    split
    · exact ⟨s', hs'⟩
    · exact ⟨_, .plain hq hb hc hs'⟩
  | @letter e d b s he _ ih =>
    obtain ⟨s', hs'⟩ := ih
    have hne : e ≠ Point.ofChar ',' := by
      rintro rfl
      cases he
    rw [dropLastCommas_of_ne (by simp), dropLastCommas_of_ne hne]
    exact ⟨_, .letter he hs'⟩
  | unit hn hl _ ih =>
    obtain ⟨s', hs'⟩ := ih
    rw [dropLastCommas_unit hn]
    exact ⟨_, .unit hn (fun hh hlow => hl hh (startsLow_of_dropLastCommas hlow)) hs'⟩
  | pair hn hh hm hl _ ih =>
    obtain ⟨s', hs'⟩ := ih
    rw [dropLastCommas_unit hn, dropLastCommas_unit hm]
    exact ⟨_, .pair hn hh hm hl hs'⟩

theorem map_commas (f : Token → Token) (hf : f (.mark ',') = .mark ',') (rows : List (List Token)) :
    (commas rows).map f = commas (rows.map (List.map f)) := by
  fun_induction commas rows with
  | case1 => rfl
  | case2 ks => rfl
  | case3 ks ls rows ih =>
    rw [List.map_append, List.map_cons, ih, hf]
    rfl

/-- **The rows of a value with trimmed strings are those of a value.** -/
theorem exists_phrase_trimmed (h : Phrase ks v) : ∃ v', Phrase (ks.map Token.trimmed) v' := by
  induction h with
  | @atom t v h => exact ⟨v, .atom h⟩
  | string h =>
    obtain ⟨s', hs'⟩ := exists_spellsBody_dropLastCommas h
    exact ⟨.text s', .string hs'⟩
  | list is _ ih =>
    choose! f hf using ih
    have hphrase := Phrase.list (is.map fun i => (i.1.map Token.trimmed, f i))
      (List.forall_mem_map.2 hf)
    have hrows : (is.map fun i => (i.1.map Token.trimmed, f i)).map Prod.fst =
        (is.map Prod.fst).map (List.map Token.trimmed) := by
      rw [List.map_map, List.map_map]
      rfl
    rw [hrows, ← map_commas Token.trimmed rfl] at hphrase
    rw [List.map_cons, List.map_append]
    exact ⟨_, hphrase⟩
  | object ms hk _ ih =>
    choose! f hf using ih
    choose! key hkey using fun m hm => exists_spellsBody_dropLastCommas (hk m hm)
    have hphrase := Phrase.object
      (ms.map fun m => ⟨dropLastCommas m.body, key m, m.tokens.map Token.trimmed, f m⟩)
      (List.forall_mem_map.2 hkey) (List.forall_mem_map.2 hf)
    have hrows : (ms.map fun m =>
        (⟨dropLastCommas m.body, key m, m.tokens.map Token.trimmed, f m⟩ : MemberPhrase)).map
          MemberPhrase.whole = (ms.map MemberPhrase.whole).map (List.map Token.trimmed) := by
      rw [List.map_map, List.map_map]
      rfl
    rw [hrows, ← map_commas Token.trimmed rfl] at hphrase
    rw [List.map_cons, List.map_append]
    exact ⟨_, hphrase⟩

/-- The strings that stay as they are. -/
theorem map_trimmed_eq_self_iff :
    ks.map Token.trimmed = ks ↔ ∀ b, Token.string b ∈ ks → ¬ HoldsLastComma b := by
  have htoken : ∀ k : Token, k.trimmed = k ↔ ∀ b, k = .string b → ¬ HoldsLastComma b := by
    intro k
    cases k with
    | mark | atom => simp [Token.trimmed]
    | string b => simp [Token.trimmed, dropLastCommas_eq_self_iff]
  induction ks with
  | nil => simp
  | cons k ks ih =>
    rw [List.map_cons, List.cons.injEq]
    refine (and_congr (htoken k) ih).trans ?_
    simp only [List.mem_cons, or_imp, forall_and, eq_comm]

/-! ## Reading -/

/-- **What is read from a JSON text with comments** and commas behind last items and members: the
tokens are those that were there, with the strings trimmed. Where no string holds a comma before a
closing bracket or brace, the strings are what they were, and what is read is what is read from each
text of these tokens. -/
theorem read_stripComments (hv : Phrase ks v) (hk : TrailingCommas ks ks') (ht : Document Gap ks' t) :
    Document Spaces (ks.map Token.trimmed) (stripComments t) ∧
      (∃ v', Phrase (ks.map Token.trimmed) v' ∧ read (stripComments t) = .ok v') ∧
      (ks.map Token.trimmed = ks ↔ ∀ b, Token.string b ∈ ks → ¬ HoldsLastComma b) ∧
      ((∀ b, Token.string b ∈ ks → ¬ HoldsLastComma b) → ∀ u, Document Spaces ks u →
        read (stripComments t) = read u) := by
  have hrow := isRow_of_phrase hv
  obtain ⟨x, g, hx, hg, rfl⟩ := ht
  have htokens := hk.isProper hrow.tokens
  obtain ⟨y, hy, hcomments⟩ := laid_dropComments htokens hx
  obtain ⟨w, hw, hgap⟩ := dropComments_gap hg
  obtain ⟨z, hz, hcommas⟩ := laid_dropLastCommas htokens hy hw
  rw [dropCommas_trailing hk hrow.chain] at hz
  have hstrip : stripComments (x ++ g) = z ++ w := by
    have hend := hgap []
    rw [List.append_nil] at hend
    rw [stripComments, hcomments, hend, dropComments, List.append_nil, hcommas]
  have hdocument : Document Spaces (ks.map Token.trimmed) (stripComments (x ++ g)) :=
    ⟨z, w, hz, hw, hstrip⟩
  obtain ⟨v', hv'⟩ := exists_phrase_trimmed hv
  refine ⟨hdocument, ⟨v', hv', read_of_document hv' hdocument⟩, map_trimmed_eq_self_iff,
    fun hstrings u hu => ?_⟩
  rw [map_trimmed_eq_self_iff.2 hstrings] at hdocument
  rw [read_of_document hv hdocument, read_of_document hv hu]

/-- The tokens of an object with one member. -/
theorem phrase_member {b s : Text} {ks : List Token} (hb : SpellsBody b s) (hv : Phrase ks v) :
    Phrase (.mark '{' :: .string b :: .mark ':' :: (ks ++ [.mark '}'])) (.object [(s, v)]) :=
  .object [⟨b, s, ks, v⟩] (by simpa using hb) (by simpa using hv)

theorem read_stripComments_member :
    Json.read (stripComments "\x7b\"a\": 1, // x\n\x7d") = Json.read "\x7b\"a\":1\x7d" := by
  have hone : SpellsAtom "1" (.int 1) :=
    .number false (.whole (.inr ⟨'1', [], rfl, by decide, by simp⟩) (by decide))
  have hbody : SpellsBody "a" "a" := .plain (by decide) (by decide) (by decide) .nil
  have hspace : Gap " " := .space rfl .nil
  have hgap : Gap " // x\n" := .space rfl (.line (b := Text.ofString " x") (by decide) .nil)
  have hv := phrase_member hbody (.atom hone)
  have hk : TrailingCommas [.mark '{', .string "a", .mark ':', .atom "1", .mark '}']
      [.mark '{', .string "a", .mark ':', .atom "1", .mark ',', .mark '}'] :=
    .keep _ (.keep _ (.keep _ (.comma trivial (by decide) (.keep _ .nil))))
  have ht : Document Gap [.mark '{', .string "a", .mark ':', .atom "1", .mark ',', .mark '}']
      "\x7b\"a\": 1, // x\n\x7d" := by
    refine ⟨_, [], .cons .nil (.cons .nil (.cons .nil (.cons hspace (.cons .nil
      (.cons hgap .nil))))), .nil, ?_⟩
    decide
  have hu : Document Spaces [.mark '{', .string "a", .mark ':', .atom "1", .mark '}']
      "\x7b\"a\":1\x7d" := by
    refine ⟨_, [], .cons .nil (.cons .nil (.cons .nil (.cons .nil (.cons .nil .nil)))), .nil, ?_⟩
    decide
  have hread := read_stripComments hv hk ht
  exact hread.2.2.2 (hread.2.2.1.1 (by decide)) _ hu

example : stripComments "\x7b\"a\": \",]\"\x7d" = Text.ofString "\x7b\"a\": \"]\"\x7d" := by cbv

end SourceAtlas.Json
