import SourceAtlas.CompilerOptions
import SourceAtlas.Proofs.Json.Phrases

/-!
# Comments between tokens

Between the tokens of a JSON text there may be comments. A scan that knows of strings takes them out.

* `Json.Gap`: white space and comments;
* `Json.dropComments_gap`: what is left of them;
* `Json.dropComments_string`: strings are kept;
* **`Json.laid_dropComments`**: without the comments there are the same tokens.
-/

namespace SourceAtlas.Json

variable {b g s t w : Text} {c : Point} {k : Token} {ks : List Token} {v : Json}

/-! ## Gaps -/

/-- White space and comments: to the end of a line, or from `/*` to the next `*/`. -/
inductive Gap : Text → Prop where
  | nil : Gap []
  | space {c : Point} {g : Text} : Reader.isSpace c = true → Gap g → Gap (c :: g)
  | line {b g : Text} : Point.ofChar '\n' ∉ b → Gap g →
      Gap (Point.ofChar '/' :: Point.ofChar '/' :: (b ++ Point.ofChar '\n' :: g))
  | block {b g : Text} : ¬ [Point.ofChar '*', Point.ofChar '/'] <:+: b → Gap g →
      Gap (Point.ofChar '/' :: Point.ofChar '*' :: (b ++ Point.ofChar '*' :: Point.ofChar '/' :: g))

theorem dropComments_code (hq : c ≠ Point.ofChar '"') (hs : c ≠ Point.ofChar '/') (t : Text) :
    dropComments .code (c :: t) = c :: dropComments .code t := by
  rw [dropComments.eq_def]
  dsimp only
  rw [if_neg hq]
  cases t with
  | nil => rw [dropComments]
  | cons d t =>
    dsimp only
    rw [if_neg fun h => hs h.1, if_neg fun h => hs h.1]

/-- Points outside strings that start no comment. -/
theorem dropComments_append (h : ∀ c ∈ w, c ≠ Point.ofChar '"' ∧ c ≠ Point.ofChar '/') (t : Text) :
    dropComments .code (w ++ t) = w ++ dropComments .code t := by
  induction w with
  | nil => rfl
  | cons c w ih =>
    obtain ⟨hc, hw⟩ := List.forall_mem_cons.1 h
    rw [List.cons_append, dropComments_code hc.1 hc.2, ih hw, List.cons_append]

theorem dropComments_line (hb : Point.ofChar '\n' ∉ b) (t : Text) :
    dropComments .lineComment (b ++ Point.ofChar '\n' :: t) =
      Point.ofChar '\n' :: dropComments .code t := by
  induction b with
  | nil => rw [List.nil_append, dropComments, if_pos rfl]
  | cons c b ih =>
    rw [List.mem_cons, not_or] at hb
    rw [List.cons_append, dropComments, if_neg (Ne.symm hb.1), ih hb.2]

theorem dropComments_block (hb : ¬ [Point.ofChar '*', Point.ofChar '/'] <:+: b) (t : Text) :
    dropComments .blockComment (b ++ Point.ofChar '*' :: Point.ofChar '/' :: t) =
      dropComments .code t := by
  induction b with
  | nil => rw [List.nil_append, dropComments, if_pos ⟨rfl, rfl⟩]
  | cons c b ih =>
    have htail : ¬ [Point.ofChar '*', Point.ofChar '/'] <:+: b :=
      fun h => hb (h.trans (List.suffix_cons c b).isInfix)
    cases b with
    | nil =>
      have hne : ('*' : Char) ≠ '/' := by decide
      rw [← ih htail]
      simp [dropComments, hne]
    | cons d b =>
      have hne : ¬ (c = Point.ofChar '*' ∧ d = Point.ofChar '/') := by
        rintro ⟨rfl, rfl⟩
        exact hb ⟨[], b, rfl⟩
      rw [← ih htail, List.cons_append, List.cons_append, dropComments]
      exact if_neg hne

theorem isSpace_ne (h : Reader.isSpace c = true) {d : Char} (hd : Reader.isSpace d = false) :
    c ≠ Point.ofChar d := by
  rintro rfl
  rw [hd] at h
  cases h

/-- **A gap becomes white space.** -/
theorem dropComments_gap (h : Gap g) :
    ∃ w, Spaces w ∧ ∀ t, dropComments .code (g ++ t) = w ++ dropComments .code t := by
  induction h with
  | nil => exact ⟨[], Spaces.nil, fun _ => rfl⟩
  | @space c g hc _ ih =>
    obtain ⟨w, hw, ih⟩ := ih
    refine ⟨c :: w, List.forall_mem_cons.2 ⟨hc, hw⟩, fun t => ?_⟩
    rw [List.cons_append, dropComments_code (isSpace_ne hc rfl) (isSpace_ne hc rfl), ih,
      List.cons_append]
  | @line b g hb _ ih =>
    obtain ⟨w, hw, ih⟩ := ih
    refine ⟨Point.ofChar '\n' :: w, List.forall_mem_cons.2 ⟨rfl, hw⟩, fun t => ?_⟩
    simp only [List.cons_append, List.append_assoc]
    rw [← ih t, ← dropComments_line hb (g ++ t), dropComments, if_neg (by simp), if_pos ⟨rfl, rfl⟩]
  | @block b g hb _ ih =>
    obtain ⟨w, hw, ih⟩ := ih
    refine ⟨w, hw, fun t => ?_⟩
    simp only [List.cons_append, List.append_assoc]
    rw [← ih t, ← dropComments_block hb (g ++ t), dropComments, if_neg (by simp), if_neg (by simp),
      if_pos ⟨rfl, rfl⟩]

/-! ## Tokens -/

/-- The token is of the grammar. -/
def Token.IsProper : Token → Prop
  | .mark c => c ∈ marks
  | .string b => ∃ s, SpellsBody b s
  | .atom t => ∃ v, SpellsAtom t v

/-! ### Strings -/

theorem hexValue?_ne {n : Nat} {d : Char} (h : c.hexValue? = some n)
    (hd : (Point.ofChar d).hexValue? = none) : c ≠ Point.ofChar d := by
  rintro rfl
  rw [hd] at h
  cases h

/-- The four digits of a unit are digits. -/
theorem forall_hex4? {h₁ h₂ h₃ h₄ : Point} {n : Nat} (h : Reader.hex4? h₁ h₂ h₃ h₄ = some n) :
    ∀ c ∈ [h₁, h₂, h₃, h₄], ∃ k, c.hexValue? = some k := by
  simp only [Reader.hex4?, Option.bind_eq_bind, Option.bind_eq_some_iff, Option.pure_def] at h
  obtain ⟨a, ha, b, hb, c, hc, d, hd, -⟩ := h
  simp [ha, hb, hc, hd]

theorem dropComments_string_cons (hq : c ≠ Point.ofChar '"') (hb : c ≠ Point.ofChar '\\') (t : Text) :
    dropComments .string (c :: t) = c :: dropComments .string t := by
  rw [dropComments.eq_def]
  simp only [hq, hb, if_false]

theorem dropComments_string_append
    (h : ∀ c ∈ w, c ≠ Point.ofChar '"' ∧ c ≠ Point.ofChar '\\') (t : Text) :
    dropComments .string (w ++ t) = w ++ dropComments .string t := by
  induction w with
  | nil => rfl
  | cons c w ih =>
    obtain ⟨hc, hw⟩ := List.forall_mem_cons.1 h
    rw [List.cons_append, dropComments_string_cons hc.1 hc.2, ih hw, List.cons_append]

theorem dropComments_escape (t : Text) :
    dropComments .string (Point.ofChar '\\' :: c :: t) =
      Point.ofChar '\\' :: c :: dropComments .string t := by
  rw [dropComments, if_pos rfl]

theorem dropComments_unit {h₁ h₂ h₃ h₄ : Point} {n : Nat}
    (h : Reader.hex4? h₁ h₂ h₃ h₄ = some n) (t : Text) :
    dropComments .string (Point.ofChar '\\' :: Point.ofChar 'u' :: h₁ :: h₂ :: h₃ :: h₄ :: t) =
      Point.ofChar '\\' :: Point.ofChar 'u' :: h₁ :: h₂ :: h₃ :: h₄ :: dropComments .string t := by
  have hw : ∀ c ∈ [h₁, h₂, h₃, h₄], c ≠ Point.ofChar '"' ∧ c ≠ Point.ofChar '\\' := fun c hc =>
    have ⟨_, hk⟩ := forall_hex4? h c hc
    ⟨hexValue?_ne hk rfl, hexValue?_ne hk rfl⟩
  rw [dropComments_escape]
  exact congrArg _ (congrArg _ (dropComments_string_append hw t))

/-- **A string is kept**, and ends where its quote is. -/
theorem dropComments_string (h : SpellsBody b s) (t : Text) :
    dropComments .string (b ++ Point.ofChar '"' :: t) =
      b ++ Point.ofChar '"' :: dropComments .code t := by
  induction h with
  | nil => rw [List.nil_append, dropComments.eq_def]; simp
  | plain hq hb _ _ ih =>
    rw [List.cons_append, dropComments_string_cons hq hb, ih, List.cons_append]
  | letter _ _ ih =>
    rw [List.cons_append, List.cons_append, dropComments_escape, ih, List.cons_append,
      List.cons_append]
  | unit hn _ _ ih =>
    simp only [List.cons_append]
    rw [dropComments_unit hn, ih]
  | pair hn _ hm _ _ ih =>
    simp only [List.cons_append]
    rw [dropComments_unit hn, dropComments_unit hm, ih]

/-! ### Words and numbers -/

/-- A point of words and numbers. -/
def IsInner (c : Point) : Prop :=
  c ≠ Point.ofChar '"' ∧ c ≠ Point.ofChar '/' ∧ c ≠ Point.ofChar ','

instance (c : Point) : Decidable (IsInner c) :=
  inferInstanceAs (Decidable (c ≠ Point.ofChar '"' ∧ c ≠ Point.ofChar '/' ∧ c ≠ Point.ofChar ','))

theorem isInner_digits {ds : List Char} (h : ∀ d ∈ ds, d.isDigit = true) :
    ∀ c ∈ ds.map Point.ofChar, IsInner c := by
  intro c hc
  obtain ⟨d, hd, rfl⟩ := List.mem_map.1 hc
  have hdigit := h d hd
  exact ⟨Reader.ofChar_ne_of_isDigit hdigit rfl, Reader.ofChar_ne_of_isDigit hdigit rfl,
    Reader.ofChar_ne_of_isDigit hdigit rfl⟩

theorem isInner_decimals {es : List Char} (h : ∀ d ∈ es, d.isDigit = true) :
    ∀ c ∈ decimals es, IsInner c := by
  unfold decimals
  split
  · exact nofun
  · exact List.forall_mem_cons.2 ⟨by decide, isInner_digits h⟩

theorem isInner_exponent {x : Text} {e : Int} (h : Reader.SpellsExponent x e) :
    ∀ c ∈ x, IsInner c := by
  have hletter : ∀ letter ∈ ['e', 'E'], IsInner (Point.ofChar letter) := by simp [IsInner]
  cases h with
  | unsigned hl _ hd => exact List.forall_mem_cons.2 ⟨hletter _ hl, isInner_digits hd⟩
  | plus hl _ hd | minus hl _ hd =>
    exact List.forall_mem_cons.2 ⟨hletter _ hl,
      List.forall_mem_cons.2 ⟨by decide, isInner_digits hd⟩⟩

theorem isInner_atom (h : SpellsAtom t v) : ∀ c ∈ t, IsInner c := by
  cases h with
  | word h =>
    have hwords : ∀ w ∈ words.map Prod.fst, ∀ c ∈ w, IsInner c := by decide
    exact hwords _ (List.mem_map_of_mem h)
  | number negative h =>
    have hsign : ∀ negative, ∀ c ∈ sign negative, IsInner c := by decide
    refine List.forall_mem_append.2 ⟨hsign negative, ?_⟩
    cases h with
    | whole hw => exact isInner_digits hw.isDigit
    | fraction hw _ hd =>
      exact List.forall_mem_append.2 ⟨isInner_digits hw.isDigit, isInner_decimals hd⟩
    | exponent hw hd hx =>
      exact List.forall_mem_append.2 ⟨isInner_digits hw.isDigit,
        List.forall_mem_append.2 ⟨isInner_decimals hd, isInner_exponent hx⟩⟩

/-! ### Rows of tokens -/

theorem dropComments_token (h : k.IsProper) (t : Text) :
    dropComments .code (k.text ++ t) = k.text ++ dropComments .code t := by
  cases k with
  | mark c =>
    have hmarks : ∀ c ∈ marks, c ≠ '"' ∧ c ≠ '/' := by simp [marks]
    obtain ⟨hq, hs⟩ := hmarks c h
    exact dropComments_code (by simpa using hq) (by simpa using hs) t
  | string b =>
    obtain ⟨s, hs⟩ := h
    have hb := dropComments_string hs t
    simp only [Token.text, List.cons_append, List.append_assoc]
    rw [dropComments.eq_def]
    simp [hb]
  | atom x =>
    obtain ⟨v, hv⟩ := h
    exact dropComments_append (fun c hc => ⟨(isInner_atom hv c hc).1, (isInner_atom hv c hc).2.1⟩) t

/-- **The tokens of a text are those of the text without the comments**, with white space between
them. -/
theorem laid_dropComments (hk : ∀ k ∈ ks, k.IsProper) (h : Laid Gap ks t) :
    ∃ u, Laid Spaces ks u ∧ ∀ rest, dropComments .code (t ++ rest) = u ++ dropComments .code rest := by
  induction h with
  | nil => exact ⟨[], .nil, fun _ => rfl⟩
  | cons hg _ ih =>
    obtain ⟨hk, hks⟩ := List.forall_mem_cons.1 hk
    obtain ⟨u, hu, ih⟩ := ih hks
    obtain ⟨w, hw, hgap⟩ := dropComments_gap hg
    refine ⟨_, .cons hw hu, fun rest => ?_⟩
    simp only [List.append_assoc]
    rw [hgap, dropComments_token hk, ih]

end SourceAtlas.Json
