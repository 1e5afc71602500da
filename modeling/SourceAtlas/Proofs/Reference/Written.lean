import Mathlib.Data.List.DropRight
import SourceAtlas.Proofs.Reference.Scan

/-!
# References as they are written

An argument that is made of nothing but references gives them back, whatever the order of its
properties, its marks, and the white space between its parts.

* `Reference.Entry`, `Reference.Series`, `Reference.Property`: what such an argument is made of;
* `Reference.listEntries_written`: the entries of a list;
* `Reference.Pattern.eq_of_suffix`: no key ends with another one;
* `Reference.occurrences_skip`, `Reference.occurrences_key`: the search up to a colon that does not
  stand behind the key, and to one that does;
* `Reference.occurrences_property`, `Reference.occurrences_properties`: the search over properties;
* **`Reference.extract_written`**: the references of an argument, key by key;
* `Reference.extract_written_threeKeys`: an argument with all three keys.
-/

namespace SourceAtlas

namespace Reference

/-! ## Arguments -/

/-- White space, or nothing. -/
abbrev Gap : Type := {w : Text // w.isBlank = true}

/-- An entry between marks. -/
structure Entry where
  mark : Point
  text : Text
  mark_mem : mark ∈ quotes
  nonempty : text ≠ []
  trimmed : text.trim = text
  plain : ∀ c ∈ text, c ∉ quotes ++ Text.ofString ",:[]\n"

/-- Something with white space around it. -/
structure Spaced (α : Type) where
  before : Gap
  item : α
  after : Gap

/-- Items with commas between them, and any number of commas behind the last one. -/
structure Series (α : Type) where
  items : List (Spaced α)
  rest : List Gap

/-- The value of a property: one entry, or a list of entries. -/
inductive Value where
  | one (e : Entry)
  | many (es : Series Entry)

def Value.isList : Value → Bool
  | one _ => false
  | many _ => true

/-- A key, a colon, and a value as the key asks for it. -/
structure Property where
  pattern : Pattern
  beforeColon : Gap
  afterColon : Gap
  value : Value
  fits : value.isList = pattern.isList

def Entry.written (e : Entry) : Text := e.mark :: (e.text ++ [e.mark])

def Spaced.written {α : Type} (write : α → Text) (s : Spaced α) : Text :=
  s.before.1 ++ (write s.item ++ s.after.1)

/-- What stands between the commas of a series. -/
def Series.pieces {α : Type} (write : α → Text) (s : Series α) : List Text :=
  s.items.map (Spaced.written write) ++ s.rest.map Subtype.val

def Series.written {α : Type} (write : α → Text) (s : Series α) : Text :=
  Text.joinWith "," (s.pieces write)

/-- What stands between the marks, or between the brackets. -/
def Value.content : Value → Text
  | one e => e.text
  | many es => es.written Entry.written

def Value.written : Value → Text
  | one e => e.written
  | many es => Point.ofChar '[' :: (es.written Entry.written ++ [Point.ofChar ']'])

def Value.entries : Value → List Text
  | one e => [e.text]
  | many es => es.items.map fun s => s.item.text

def Property.written (d : Property) : Text :=
  d.pattern.key ++ (d.beforeColon.1 ++ Point.ofChar ':' :: (d.afterColon.1 ++ d.value.written))

/-- The properties in braces. -/
def Series.argument (ds : Series Property) : Text :=
  Point.ofChar '{' :: (ds.written Property.written ++ [Point.ofChar '}'])

/-- The properties with the key of a pattern, in order. -/
def Series.withKey (p : Pattern) (ds : Series Property) : List Property :=
  (ds.items.map Spaced.item).filter fun d => d.pattern = p

/-- The entries of all properties with the key of a pattern, in order. -/
def Series.entriesOf (p : Pattern) (ds : Series Property) : List Text :=
  (ds.withKey p).flatMap fun d => d.value.entries

variable {c : Point} {p : Pattern} {a r s v x : Text}

/-! ## Points of what is written -/

theorem Gap.colon_not_mem (w : Gap) : Point.ofChar ':' ∉ w.1 :=
  Text.not_mem_of_isBlank w.2 (by decide)

theorem Series.mem_pieces {α : Type} {write : α → Text} {s : Series α} (hc : c.isBlank = false)
    {t : Text} (ht : t ∈ s.pieces write) (h : c ∈ t) : ∃ i ∈ s.items, c ∈ write i.item := by
  rcases List.mem_append.1 ht with ht | ht
  · obtain ⟨i, hi, rfl⟩ := List.mem_map.1 ht
    have hbefore := Text.not_mem_of_isBlank i.before.2 hc
    have hafter := Text.not_mem_of_isBlank i.after.2 hc
    rw [Spaced.written, List.mem_append, List.mem_append, or_iff_right hbefore,
      or_iff_left hafter] at h
    exact ⟨i, hi, h⟩
  · obtain ⟨w, -, rfl⟩ := List.mem_map.1 ht
    exact absurd h (Text.not_mem_of_isBlank w.2 hc)

theorem Series.mem_written {α : Type} {write : α → Text} {s : Series α} (hc : c.isBlank = false)
    (h : c ∈ s.written write) : c = Point.ofChar ',' ∨ ∃ i ∈ s.items, c ∈ write i.item := by
  rcases Text.mem_joinWith h with h | ⟨t, ht, h⟩
  · exact .inl (List.mem_singleton.1 h)
  · exact .inr (mem_pieces hc ht h)

/-- Marks and the points of an entry. -/
theorem Entry.mem_written {e : Entry} (h : c ∈ e.written) : c ∈ quotes ∨ c ∈ e.text := by
  rw [Entry.written, List.mem_cons, List.mem_append, List.mem_singleton] at h
  rcases h with rfl | h | rfl
  · exact .inl e.mark_mem
  · exact .inr h
  · exact .inl e.mark_mem

theorem Entry.not_mem_written (e : Entry) (hc : c ∈ Text.ofString ",:[]\n") : c ∉ e.written := by
  have hquotes : ∀ c ∈ Text.ofString ",:[]\n", c ∉ quotes := by decide
  intro h
  rcases Entry.mem_written h with h | h
  · exact hquotes c hc h
  · exact e.plain c h (List.mem_append_right quotes hc)

theorem Value.not_mem_content (es : Series Entry) (hc : c ∈ Text.ofString ":[]") :
    c ∉ es.written Entry.written := by
  have hpoint : ∀ c ∈ Text.ofString ":[]", Point.isBlank c = false ∧ c ≠ Point.ofChar ',' ∧
      c ∈ Text.ofString ",:[]\n" := by decide
  obtain ⟨hblank, hcomma, hplain⟩ := hpoint c hc
  intro h
  rcases Series.mem_written hblank h with rfl | ⟨i, -, h⟩
  · exact hcomma rfl
  · exact i.item.not_mem_written hplain h

theorem Value.colon_not_mem_written (v : Value) : Point.ofChar ':' ∉ v.written := by
  cases v with
  | one e => exact e.not_mem_written (by decide)
  | many es =>
    have hcontent := not_mem_content (c := Point.ofChar ':') es (by decide)
    rw [Value.written, List.mem_cons, List.mem_append, not_or, not_or]
    exact ⟨by decide, hcontent, by decide⟩

/-- A value is written as its pattern reads it. -/
theorem Property.encloses (d : Property) : d.pattern.Encloses d.value.content d.value.written := by
  obtain ⟨p, -, -, v, hfits⟩ := d
  cases v with
  | one e =>
    refine .quoted ⟨e.mark, e.text, e.mark_mem, e.nonempty, fun h => ?_, fun h => ?_⟩ hfits.symm
    · exact e.plain _ h (by decide)
    · exact e.plain _ (List.mem_of_mem_tail h) (List.mem_append_left _ e.mark_mem)
  | many es => exact .bracketed hfits.symm (Value.not_mem_content es (by decide))

/-! ## Entries of lists -/

/-- An entry is what its marks delimit. -/
theorem Entry.trimPoints_written (e : Entry) : Text.trimPoints e.written quotes = e.text := by
  let mark : Point → Bool := fun c => quotes.elem c
  have hmark : mark e.mark = true := List.elem_iff.2 e.mark_mem
  have hpoint : ∀ c ∈ e.text, ¬ mark c = true := fun c hc h =>
    e.plain c hc (List.mem_append_left _ (List.elem_iff.1 h))
  have hstart : (e.text ++ [e.mark]).dropWhile mark = e.text ++ [e.mark] := by
    obtain ⟨c, t, ht⟩ := List.exists_cons_of_ne_nil e.nonempty
    rw [ht, List.cons_append]
    exact List.dropWhile_cons_of_neg (hpoint c (ht ▸ List.mem_cons_self))
  have hend : List.rdropWhile mark e.text = e.text :=
    List.rdropWhile_eq_self_iff.2 fun h => hpoint _ (List.getLast_mem h)
  calc Text.trimPoints e.written quotes
      = List.rdropWhile mark ((e.mark :: (e.text ++ [e.mark])).dropWhile mark) := rfl
    _ = List.rdropWhile mark (e.text ++ [e.mark]) := by
        rw [List.dropWhile_cons_of_pos (p := mark) hmark, hstart]
    _ = e.text := by rw [List.rdropWhile_concat_pos mark _ _ hmark, hend]

theorem Spaced.trim_written (s : Spaced Entry) :
    Text.trim (s.written Entry.written) = s.item.written := by
  have hmark := isBlank_of_mem_quotes s.item.mark_mem
  rw [Spaced.written, Text.trim, Text.trimStart_append s.before.2, Entry.written, List.cons_append,
    Text.trimStart_cons hmark, ← List.cons_append, Text.trimEnd_append s.after.2, ← List.cons_append,
    Text.trimEnd_concat hmark]

/-- Without white space and marks, the text between two commas is the entry in it. -/
theorem Spaced.entry_written (s : Spaced Entry) :
    ((Text.trim (s.written Entry.written)).trimPoints quotes).trim = s.item.text := by
  rw [s.trim_written, s.item.trimPoints_written, s.item.trimmed]

/-- Without white space and marks, nothing is left behind the last entry. -/
theorem Gap.entry_eq_nil (w : Gap) : ((Text.trim w.1).trimPoints quotes).trim = [] := by
  rw [Text.trim_of_isBlank w.2]
  rfl

/-- Commas stand between entries and nowhere else. -/
theorem splitOn_written {es : Series Entry} (h : es.pieces Entry.written ≠ []) :
    Text.splitOn ',' (es.written Entry.written) = es.pieces Entry.written := by
  refine Text.splitOn_joinWith h fun t ht hcomma => ?_
  obtain ⟨i, -, hi⟩ := Series.mem_pieces (by decide) ht hcomma
  exact i.item.not_mem_written (by decide) hi

/-- **The entries of a list** in order, whatever stands between them. -/
theorem listEntries_written (es : Series Entry) :
    listEntries (es.written Entry.written) = es.items.map fun s => s.item.text := by
  have hitems : ((es.items.map (Spaced.written Entry.written)).map fun e : Text =>
      (e.trim.trimPoints quotes).trim) = es.items.map fun s => s.item.text := by
    rw [List.map_map]
    exact List.map_congr_left fun s _ => s.entry_written
  have hkept : (es.items.map fun s => s.item.text).filter (fun e => !e.isEmpty) =
      es.items.map fun s => s.item.text := by
    refine List.filter_eq_self.2 fun e he => ?_
    obtain ⟨s, -, rfl⟩ := List.mem_map.1 he
    have hne := s.item.nonempty
    simpa using hne
  have hrest : ((es.rest.map Subtype.val).map fun e : Text =>
      (e.trim.trimPoints quotes).trim).filter (fun e => !e.isEmpty) = [] := by
    refine List.filter_eq_nil_iff.2 fun e he => ?_
    rw [List.map_map] at he
    obtain ⟨w, -, rfl⟩ := List.mem_map.1 he
    rw [Function.comp_apply, Gap.entry_eq_nil]
    decide
  rw [listEntries]
  by_cases hnil : es.pieces Entry.written = []
  · obtain ⟨hempty, -⟩ := List.append_eq_nil_iff.1 hnil
    rw [Series.written, hnil, List.map_eq_nil_iff.1 hempty]
    rfl
  · rw [splitOn_written hnil, Series.pieces, List.map_append, List.filter_append, hrest, hitems,
      hkept, List.append_nil]

/-- A pattern takes its entries from the value of its property. -/
theorem Property.entries_content (d : Property) :
    d.pattern.entries d.value.content = d.value.entries := by
  obtain ⟨p, -, -, v, hfits⟩ := d
  cases v with
  | one e =>
    have hp : p.isList = false := hfits.symm
    have hne := e.nonempty
    rw [Pattern.entries, hp, Value.content, e.trimmed, if_neg Bool.false_ne_true,
      if_neg (by simpa using hne)]
    rfl
  | many es =>
    have hp : p.isList = true := hfits.symm
    rw [Pattern.entries, hp, if_pos rfl]
    exact listEntries_written es

/-! ## The search over properties -/

theorem Pattern.colon_not_mem_key (p : Pattern) : Point.ofChar ':' ∉ p.key := by
  cases p <;> decide

/-- **No key ends with another one.** -/
theorem Pattern.eq_of_suffix {q : Pattern} (h : p.key <:+ x ++ q.key) : p = q := by
  have hkeys : ∀ p q : Pattern, p.key <:+ q.key → p = q := by
    intro p q
    cases p <;> cases q <;> decide
  rcases List.suffix_or_suffix_of_suffix h (List.suffix_append x q.key) with h | h
  · exact hkeys p q h
  · exact (hkeys q p h).symm

/-- White space behind a key does not belong to it. -/
theorem Pattern.trimEnd_append_key (p : Pattern) (ha : a.isBlank = true) (x : Text) :
    Text.trimEnd (x ++ (p.key ++ a)) = x ++ p.key := by
  obtain ⟨k, c, hk, hc⟩ : ∃ k c, p.key = k ++ [c] ∧ Point.isBlank c = false := by
    cases p with
    | templateUrl => exact ⟨"templateUr", 'l', rfl, by decide⟩
    | styleUrls => exact ⟨"styleUrl", 's', rfl, by decide⟩
    | styleUrl => exact ⟨"styleUr", 'l', rfl, by decide⟩
  rw [← List.append_assoc, Text.trimEnd_append ha, hk, ← List.append_assoc, Text.trimEnd_concat hc]

/-- Where a reference starts, its key and white space stand before the first colon. -/
theorem exists_of_match (hx : Point.ofChar ':' ∉ x)
    (h : p.match? (x ++ Point.ofChar ':' :: s) ≠ none) :
    ∃ a : Text, a.isBlank = true ∧ x = p.key ++ a := by
  obtain ⟨⟨v, r⟩, hm⟩ := Option.ne_none_iff_exists'.1 h
  obtain ⟨a, b, w, ha, -, -, ht⟩ := Pattern.match?_eq_some.1 hm
  have hcolon : Point.ofChar ':' ∉ p.key ++ a := by
    rw [List.mem_append, not_or]
    exact ⟨p.colon_not_mem_key, Text.not_mem_of_isBlank ha (by decide)⟩
  have hcut := Text.cut?_append hx s
  rw [ht, ← List.append_assoc, Text.cut?_append hcolon, Option.some.injEq, Prod.mk.injEq] at hcut
  exact ⟨a, ha, hcut.1.symm⟩

/-- **A colon that does not stand behind the key** is passed over. -/
theorem occurrences_skip (hx : Point.ofChar ':' ∉ x)
    (hkey : ∀ a : Text, a.isBlank = true → ¬ p.key ++ a <:+ x) (s : Text) :
    occurrences p (x ++ Point.ofChar ':' :: s) = occurrences p s := by
  rw [List.append_cons]
  refine occurrences_append fun u hu hux => ?_
  obtain ⟨z, rfl, hz⟩ := (List.suffix_concat_iff.1 hux).resolve_left hu
  by_contra hm
  rw [← List.append_cons] at hm
  obtain ⟨a, ha, rfl⟩ := exists_of_match (fun h => hx (hz.subset h)) hm
  exact hkey a ha hz

/-- **A colon behind the key** announces a value, whatever stands before the key. -/
theorem occurrences_key (hx : Point.ofChar ':' ∉ x) (ha : a.isBlank = true)
    (h : p.match? (p.key ++ (a ++ Point.ofChar ':' :: s)) = some (v, r)) :
    occurrences p (x ++ (p.key ++ (a ++ Point.ofChar ':' :: s))) = v :: occurrences p r := by
  rw [← occurrences_of_match h]
  refine occurrences_append fun u hu hux => ?_
  by_contra hm
  have hcolon : Point.ofChar ':' ∉ u ++ (p.key ++ a) := by
    rw [List.mem_append, List.mem_append, not_or, not_or]
    exact ⟨fun h => hx (hux.subset h), p.colon_not_mem_key,
      Text.not_mem_of_isBlank ha (by decide)⟩
  rw [← List.append_assoc p.key, ← List.append_assoc] at hm
  obtain ⟨a', ha', hkey⟩ := exists_of_match hcolon hm
  have htrim := congrArg Text.trimEnd hkey
  rw [p.trimEnd_append_key ha u, ← List.nil_append (p.key ++ a'), p.trimEnd_append_key ha' [],
    List.append_left_inj] at htrim
  exact hu htrim

/-- **The search over a property**, behind points that are no colons: its value is found by its own
pattern alone, and no colon is left of it. -/
theorem occurrences_property (d : Property) (hx : Point.ofChar ':' ∉ x) (r : Text) :
    ∃ y, Point.ofChar ':' ∉ y ∧ occurrences p (x ++ (d.written ++ r)) =
      (if d.pattern = p then [d.value.content] else []) ++ occurrences p (y ++ r) := by
  have hwritten : d.written ++ r = d.pattern.key ++ (d.beforeColon.1 ++
      Point.ofChar ':' :: (d.afterColon.1 ++ (d.value.written ++ r))) := by
    simp [Property.written]
  rw [hwritten]
  by_cases hp : d.pattern = p
  · subst hp
    have hmatch : d.pattern.match? (d.pattern.key ++ (d.beforeColon.1 ++ Point.ofChar ':' ::
        (d.afterColon.1 ++ (d.value.written ++ r)))) = some (d.value.content, r) :=
      Pattern.match?_eq_some.2 ⟨_, _, _, d.beforeColon.2, d.afterColon.2, d.encloses, rfl⟩
    exact ⟨[], List.not_mem_nil, by rw [occurrences_key hx d.beforeColon.2 hmatch, if_pos rfl]; rfl⟩
  · have hcolon : Point.ofChar ':' ∉ x ++ (d.pattern.key ++ d.beforeColon.1) := by
      rw [List.mem_append, List.mem_append, not_or, not_or]
      exact ⟨hx, d.pattern.colon_not_mem_key, d.beforeColon.colon_not_mem⟩
    refine ⟨d.afterColon.1 ++ d.value.written, ?_, ?_⟩
    · rw [List.mem_append, not_or]
      exact ⟨d.afterColon.colon_not_mem, d.value.colon_not_mem_written⟩
    · rw [if_neg hp, List.nil_append, List.append_assoc, ← List.append_assoc d.pattern.key,
        ← List.append_assoc x]
      refine occurrences_skip hcolon (fun a ha hkey => hp ?_) _
      obtain ⟨z, hz⟩ := hkey
      have htrim := congrArg Text.trimEnd hz
      rw [p.trimEnd_append_key ha, d.pattern.trimEnd_append_key d.beforeColon.2] at htrim
      exact (Pattern.eq_of_suffix ⟨z, htrim⟩).symm

theorem exists_joinWith_cons (t : Text) (ts : List Text) : ∃ z, Point.ofChar ':' ∉ z ∧
    Text.joinWith "," (t :: ts) = t ++ (z ++ Text.joinWith "," ts) := by
  cases ts with
  | nil => exact ⟨[], List.not_mem_nil, by simp [Text.joinWith]⟩
  | cons u ts =>
    refine ⟨",", by decide, ?_⟩
    rw [Text.joinWith_cons_cons, List.append_assoc]

/-- **The search over properties** finds the values of those with its key, in order. -/
theorem occurrences_properties (ds : Series Property) (hx : Point.ofChar ':' ∉ x)
    (hr : Point.ofChar ':' ∉ r) :
    occurrences p (x ++ (ds.written Property.written ++ r)) =
      (ds.withKey p).map fun d => d.value.content := by
  obtain ⟨items, rest⟩ := ds
  induction items generalizing x with
  | nil =>
    refine occurrences_of_colon_not_mem ?_
    have hrest : Point.ofChar ':' ∉ Series.written Property.written ⟨[], rest⟩ := by
      intro h
      rcases Series.mem_written (by decide) h with h | ⟨i, hi, -⟩
      · exact absurd h (by decide)
      · cases hi
    rw [List.mem_append, List.mem_append, not_or, not_or]
    exact ⟨hx, hrest, hr⟩
  | cons s items ih =>
    obtain ⟨z, hz, hjoin⟩ := exists_joinWith_cons (s.written Property.written)
      (Series.pieces Property.written ⟨items, rest⟩)
    have hfront : Point.ofChar ':' ∉ x ++ s.before.1 := by
      rw [List.mem_append, not_or]
      exact ⟨hx, s.before.colon_not_mem⟩
    obtain ⟨y, hy, hproperty⟩ := occurrences_property (p := p) s.item hfront
      (s.after.1 ++ (z ++ (Series.written Property.written ⟨items, rest⟩ ++ r)))
    have hback : Point.ofChar ':' ∉ y ++ (s.after.1 ++ z) := by
      rw [List.mem_append, List.mem_append, not_or, not_or]
      exact ⟨hy, s.after.colon_not_mem, hz⟩
    have htext : x ++ (Series.written Property.written ⟨s :: items, rest⟩ ++ r) =
        x ++ s.before.1 ++ (s.item.written ++ (s.after.1 ++
          (z ++ (Series.written Property.written ⟨items, rest⟩ ++ r)))) := by
      have hpieces : Series.pieces Property.written ⟨s :: items, rest⟩ =
          s.written Property.written :: Series.pieces Property.written ⟨items, rest⟩ := rfl
      rw [Series.written, hpieces, hjoin, Spaced.written]
      simp [Series.written]
    have hrest : occurrences p (y ++ (s.after.1 ++
        (z ++ (Series.written Property.written ⟨items, rest⟩ ++ r)))) =
          (Series.withKey p ⟨items, rest⟩).map fun d => d.value.content := by
      rw [← ih hback]
      simp
    rw [htext, hproperty, hrest, Series.withKey, Series.withKey, List.map_cons, List.filter_cons]
    by_cases hp : s.item.pattern = p <;> simp [hp]

/-! ## Whole arguments -/

/-- The references that a pattern takes from an argument. -/
theorem extractBy_argument (p : Pattern) (ds : Series Property) :
    (occurrences p ds.argument).flatMap p.entries = ds.entriesOf p := by
  have hargument : occurrences p ds.argument = (ds.withKey p).map fun d => d.value.content :=
    occurrences_properties (x := [Point.ofChar '{']) ds (by decide) (by decide)
  have hentries : ∀ d ∈ ds.withKey p, p.entries d.value.content = d.value.entries := by
    intro d hd
    have hp : d.pattern = p := by simpa using List.of_mem_filter hd
    exact hp ▸ d.entries_content
  rw [hargument, List.flatMap_map, Series.entriesOf]
  exact List.flatMap_congr hentries

/-- **The references of an argument**: the entries of its templates, then those of its lists of
styles, then its single styles, each in the order in which they are written. -/
theorem extract_written (ds : Series Property) :
    extract ds.argument =
      ds.entriesOf .templateUrl ++ ds.entriesOf .styleUrls ++ ds.entriesOf .styleUrl := by
  rw [extract, extractBy, Pattern.all]
  simp only [List.flatMap_cons, List.flatMap_nil, extractBy_argument, List.append_nil,
    List.append_assoc]

/-- No white space. -/
def Gap.none : Gap := ⟨[], rfl⟩

/-- All three keys and marks, a key for an entry, and a comma behind the last entry of a list. -/
def threeKeys : Series Property where
  items := [
    ⟨⟨" ", by decide⟩, {
      pattern := .styleUrls
      beforeColon := ⟨" ", by decide⟩
      afterColon := ⟨"\n", by decide⟩
      value := .many ⟨[
        ⟨.none, ⟨'\'', "a", by decide, by decide, by decide, by decide⟩, .none⟩,
        ⟨⟨" ", by decide⟩, ⟨'"', "styleUrl", by decide, by decide, by decide, by decide⟩,
          ⟨" ", by decide⟩⟩], [.none]⟩
      fits := rfl }, .none⟩,
    ⟨⟨" ", by decide⟩, {
      pattern := .styleUrl
      beforeColon := .none
      afterColon := .none
      value := .one ⟨Point.ofNat 0x60, "c", by decide, by decide, by decide, by decide⟩
      fits := rfl }, .none⟩,
    ⟨.none, {
      pattern := .templateUrl
      beforeColon := .none
      afterColon := ⟨" ", by decide⟩
      value := .one ⟨'\'', "d", by decide, by decide, by decide, by decide⟩
      fits := rfl }, .none⟩]
  rest := []

theorem extract_written_threeKeys :
    threeKeys.argument =
      "\x7b styleUrls :\n['a', \"styleUrl\" ,], styleUrl:\x60c\x60,templateUrl: 'd'\x7d" ∧
    extract threeKeys.argument = ["d", "a", "styleUrl", "c"] := by
  refine ⟨by decide, ?_⟩
  rw [extract_written threeKeys]
  decide

end Reference

end SourceAtlas
