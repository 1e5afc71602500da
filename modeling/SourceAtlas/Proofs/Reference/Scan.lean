import SourceAtlas.Proofs.Affixes
import SourceAtlas.Proofs.Blank
import SourceAtlas.Reference

/-!
# The search for references

A pattern finds its key, a colon and a value, from left to right, each time behind the value before.
A quoted value ends with the next mark behind its first point. So it is what stands between the marks
of a literal, unless the literal is empty: then the value starts with the mark that ends the literal,
and runs on to the next one.

* `Reference.Quoted`, `Reference.Pattern.Encloses`: values and the marks around them;
* **`Reference.Pattern.match?_eq_some`**: what a pattern finds at the start of a text;
* `Reference.occurrences_append`, `Reference.occurrences_of_match`: the steps of the search;
* `Reference.Pattern.Finds`: the quoted values that stand behind a key, one after the other;
* **`Reference.extractBy_single`**: the references that single-valued patterns return, and which of
  them hold the mark that they are delimited by.
-/

namespace SourceAtlas

namespace Reference

variable {c q : Point} {p : Pattern} {a b key r s t u v w x : Text}

/-! ## Values -/

/-- A value as it stands between marks: one or more points on one line, from one mark to the next
such mark behind the first of them. -/
@[ext]
structure Quoted where
  mark : Point
  value : Text
  mark_mem : mark ∈ quotes
  nonempty : value ≠ []
  oneLine : Point.ofChar '\n' ∉ value
  mark_not_mem : mark ∉ value.tail

namespace Quoted

/-- The value with its marks. -/
def written (l : Quoted) : Text := l.mark :: (l.value ++ [l.mark])

/-- The second mark of the literal that the value starts in stands right behind the first one. -/
def StartsEmpty (l : Quoted) : Prop := l.value.head? = some l.mark

/-- **A value holds its mark** only as its first point. -/
theorem mark_mem_value (l : Quoted) : l.mark ∈ l.value ↔ l.StartsEmpty := by
  obtain ⟨d, v, hv⟩ := List.exists_cons_of_ne_nil l.nonempty
  have htail := l.mark_not_mem
  rw [hv, List.tail_cons] at htail
  rw [StartsEmpty, hv, List.mem_cons, or_iff_left htail, List.head?_cons, Option.some.injEq, eq_comm]

end Quoted

theorem isBlank_of_mem_quotes (h : q ∈ quotes) : q.isBlank = false := by
  have hall : ∀ q ∈ quotes, Point.isBlank q = false := by decide
  exact hall q h

/-- How the value of a pattern is written: between marks, or between brackets. -/
inductive Pattern.Encloses (p : Pattern) : (value written : Text) → Prop where
  | quoted (l : Quoted) : p.isList = false → Encloses p l.value l.written
  | bracketed {v : Text} : p.isList = true → Point.ofChar ']' ∉ v →
      Encloses p v (Point.ofChar '[' :: (v ++ [Point.ofChar ']']))

theorem has_quotes : quotes.has c = true ↔ c ∈ quotes := by
  rw [← Bool.not_eq_false, Text.has_eq_false_iff, not_not]

/-- The first point of a value and the run behind it. -/
theorem quotedValue?_cons : quotedValue? q (c :: t) = some (v, r) ↔
    c ≠ Point.ofChar '\n' ∧
      v = c :: (t.takeWhile fun d => decide (d ≠ q ∧ d ≠ Point.ofChar '\n')) ∧
      (t.dropWhile fun d => decide (d ≠ q ∧ d ≠ Point.ofChar '\n')) = q :: r := by
  rw [quotedValue?]
  cases (t.dropWhile fun d => decide (d ≠ q ∧ d ≠ Point.ofChar '\n')) with
  | nil => simp
  | cons d rest =>
    by_cases hcd : c ≠ Point.ofChar '\n' ∧ d = q
    · simp [hcd, eq_comm]
    · simp only [if_neg hcd, List.cons.injEq]
      tauto

theorem quotedValue?_eq_some (hq : q ∈ quotes) :
    quotedValue? q t = some (v, r) ↔ ∃ l : Quoted, l.mark = q ∧ l.value = v ∧ t = v ++ q :: r := by
  cases t with
  | nil => simp [quotedValue?]
  | cons c t =>
    rw [quotedValue?_cons]
    constructor
    · rintro ⟨hc, rfl, hr⟩
      have hsplit := t.takeWhile_append_dropWhile
        (p := fun d => decide (d ≠ q ∧ d ≠ Point.ofChar '\n'))
      have hinner : ∀ d ∈ t.takeWhile fun d => decide (d ≠ q ∧ d ≠ Point.ofChar '\n'),
          d ≠ q ∧ d ≠ Point.ofChar '\n' := by
        intro d hd
        simpa using List.mem_takeWhile_imp hd
      rw [hr] at hsplit
      refine ⟨⟨q, _, hq, List.cons_ne_nil _ _, ?_, ?_⟩, rfl, rfl, ?_⟩
      · rw [List.mem_cons, not_or]
        exact ⟨Ne.symm hc, fun hn => (hinner _ hn).2 rfl⟩
      · exact fun hn => (hinner _ hn).1 rfl
      · rw [List.cons_append, hsplit]
    · rintro ⟨l, rfl, rfl, ht⟩
      obtain ⟨d, v, hv⟩ := List.exists_cons_of_ne_nil l.nonempty
      have hline := l.oneLine
      have htail := l.mark_not_mem
      rw [hv, List.cons_append, List.cons.injEq] at ht
      rw [hv, List.mem_cons, not_or] at hline
      rw [hv, List.tail_cons] at htail
      obtain ⟨rfl, rfl⟩ := ht
      have hrun : ∀ d ∈ v, decide (d ≠ l.mark ∧ d ≠ Point.ofChar '\n') = true := by
        intro d hd
        exact decide_eq_true ⟨fun he => htail (he ▸ hd), fun he => hline.2 (he ▸ hd)⟩
      rw [List.takeWhile_append_of_pos hrun, List.dropWhile_append_of_pos hrun,
        List.takeWhile_cons_of_neg (by simp), List.dropWhile_cons_of_neg (by simp), hv,
        List.append_nil]
      exact ⟨Ne.symm hline.1, rfl, rfl⟩

/-! ## One reference -/

theorem afterColon?_eq_some : afterColon? key t = some u ↔ ∃ a b : Text, a.isBlank = true ∧
    b.isBlank = true ∧ t = key ++ (a ++ Point.ofChar ':' :: (b ++ u)) ∧
      ∀ c ∈ u.head?, Point.isBlank c = false := by
  have hcolon : Point.isBlank ':' = false := by decide
  have hbind : afterColon? key t = some u ↔ ∃ s, t = key ++ s ∧
      Text.trimStart s = Point.ofChar ':' :: (Text.trimStart s).tail ∧
        Text.trimStart (Text.trimStart s).tail = u := by
    unfold afterColon?
    simp only [Option.bind_eq_bind, Option.bind_eq_some_iff, Text.after?_eq_some]
    refine exists_congr fun s => and_congr_right fun _ => ?_
    cases Text.trimStart s with
    | nil => simp
    | cons c r =>
      by_cases hc : c = Point.ofChar ':'
      · simp [hc]
      · simp [hc]
  rw [hbind]
  constructor
  · rintro ⟨s, rfl, hs, rfl⟩
    obtain ⟨a, ha, hsa, -⟩ := Text.exists_trimStart s
    obtain ⟨b, hb, hsb, hhead⟩ := Text.exists_trimStart (Text.trimStart s).tail
    exact ⟨a, b, ha, hb, by rw [← hsb, ← hs, ← hsa], hhead⟩
  · rintro ⟨a, b, ha, hb, rfl, hhead⟩
    refine ⟨_, rfl, ?_⟩
    rw [Text.trimStart_append ha, Text.trimStart_cons hcolon, List.tail_cons,
      Text.trimStart_append hb]
    refine ⟨rfl, ?_⟩
    cases u with
    | nil => rfl
    | cons c u => exact Text.trimStart_cons (hhead c rfl) u

namespace Pattern

theorem head_written (h : p.Encloses v w) : ∃ c z, w = c :: z ∧ c.isBlank = false := by
  cases h with
  | quoted l _ => exact ⟨_, _, rfl, isBlank_of_mem_quotes l.mark_mem⟩
  | bracketed _ _ => exact ⟨_, _, rfl, by decide⟩

/-- What is found stands behind the colon. -/
theorem exists_encloses (h : p.match? t = some (v, r)) :
    ∃ w, afterColon? p.key t = some (w ++ r) ∧ p.Encloses v w := by
  unfold match? at h
  obtain ⟨u, hu, h⟩ := Option.bind_eq_some_iff.1 h
  rw [hu]
  cases u with
  | nil => cases h
  | cons c s =>
    dsimp only at h
    cases hp : p.isList with
    | true =>
      rw [hp, if_pos rfl] at h
      split at h
      · rename_i hc
        obtain ⟨rfl, hv⟩ := Text.cut?_eq_some.1 h
        exact ⟨_, by rw [hc]; simp, .bracketed hp hv⟩
      · cases h
    | false =>
      rw [hp, if_neg Bool.false_ne_true] at h
      split at h
      · rename_i hc
        obtain ⟨l, rfl, rfl, rfl⟩ := (quotedValue?_eq_some (has_quotes.1 hc)).1 h
        exact ⟨_, by simp [Quoted.written], .quoted l hp⟩
      · cases h

/-- What stands behind the colon is found. -/
theorem Encloses.match? (h : p.Encloses v w) (hu : afterColon? p.key t = some (w ++ r)) :
    p.match? t = some (v, r) := by
  unfold Pattern.match?
  refine Option.bind_eq_some_iff.2 ⟨_, hu, ?_⟩
  cases h with
  | quoted l hp =>
    have hq : quotes.has l.mark = true := has_quotes.2 l.mark_mem
    have hread : quotedValue? l.mark (l.value ++ l.mark :: r) = some (l.value, r) :=
      (quotedValue?_eq_some l.mark_mem).2 ⟨l, rfl, rfl, rfl⟩
    simp only [Quoted.written, List.cons_append, List.append_assoc, List.nil_append, hp, hq,
      hread, if_true, Bool.false_eq_true, if_false]
  | bracketed hp hv =>
    have hread : bracketedValue? (v ++ Point.ofChar ']' :: r) = some (v, r) :=
      Text.cut?_eq_some.2 ⟨rfl, hv⟩
    simp only [List.cons_append, List.append_assoc, List.nil_append, hp, hread, if_true]

/-- **What a pattern finds** at the start of a text: its key, a colon, and its value. -/
theorem match?_eq_some : p.match? t = some (v, r) ↔ ∃ a b w : Text, a.isBlank = true ∧
    b.isBlank = true ∧ p.Encloses v w ∧
      t = p.key ++ (a ++ Point.ofChar ':' :: (b ++ (w ++ r))) := by
  constructor
  · intro h
    obtain ⟨w, hu, hw⟩ := exists_encloses h
    obtain ⟨a, b, ha, hb, ht, -⟩ := afterColon?_eq_some.1 hu
    exact ⟨a, b, w, ha, hb, hw, ht⟩
  · rintro ⟨a, b, w, ha, hb, hw, ht⟩
    refine hw.match? (afterColon?_eq_some.2 ⟨a, b, ha, hb, ht, ?_⟩)
    obtain ⟨c, z, rfl, hc⟩ := head_written hw
    rintro d ⟨rfl⟩
    exact hc

/-- Nothing is found without a colon. -/
theorem match?_eq_none (h : Point.ofChar ':' ∉ t) : p.match? t = none := by
  refine Option.eq_none_iff_forall_ne_some.2 fun vr hm => ?_
  obtain ⟨a, b, w, -, -, -, rfl⟩ := match?_eq_some.1 hm
  simp at h

end Pattern

/-! ## The search -/

theorem occurrencesFrom_length (p : Pattern) (w r : Text) :
    occurrencesFrom p w.length (w ++ r) = occurrences p r := by
  induction w with
  | nil => rfl
  | cons c w ih => exact ih

theorem occurrences_nil (p : Pattern) : occurrences p [] = [] := rfl

theorem occurrences_cons (h : p.match? (c :: t) = none) :
    occurrences p (c :: t) = occurrences p t := by
  rw [occurrences, occurrencesFrom, h]
  rfl

/-- Where nothing is found, the search goes on. -/
theorem occurrences_append (h : ∀ u, u ≠ [] → u <:+ x → p.match? (u ++ s) = none) :
    occurrences p (x ++ s) = occurrences p s := by
  induction x with
  | nil => rfl
  | cons c x ih =>
    have hc : p.match? (c :: (x ++ s)) = none :=
      h (c :: x) (List.cons_ne_nil c x) List.suffix_rfl
    rw [List.cons_append, occurrences_cons hc]
    exact ih fun u hu hx => h u hu (hx.trans (List.suffix_cons c x))

theorem occurrences_of_colon_not_mem (h : Point.ofChar ':' ∉ t) : occurrences p t = [] := by
  have hnone := occurrences_append (p := p) (x := t) (s := []) fun u _ hu =>
    Pattern.match?_eq_none (by rw [List.append_nil]; exact fun hc => h (hu.subset hc))
  rwa [List.append_nil] at hnone

theorem length_lt_of_match (h : p.match? t = some (v, r)) : r.length < t.length := by
  obtain ⟨a, b, w, -, -, -, rfl⟩ := Pattern.match?_eq_some.1 h
  simp
  omega

/-- Where something is found, the search goes on behind it. -/
theorem occurrences_of_match (h : p.match? t = some (v, r)) :
    occurrences p t = v :: occurrences p r := by
  have hlength := length_lt_of_match h
  obtain ⟨a, b, w, -, -, -, ht⟩ := Pattern.match?_eq_some.1 h
  cases t with
  | nil => cases hlength
  | cons c t =>
    have hsuffix : r <:+ c :: t := by
      rw [ht]
      exact ⟨p.key ++ (a ++ Point.ofChar ':' :: (b ++ w)), by simp⟩
    obtain ⟨y, rfl⟩ := (List.suffix_cons_iff.1 hsuffix).resolve_left (by
      rintro rfl
      exact absurd hlength (Nat.lt_irrefl _))
    rw [occurrences, occurrencesFrom, h]
    dsimp only
    rw [List.length_append, Nat.add_sub_cancel, occurrencesFrom_length]

/-! ## Single-valued patterns -/

namespace Pattern

variable {l l' : Quoted} {ls ls' : List Quoted} {r' : Text}

/-- A text starts with the key of a pattern, a colon, and a quoted value. -/
def Reads (p : Pattern) (t : Text) (l : Quoted) (r : Text) : Prop :=
  ∃ a b, Text.isBlank a = true ∧ Text.isBlank b = true ∧
    t = p.key ++ (a ++ Point.ofChar ':' :: (b ++ (l.written ++ r)))

/-- The quoted values behind a key, each the first one behind the one before. -/
inductive Finds (p : Pattern) : Text → List Quoted → Prop where
  | nothing {t : Text} : (∀ u, u <:+ t → ∀ l r, ¬ p.Reads u l r) → Finds p t []
  | next {x t r : Text} {l : Quoted} {ls : List Quoted} :
      (∀ u, u ≠ [] → u <:+ x → ∀ l' r', ¬ p.Reads (u ++ t) l' r') → p.Reads t l r →
        Finds p r ls → Finds p (x ++ t) (l :: ls)

theorem match?_eq_some_of_single (hp : p.isList = false) :
    p.match? t = some (v, r) ↔ ∃ l, p.Reads t l r ∧ l.value = v := by
  rw [match?_eq_some]
  constructor
  · rintro ⟨a, b, w, ha, hb, hw, ht⟩
    cases hw with
    | quoted l _ => exact ⟨l, ⟨a, b, ha, hb, ht⟩, rfl⟩
    | bracketed hp' _ => cases hp.symm.trans hp'
  · rintro ⟨l, ⟨a, b, ha, hb, ht⟩, rfl⟩
    exact ⟨a, b, l.written, ha, hb, .quoted l hp, ht⟩

theorem not_reads_of_match (hp : p.isList = false) (h : p.match? t = none) (l : Quoted) (r : Text) :
    ¬ p.Reads t l r := by
  intro hr
  have hsome : p.match? t = some (l.value, r) := (match?_eq_some_of_single hp).2 ⟨l, hr, rfl⟩
  cases h.symm.trans hsome

theorem Reads.afterColon? (h : p.Reads t l r) :
    afterColon? p.key t = some (l.written ++ r) := by
  obtain ⟨a, b, ha, hb, ht⟩ := h
  refine afterColon?_eq_some.2 ⟨a, b, ha, hb, ht, ?_⟩
  rintro d ⟨rfl⟩
  exact isBlank_of_mem_quotes l.mark_mem

/-- A text starts with at most one reference. -/
theorem Reads.unique (hp : p.isList = false) (h : p.Reads t l r) (h' : p.Reads t l' r') :
    l = l' ∧ r = r' := by
  have hm := (match?_eq_some_of_single hp).2 ⟨l, h, rfl⟩
  have hm' := (match?_eq_some_of_single hp).2 ⟨l', h', rfl⟩
  rw [hm, Option.some.injEq, Prod.mk.injEq] at hm'
  have hwritten := Option.some.inj (h.afterColon?.symm.trans h'.afterColon?)
  exact ⟨Quoted.ext (List.cons.inj hwritten).1 hm'.1, hm'.2⟩

/-- **An empty literal is read as a reference** exactly if its mark stands again on the line. -/
theorem exists_reads_iff (ha : Text.isBlank a = true) (hb : Text.isBlank b = true)
    (hq : q ∈ quotes) :
    (∃ l r, p.Reads (p.key ++ (a ++ Point.ofChar ':' :: (b ++ q :: q :: u))) l r) ↔
      ∃ w r, Point.ofChar '\n' ∉ w ∧ u = w ++ q :: r := by
  constructor
  · rintro ⟨l, r, hr⟩
    have hu : Reference.afterColon? p.key (p.key ++ (a ++ Point.ofChar ':' :: (b ++ q :: q :: u))) =
        some (q :: q :: u) := by
      refine afterColon?_eq_some.2 ⟨a, b, ha, hb, rfl, ?_⟩
      rintro d ⟨rfl⟩
      exact isBlank_of_mem_quotes hq
    obtain ⟨d, v, hv⟩ := List.exists_cons_of_ne_nil l.nonempty
    have hline := l.oneLine
    have hwritten := Option.some.inj (hu.symm.trans hr.afterColon?)
    rw [Quoted.written, hv] at hwritten
    simp only [List.cons_append, List.append_assoc, List.nil_append, List.cons.injEq] at hwritten
    obtain ⟨hmark, -, hrest⟩ := hwritten
    rw [hv, List.mem_cons, not_or] at hline
    exact ⟨v, r, hline.2, hmark ▸ hrest⟩
  · rintro ⟨w, r, hw, rfl⟩
    -- The next mark may come before the one that is given.
    obtain ⟨v, r', hvr, hv, hvw⟩ : ∃ v r', w ++ q :: r = v ++ q :: r' ∧ q ∉ v ∧ v ⊆ w := by
      by_cases hqw : q ∈ w
      · obtain ⟨v, s, rfl, hv⟩ := List.eq_append_cons_of_mem hqw
        exact ⟨v, s ++ q :: r, by simp, hv, List.subset_append_left _ _⟩
      · exact ⟨w, r, rfl, hqw, List.Subset.refl w⟩
    have hline : Point.ofChar '\n' ∉ q :: v := by
      rw [List.mem_cons, not_or]
      refine ⟨fun he => ?_, fun hn => hw (hvw hn)⟩
      rw [← he] at hq
      exact absurd hq (by decide)
    exact ⟨⟨q, q :: v, hq, List.cons_ne_nil q v, hline, hv⟩, r', a, b, ha, hb, by
      simp [Quoted.written, hvr]⟩

/-- A point where nothing is found stands before what is found. -/
theorem Finds.cons (hc : ∀ l r, ¬ p.Reads (c :: t) l r) (h : p.Finds t ls) :
    p.Finds (c :: t) ls := by
  cases h with
  | nothing hnone =>
    refine .nothing fun u hu => ?_
    rcases List.suffix_cons_iff.1 hu with rfl | hu
    · exact hc
    · exact hnone u hu
  | @next x t r l ls hx hl hls =>
    refine .next (x := c :: x) (fun u hu hux => ?_) hl hls
    rcases List.suffix_cons_iff.1 hux with rfl | hux
    · exact hc
    · exact hx u hu hux

/-- **The search finds the quoted values.** -/
theorem exists_finds (hp : p.isList = false) (t : Text) :
    ∃ ls, p.Finds t ls ∧ occurrences p t = ls.map Quoted.value := by
  induction ht : t.length using Nat.strong_induction_on generalizing t with
  | _ n ih =>
    subst ht
    cases hm : p.match? t with
    | none =>
      have hnone := not_reads_of_match hp hm
      cases t with
      | nil =>
        refine ⟨[], .nothing fun u hu => ?_, occurrences_nil p⟩
        rwa [List.suffix_nil.1 hu]
      | cons c t =>
        obtain ⟨ls, hls, ho⟩ := ih t.length (Nat.lt_succ_self _) t rfl
        exact ⟨ls, hls.cons hnone, (occurrences_cons hm).trans ho⟩
    | some vr =>
      obtain ⟨v, r⟩ := vr
      obtain ⟨l, hl, rfl⟩ := (match?_eq_some_of_single hp).1 hm
      obtain ⟨ls, hls, ho⟩ := ih r.length (length_lt_of_match hm) r rfl
      refine ⟨l :: ls, .next (x := []) (fun u hu hnil => ?_) hl hls, ?_⟩
      · exact absurd (List.suffix_nil.1 hnil) hu
      · rw [occurrences_of_match hm, ho, List.map_cons]

theorem Finds.unique (hp : p.isList = false) (h : p.Finds t ls) (h' : p.Finds t ls') : ls = ls' := by
  induction h generalizing ls' with
  | nothing hnone =>
    generalize ht : t = t' at h'
    cases h' with
    | nothing _ => rfl
    | @next x u r l ls _ hl _ => exact absurd hl (hnone u ⟨x, rfl⟩ l r)
  | @next x t r l ls hx hl _ ih =>
    generalize ht : x ++ t = t' at h'
    cases h' with
    | nothing hnone => exact absurd hl (hnone t ⟨x, ht⟩ l r)
    | @next x' t' r' l' ls' hx' hl' hls' =>
      have hsame : t = t' := by
        rcases List.append_eq_append_iff.1 ht with ⟨z, hz, hzt⟩ | ⟨z, hz, hzt⟩
        · by_cases hnil : z = []
          · rw [hzt, hnil, List.nil_append]
          · exact absurd (hzt ▸ hl) (hx' z hnil (hz ▸ List.suffix_append x z) l r)
        · by_cases hnil : z = []
          · rw [hzt, hnil, List.nil_append]
          · exact absurd (hzt ▸ hl') (hx z hnil (hz ▸ List.suffix_append x' z) l' r')
      subst hsame
      obtain ⟨rfl, rfl⟩ := hl.unique hp hl'
      rw [ih hls']

end Pattern

theorem flatMap_entries (hp : p.isList = false) (vs : List Text) :
    vs.flatMap p.entries = (vs.map Text.trim).filter fun v => !v.isEmpty := by
  induction vs with
  | nil => rfl
  | cons v vs ih =>
    rw [List.flatMap_cons, ih, List.map_cons, List.filter_cons, Pattern.entries, hp,
      if_neg Bool.false_ne_true]
    cases (Text.trim v).isEmpty <;> rfl

/-- **The references that a single-valued pattern returns** are the quoted values that stand behind
its key, without white space around them. One of them holds the mark that it is delimited by exactly
if the literal that it starts in is empty; and an empty literal is read as a reference exactly if its
mark stands again on the line. -/
theorem extractBy_single (hp : p.isList = false) (t : Text) :
    (∃! ls, p.Finds t ls) ∧
      (∀ ls, p.Finds t ls →
        extractBy [p] t = (ls.map fun l => Text.trim l.value).filter (fun v => !v.isEmpty) ∧
          ∀ l ∈ ls, l.mark ∈ Text.trim l.value ↔ l.StartsEmpty) ∧
      ∀ a b u : Text, ∀ q ∈ quotes, a.isBlank = true → b.isBlank = true →
        ((∃ l r, p.Reads (p.key ++ (a ++ Point.ofChar ':' :: (b ++ q :: q :: u))) l r) ↔
          ∃ w r, Point.ofChar '\n' ∉ w ∧ u = w ++ q :: r) := by
  obtain ⟨ls, hls, ho⟩ := Pattern.exists_finds hp t
  refine ⟨⟨ls, hls, fun _ h => h.unique hp hls⟩, fun ls' h => ?_,
    fun _ _ _ _ hq ha hb => Pattern.exists_reads_iff ha hb hq⟩
  obtain rfl := hls.unique hp h
  refine ⟨?_, fun l _ => ?_⟩
  · rw [extractBy, List.flatMap_singleton, flatMap_entries hp, ho, List.map_map]
    rfl
  · rw [Text.mem_trim (isBlank_of_mem_quotes l.mark_mem), l.mark_mem_value]

/-- A template is left empty, and the next literal on the line has the same marks. -/
theorem extractBy_single_emptyTemplate :
    let t := Text.ofString "templateUrl: '' , x: 'y'"
    Pattern.templateUrl.isList = false ∧ ∃ l, Pattern.templateUrl.Finds t [l] ∧ l.StartsEmpty ∧
      l.mark ∈ Text.trim l.value ∧ extractBy [.templateUrl] t = [Text.ofString "' , x:"] := by
  intro t
  let l : Quoted := ⟨'\'', "' , x: ", by decide, by decide, by decide, by decide⟩
  have hp : Pattern.templateUrl.isList = false := rfl
  have hreads : Pattern.templateUrl.Reads t l "y'" := ⟨[], " ", rfl, rfl, by decide⟩
  have hcolon : Point.ofChar ':' ∉ Text.ofString "y'" := by decide
  have hrest : ∀ u, u <:+ Text.ofString "y'" → ∀ l r, ¬ Pattern.templateUrl.Reads u l r :=
    fun u hu => Pattern.not_reads_of_match hp (Pattern.match?_eq_none fun h => hcolon (hu.subset h))
  have hfinds : Pattern.templateUrl.Finds t [l] :=
    .next (x := []) (fun u hu hnil => absurd (List.suffix_nil.1 hnil) hu) hreads (.nothing hrest)
  obtain ⟨-, hreturned, -⟩ := extractBy_single hp t
  obtain ⟨hextract, hmark⟩ := hreturned [l] hfinds
  have hempty : l.StartsEmpty := rfl
  exact ⟨hp, l, hfinds, hempty, (hmark l List.mem_cons_self).2 hempty, hextract.trans (by decide)⟩

end Reference

end SourceAtlas
