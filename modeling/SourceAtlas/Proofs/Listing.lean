import SourceAtlas.Proofs.Affixes
import SourceAtlas.Proofs.Indexing.Records
import SourceAtlas.Proofs.Tidy

/-!
# The listing of tracked files

The version control program prints one name per line, and the names are read back from the lines.
A line feed is not the only point that ends a line: a name with another one falls to pieces.

* `Repository.printed`: what is printed for some names;
* `Repository.pieces`: what is read back of one name;
* `Repository.IsKept`: a name without the excluded parts;
* `Repository.lines_printed`, `Repository.listed_printed`: what is read back of all names;
* `Repository.filter_pieces_eq_iff`: the names that are read back as they were printed, or left out;
* **`Repository.trackedFiles_printed`**: the tracked files that are listed, and when they are those
  that were printed.
-/

namespace SourceAtlas

/-- A line that is read of a text to which a line was added: the line falls to pieces at each point
that ends a line. -/
theorem Text.lines_append_pieces {n : Text} (hr : Point.ofChar '\r' ∉ n) (t : Text) :
    Text.lines (n ++ Point.ofChar '\n' :: t) = n.splitOnP Point.endsLine ++ Text.lines t := by
  induction n with
  | nil => rw [List.nil_append, Text.lines_newline, List.splitOnP_nil, List.singleton_append]
  | cons c n ih =>
    rw [List.mem_cons, not_or] at hr
    obtain ⟨w, ws, hw⟩ := List.exists_cons_of_ne_nil (List.splitOnP_ne_nil Point.endsLine n)
    rw [List.cons_append, List.splitOnP_cons_eq_if_modifyHead]
    cases hc : c.endsLine with
    | true => rw [Text.lines_end hc (Ne.symm hr.1), ih hr.2, if_pos rfl, List.cons_append]
    | false =>
      rw [Text.lines_cons hc, ih hr.2, if_neg Bool.false_ne_true, hw]
      rfl

namespace Repository

variable {excluded names : List Text} {n : Text}

/-! ## Names and lines -/

/-- What is printed for some names: each of them, and a line feed behind it. -/
def printed (names : List Text) : Text := names.flatMap fun n => n ++ [Point.ofChar '\n']

/-- What is read back of one name: the parts between the points that end lines. -/
def pieces (n : Text) : List Text := (n.splitOnP Point.endsLine).filter fun l => !l.isEmpty

/-- None of the excluded texts is a part of the name. -/
def IsKept (excluded : List Text) (n : Text) : Prop := ∀ e ∈ excluded, ¬ e <:+: n

instance (excluded : List Text) : DecidablePred (IsKept excluded) := fun n =>
  inferInstanceAs (Decidable (∀ e ∈ excluded, ¬ e <:+: n))

/-- The lines of what is printed. -/
theorem lines_printed (h : ∀ n ∈ names, Point.ofChar '\r' ∉ n) :
    Text.lines (printed names) = names.flatMap fun n => n.splitOnP Point.endsLine := by
  induction names with
  | nil => rfl
  | cons n names ih =>
    obtain ⟨hn, hnames⟩ := List.forall_mem_cons.1 h
    have hcons : printed (n :: names) = n ++ Point.ofChar '\n' :: printed names := by
      rw [printed, List.flatMap_cons, List.append_assoc]
      rfl
    rw [hcons, Text.lines_append_pieces hn, ih hnames, List.flatMap_cons]

/-- **What is listed**: the pieces of all names that are kept. -/
theorem listed_printed (h : ∀ n ∈ names, Point.ofChar '\r' ∉ n) :
    listed excluded (printed names) = names.flatMap fun n => (pieces n).filter (IsKept excluded) := by
  have hkept : ∀ l : Text, (!excluded.any fun e => l.contains e) = decide (IsKept excluded l) := by
    intro l
    rw [Bool.eq_iff_iff, Bool.not_eq_true', ← Bool.not_eq_true, List.any_eq_true,
      decide_eq_true_iff, IsKept]
    simp only [Text.contains_iff, not_exists, not_and]
  rw [listed, lines_printed h, List.filter_flatMap, List.filter_flatMap]
  simp only [hkept, pieces]

/-! ## Names that are read back -/

/-- The pieces are lines. -/
theorem isLine_of_mem_pieces {l : Text} (hr : Point.ofChar '\r' ∉ n) (h : l ∈ pieces n) :
    Text.IsLine l := by
  refine Text.isLine_of_mem_lines (t := n ++ [Point.ofChar '\n']) ?_
  rw [Text.lines_append_pieces hr]
  exact List.mem_append_left _ (List.mem_of_mem_filter h)

/-- A line is its only piece. -/
theorem pieces_of_isLine (h : Text.IsLine n) (hne : n ≠ []) : pieces n = [n] := by
  rw [pieces, List.splitOnP_eq_singleton h, List.filter_cons_of_pos (by simpa using hne),
    List.filter_nil]

/-- **Names that are kept are read back** if they are lines. -/
theorem filter_sublist_flatMap (hne : ∀ n ∈ names, n ≠ [])
    (hline : ∀ n ∈ names, IsKept excluded n → Text.IsLine n) :
    (names.filter (IsKept excluded)).Sublist
      (names.flatMap fun n => (pieces n).filter (IsKept excluded)) := by
  induction names with
  | nil => exact List.Sublist.refl _
  | cons n names ih =>
    obtain ⟨hn, hnames⟩ := List.forall_mem_cons.1 hne
    obtain ⟨hl, hlines⟩ := List.forall_mem_cons.1 hline
    rw [List.flatMap_cons]
    by_cases hk : IsKept excluded n
    · rw [List.filter_cons_of_pos (by simpa using hk), pieces_of_isLine (hl hk) hn,
        List.filter_cons_of_pos (by simpa using hk), List.filter_nil, List.singleton_append]
      exact (ih hnames hlines).cons_cons n
    · rw [List.filter_cons_of_neg (by simpa using hk)]
      exact (ih hnames hlines).trans (List.sublist_append_right _ _)

/-- Nothing else is read back only if other names and their pieces are left out. -/
theorem filter_pieces_eq_nil (hne : ∀ n ∈ names, n ≠ [])
    (hline : ∀ n ∈ names, IsKept excluded n → Text.IsLine n)
    (h : (names.flatMap fun n => (pieces n).filter (IsKept excluded)) =
      names.filter (IsKept excluded)) :
    ∀ n ∈ names, Text.IsLine n ∨ (pieces n).filter (IsKept excluded) = [] := by
  induction names with
  | nil => exact fun n hn => nomatch hn
  | cons n names ih =>
    obtain ⟨hn, hnames⟩ := List.forall_mem_cons.1 hne
    obtain ⟨hl, hlines⟩ := List.forall_mem_cons.1 hline
    have hsub := filter_sublist_flatMap hnames hlines
    rw [List.flatMap_cons] at h
    refine List.forall_mem_cons.2 ?_
    by_cases hline : Text.IsLine n
    · refine ⟨.inl hline, ih hnames hlines ?_⟩
      rw [pieces_of_isLine hline hn, ← List.singleton_append (l := names), List.filter_append] at h
      exact List.append_cancel_left h
    · -- The names behind leave no room for pieces of this one.
      rw [List.filter_cons_of_neg (by simpa using fun hk => hline (hl hk))] at h
      have hnil : (pieces n).filter (IsKept excluded) = [] := by
        rw [← List.length_eq_zero_iff]
        have hlength := congrArg List.length h
        have := hsub.length_le
        rw [List.length_append] at hlength
        omega
      rw [hnil, List.nil_append] at h
      exact ⟨.inr hnil, ih hnames hlines h⟩

/-- **The names that are read back as they were printed**: each is a line, or is left out together
with its pieces. -/
theorem filter_pieces_eq_iff (hnames : ∀ n ∈ names, n ≠ [] ∧ Point.ofChar '\r' ∉ n) :
    (names.flatMap fun n => (pieces n).filter (IsKept excluded)) =
        names.filter (IsKept excluded) ↔
      ∀ n ∈ names, Text.IsLine n ∨ ∀ p ∈ n :: pieces n, ¬ IsKept excluded p := by
  constructor
  · intro h n hn
    have hline : ∀ n ∈ names, IsKept excluded n → Text.IsLine n := by
      intro n hn hk
      have hmem : n ∈ names.filter (IsKept excluded) := List.mem_filter.2 ⟨hn, by simpa using hk⟩
      rw [← h] at hmem
      obtain ⟨m, hm, hpiece⟩ := List.mem_flatMap.1 hmem
      exact isLine_of_mem_pieces (hnames m hm).2 (List.mem_of_mem_filter hpiece)
    refine or_iff_not_imp_left.2 fun hnot => List.forall_mem_cons.2 ⟨mt (hline n hn) hnot, ?_⟩
    have hnil := (filter_pieces_eq_nil (fun n hn => (hnames n hn).1) hline h n hn).resolve_left hnot
    simpa using List.filter_eq_nil_iff.1 hnil
  · intro h
    have hsame : ∀ n ∈ names, (pieces n).filter (IsKept excluded) = [n].filter (IsKept excluded) := by
      intro n hn
      rcases h n hn with hline | hleft
      · rw [pieces_of_isLine hline (hnames n hn).1]
      · obtain ⟨hself, hpieces⟩ := List.forall_mem_cons.1 hleft
        rw [List.filter_eq_nil_iff.2 (by simpa using hpieces),
          List.filter_eq_nil_iff.2 (by simpa using hself)]
    rw [List.flatMap_congr hsame, ← List.filter_flatMap]
    simp

/-- **The tracked files that are listed** when some names are printed: the pieces of the names,
without those that hold an excluded part. They are the names without those that hold an excluded
part exactly if no point within a name ends a line, but for names that are left out together with
all their pieces. -/
theorem trackedFiles_printed (host : Host) (t : FileTree) (excluded names : List Text)
    (root stderr : Text) (hdir : t.isDirectory root = true)
    (hgit : host.git t root = .finished (printed names) stderr 0)
    (hnames : ∀ n ∈ names, n ≠ [] ∧ Point.ofChar '\r' ∉ n) :
    ∃ files, trackedFiles host t excluded root = .ok files ∧
      files = (names.flatMap pieces).filter (IsKept excluded) ∧
      (files = names.filter (IsKept excluded) ↔
        ∀ n ∈ names, (∀ c ∈ n, c.endsLine = false) ∨ ∀ p ∈ n :: pieces n, ¬ IsKept excluded p) := by
  have hlisted : listed excluded (printed names) =
      names.flatMap fun n => (pieces n).filter (IsKept excluded) :=
    listed_printed fun n hn => (hnames n hn).2
  refine ⟨_, trackedFiles_eq_ok.2 ⟨hdir, _, _, hgit, rfl⟩, ?_, ?_⟩
  · rw [hlisted, List.filter_flatMap]
  · rw [hlisted]
    exact filter_pieces_eq_iff hnames

/-- A name with a line separator falls to pieces. -/
theorem trackedFiles_printed_lineSeparator :
    let t : FileTree := ⟨[(["r"], .directory)], "/"⟩
    let names : List Text := ["a.ts", "lib/b\u2028c.ts", "old/d.ts"]
    let host : Host := ⟨"/", fun _ _ => .finished (printed names) [] 0⟩
    t.isDirectory "/r" = true ∧ (∀ n ∈ names, n ≠ [] ∧ Point.ofChar '\r' ∉ n) ∧
      trackedFiles host t ["old"] "/r" =
        .ok ([.ofString "a.ts", .ofString "lib/b", .ofString "c.ts"] : List Text) ∧
      ([.ofString "a.ts", .ofString "lib/b", .ofString "c.ts"] : List Text) ≠
        names.filter (IsKept ["old"]) := by
  intro t names host
  have hdir : t.isDirectory "/r" = true := by decide +kernel
  have hnames : ∀ n ∈ names, n ≠ [] ∧ Point.ofChar '\r' ∉ n := by decide +kernel
  obtain ⟨files, hfiles, hpieces, hsame⟩ :=
    trackedFiles_printed host t ["old"] names "/r" [] hdir rfl hnames
  have hlist : (names.flatMap pieces).filter (IsKept ["old"]) =
      ([.ofString "a.ts", .ofString "lib/b", .ofString "c.ts"] : List Text) := by decide +kernel
  rw [hlist] at hpieces
  subst hpieces
  exact ⟨hdir, hnames, hfiles, fun h => absurd (hsame.1 h) (by decide +kernel)⟩

end Repository

end SourceAtlas
