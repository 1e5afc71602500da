import SourceAtlas.Proofs.Store

/-!
# Indexes that are loaded as they were saved

An index is loaded as it was saved if no text of it holds half of a surrogate pair. Its numbers,
the order of its members and their nesting do not matter.

* `Text.hasNoPair_of_isScalar`: scalar values are no halves of pairs;
* `Json.isProper`, `Json.settled_of_isProper`: values of scalar texts, which are read back as they
  are;
* `Index.reread_of_settled`, `Index.IsProper`, **`Index.reread_of_isProper`**: the same for indexes;
* **`Artifact.load_of_save`**: what is saved is loaded, and saved again as it was.
-/

namespace SourceAtlas

/-! ## Scalar values -/

theorem Point.isWhole_of_not_isSurrogate {p : Point} (h : p.isSurrogate = false) :
    Text.IsWhole p := by
  rw [isSurrogate, ← Bool.not_eq_true] at h
  simp only [Bool.and_eq_true, decide_eq_true_iff] at h
  constructor
  · rw [← Bool.not_eq_true, Text.isHigh_iff]
    omega
  · rw [← Bool.not_eq_true, Text.isLow_iff]
    omega

theorem Text.hasNoPair_of_isScalar {t : Text} (h : t.isScalar = true) : t.HasNoPair := by
  induction t with
  | nil => exact List.isChain_nil
  | cons p t ih =>
    rw [isScalar, List.all_cons, Bool.and_eq_true, Bool.not_eq_true'] at h
    refine List.isChain_cons.2 ⟨fun q _ => ?_, ih h.2⟩
    rw [isPair, (Point.isWhole_of_not_isSurrogate h.1).1, Bool.false_and]

/-! ## Values of scalar texts -/

namespace Json

mutual

/-- All texts and keys are of scalar values, and no object has a key twice. -/
def isProper : Json → Bool
  | text t => t.isScalar
  | list items => areProper items
  | object members => decide (members.map Prod.fst).Nodup && membersProper members
  | _ => true

def areProper : List Json → Bool
  | [] => true
  | v :: vs => v.isProper && areProper vs

def membersProper : List (Text × Json) → Bool
  | [] => true
  | (k, v) :: ms => k.isScalar && v.isProper && membersProper ms

end

theorem areProper_iff {vs : List Json} : areProper vs = true ↔ ∀ v ∈ vs, v.isProper = true := by
  induction vs with
  | nil => simp [areProper]
  | cons v vs ih => simp [areProper, ih]

theorem membersProper_iff {ms : List (Text × Json)} :
    membersProper ms = true ↔ ∀ m ∈ ms, m.1.isScalar = true ∧ m.2.isProper = true := by
  induction ms with
  | nil => simp [membersProper]
  | cons m ms ih => simp [membersProper, ih]

theorem settled_of_isProper {v : Json} (h : v.isProper = true) : Settled v := by
  induction v using induction with
  | null => exact .null
  | bool b => exact .bool b
  | int n => exact .int n
  | float x => exact .float x
  | text t =>
    rw [isProper] at h
    exact .text t (Text.hasNoPair_of_isScalar h)
  | list vs ih =>
    rw [isProper, areProper_iff] at h
    exact .list vs fun v hv => ih v hv (h v hv)
  | object ms ih =>
    rw [isProper, Bool.and_eq_true, decide_eq_true_iff, membersProper_iff] at h
    obtain ⟨hn, hm⟩ := h
    exact .object ms hn (fun m hk => Text.hasNoPair_of_isScalar (hm m hk).1)
      fun m hk => ih m hk (hm m hk).2

end Json

/-! ## Indexes of scalar texts -/

namespace Index

variable {i : Index}

/-- All texts of the index are of scalar values, and each key is there once. There may be no summary
of the repository, but none that is null. -/
structure IsProper (i : Index) : Prop where
  texts : i.toJson.isProper = true
  repoSummary : i.repoSummary ≠ some .null

/-- **An index without pairs to be joined is read back as it is.** -/
theorem reread_of_settled (h : i.toJson.Settled) (hs : i.repoSummary ≠ some .null) : i.reread = i := by
  have hpresent : presentSummary? i.repoSummary = i.repoSummary := by
    cases hsummary : i.repoSummary with
    | none => rfl
    | some v =>
      cases v with
      | null => exact absurd hsummary hs
      | bool | int | float | text | list | object => rfl
  have hread := ofJson_toJson_reread i
  rw [Json.reread_of_settled h, ofJson_toJson, hpresent] at hread
  exact (Except.ok.inj hread).symm

/-- **An index of scalar texts is read back as it is.** -/
theorem reread_of_isProper (h : i.IsProper) : i.reread = i :=
  reread_of_settled (Json.settled_of_isProper h.texts) h.repoSummary

end Index

/-! ## Saves and loads -/

namespace Artifact

variable {t t' : FileTree} {i : Index} {path : Text}

/-- **What is saved is loaded.** The index that a save leaves at a tidy path is loaded from there as
it was, and saving it once more leaves the same content. The trees are those of `FileTree`, and values
of any depth are read. -/
theorem load_of_save (htidy : Path.tidy path = path) (hi : i.IsProper)
    (hs : save t i path = (.ok (), t')) :
    ∃ j, load t' path = .ok j ∧ j = i ∧ t'.read path = .ok (Utf8.encode i.text) ∧
      ∃ t'', save t' j path = (.ok (), t'') ∧ t''.read path = t'.read path := by
  have hholds := holds_of_save hs
  have hload : load t' path = .ok i := by
    rw [hholds.load htidy, Index.reread_of_isProper hi]
  obtain ⟨t'', hs'⟩ := hholds.exists_save hholds.writable
  refine ⟨i, hload, rfl, hholds.read htidy, t'', hs', ?_⟩
  rw [(holds_of_save hs').read htidy, hholds.read htidy]

/-- An index with nested summaries, which is saved in a directory that is made. -/
theorem load_of_save_nested :
    let i : Index := ⟨"/r", ["b.ts", "a.ts", "b.ts"],
      [⟨"/r", "/r/a.ts", ["./b"], [⟨"f", [⟨"x", "string"⟩], "void"⟩],
        [⟨"C", [⟨"D", ["1"]⟩], [⟨"m", [], "number", []⟩]⟩], [⟨"I", [⟨"p", "p?"⟩]⟩],
        [Point.ofNat 0x1F600, Point.ofNat 10], "\"\\"⟩],
      [("/r/b.ts", .object [("z", .int (-7)), ("a", .list [.null, .object [], .text "\r\n"])]),
        ("/r/a.ts", .bool true)], some (.text [Point.ofNat 0xE9])⟩
    let t : FileTree := ⟨[], "/"⟩
    ∃ t', save t i "/store/ast-r.json" = (.ok (), t') ∧
      load t' "/store/ast-r.json" = .ok i := by
  intro i t
  have hs : save t i "/store/ast-r.json" = (.ok (), (save t i "/store/ast-r.json").2) :=
    Prod.ext (by rfl) rfl
  obtain ⟨j, hload, rfl, -⟩ := load_of_save (by decide +kernel)
    ⟨by decide +kernel, by rintro ⟨⟩⟩ hs
  exact ⟨_, hs, hload⟩

end Artifact

end SourceAtlas
