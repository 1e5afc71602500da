import SourceAtlas.Store
import SourceAtlas.Proofs.FileTree
import SourceAtlas.Proofs.Path
import SourceAtlas.Proofs.Index.Written
import SourceAtlas.Proofs.Json.Layouts
import SourceAtlas.Proofs.Json.Plain

/-!
# Artifacts that are saved and loaded

* `Artifact.saveBy_eq_ok`, `Artifact.saveBy_eq_error`: the steps of a save, and where it fails;
* `Artifact.Ready`: the directory of an artifact is there, and nothing is in the way of a save;
* `Artifact.exists_save`: an artifact that is ready is saved, whatever the index;
* `Artifact.Holds`: an index stands at a path as a save leaves it;
* **`Artifact.holds_of_save`**: it does so after a save;
* `Artifact.Holds.readText`, **`Artifact.Holds.load`**: the text there is that of the index, and what
  is loaded is the index as it is read back.
-/

namespace SourceAtlas.Artifact

variable {t t' : FileTree} {i : Index} {path temporary : Text}

/-! ## Saves -/

section Systems

variable {σ : Type} {system : FileOperations σ} {s s' : σ} {fault : SaveFault}

/-- The steps of a save, in any file system. -/
theorem saveBy_eq_ok : saveBy system s i path = (.ok (), s') ↔ ∃ temporary s₁ s₂,
    temporary? path = some temporary ∧
      system.makeDirectories s (Path.parent path) = (.ok (), s₁) ∧ i.toJson.isWritable = true ∧
      system.write s₁ temporary (Utf8.encode i.text) = .ok s₂ ∧
      system.move s₂ temporary path = .ok s' := by
  constructor
  · intro h
    unfold saveBy at h
    split at h
    · cases h
    · rename_i temporary htemp
      split at h
      · cases h
      · rename_i s₁ hmake
        split at h
        · cases h
        · rename_i hw
          split at h
          · cases h
          · rename_i s₂ hwrite
            split at h
            · cases h
            · rename_i s₃ hmove
              cases h
              exact ⟨temporary, s₁, s₂, htemp, hmake, by simpa using hw, hwrite, hmove⟩
  · rintro ⟨temporary, s₁, s₂, htemp, hmake, hw, hwrite, hmove⟩
    simp only [saveBy, htemp, hmake, hw, hwrite, hmove, Bool.not_true, Bool.false_eq_true, if_false]

/-- **Where a save fails**: before the temporary file is written, or before it is moved. The fault is
reported, but for a path without a last component. -/
theorem saveBy_eq_error (h : saveBy system s i path = (.error fault, s')) :
    (temporary? path = none ∧ s' = s) ∨ ∃ temporary message,
      temporary? path = some temporary ∧ fault = .refused message ∧
        (s' = (system.makeDirectories s (Path.parent path)).2 ∨
          ∃ s₁, system.makeDirectories s (Path.parent path) = (.ok (), s₁) ∧
            system.write s₁ temporary (Utf8.encode i.text) = .ok s') := by
  unfold saveBy at h
  split at h
  · rename_i hnone
    cases h
    exact .inl ⟨hnone, rfl⟩
  · rename_i temporary htemp
    refine .inr ⟨temporary, ?_⟩
    split at h
    · rename_i hmake
      cases h
      exact ⟨_, htemp, rfl, .inl (by rw [hmake])⟩
    · rename_i s₁ hmake
      split at h
      · cases h
        exact ⟨_, htemp, rfl, .inl (by rw [hmake])⟩
      · split at h
        · cases h
          exact ⟨_, htemp, rfl, .inl (by rw [hmake])⟩
        · rename_i s₂ hwrite
          split at h
          · cases h
            exact ⟨_, htemp, rfl, .inr ⟨s₁, hmake, hwrite⟩⟩
          · cases h

end Systems

/-- The steps of a save. -/
theorem save_eq_ok : save t i path = (.ok (), t') ↔ ∃ temporary t₁ t₂,
    temporary? path = some temporary ∧ t.makeDirectories (Path.parent path) = (.ok (), t₁) ∧
      i.toJson.isWritable = true ∧ t₁.write temporary (Utf8.encode i.text) = .ok t₂ ∧
      t₂.move temporary path = .ok t' :=
  saveBy_eq_ok

/-- Nothing is in the way of a save under a temporary name: the directory of the artifact is there,
the temporary file can be written, and no directory stands at the path. -/
structure Ready (t : FileTree) (path temporary : Text) : Prop where
  name : temporary? path = some temporary
  above : t.isDirectory (Path.parent path) = true
  canWrite : t.CanWrite temporary
  valid : Path.Valid path
  walk : FileTree.walk t [] (t.place path) = .ok ()
  free : t.LacksDirectory (t.place path)

/-- **An artifact that is ready is saved**, whatever the index. -/
theorem exists_save (h : Ready t path temporary) (hw : i.toJson.isWritable = true) :
    ∃ t', save t i path = (.ok (), t') := by
  have hmake := FileTree.makeDirectories_of_isDirectory h.above
  have hwrite := FileTree.write_eq_ok.2 ⟨h.canWrite, Eq.refl (t.put (t.place temporary)
    (.file (Utf8.encode i.text)))⟩
  have hkeeps := FileTree.KeepsDirectories.write hwrite
  have hfile : (t.put (t.place temporary) (.file (Utf8.encode i.text))).node?
      (t.place temporary) = some (.file (Utf8.encode i.text)) := by
    rw [FileTree.node?_put h.canWrite.place_ne_nil, if_pos rfl]
  have hfree : (t.put (t.place temporary) (.file (Utf8.encode i.text))).LacksDirectory
      (t.place path) := by
    intro n hn
    rw [FileTree.node?_put h.free.ne_nil] at hn
    split at hn
    · cases hn
      rfl
    · exact h.free n hn
  have hmove := (FileTree.move_eq_ok hfile).2 ⟨⟨⟨h.canWrite.valid, h.valid⟩,
    hkeeps.walk h.canWrite.walk, hfile, hkeeps.walk h.walk, hfree⟩, rfl⟩
  exact ⟨_, save_eq_ok.2 ⟨temporary, t, _, h.name, hmake, hw, hwrite, hmove⟩⟩

/-- An index stands at a path as a save leaves it, and nothing is in the way of another save. -/
structure Holds (t : FileTree) (path : Text) (i : Index) : Prop where
  ready : ∃ temporary, Ready t path temporary
  writable : i.toJson.isWritable = true
  node : t.node? (t.place path) = some (.file (Utf8.encode i.text))

/-- **What a save leaves.** -/
theorem holds_of_save (h : save t i path = (.ok (), t')) : Holds t' path i := by
  obtain ⟨temporary, t₁, t₂, hname, hmake, hw, hwrite, hmove⟩ := save_eq_ok.1 h
  have habove := FileTree.isDirectory_of_makeDirectories hmake
  have hkeeps₁ := FileTree.KeepsDirectories.write hwrite
  obtain ⟨hcan, ht₂⟩ := FileTree.write_eq_ok.1 hwrite
  have hplace : t₂.place temporary = t₁.place temporary := by rw [ht₂, FileTree.place_put]
  have hfile : t₂.node? (t₂.place temporary) = some (.file (Utf8.encode i.text)) := by
    rw [hplace, ht₂, FileTree.node?_put hcan.place_ne_nil, if_pos rfl]
  obtain ⟨hcanMove, ht'⟩ := (FileTree.move_eq_ok hfile).1 hmove
  have hkeeps₂ : FileTree.KeepsDirectories t₂ t' := ht' ▸ FileTree.KeepsDirectories.move hcanMove
  have hkeeps := hkeeps₁.trans hkeeps₂
  have hcurrent : t'.current = t₁.current := by
    rw [ht', ht₂]
    rfl
  have hsame : ∀ p, t'.place p = t₁.place p := by
    intro p
    rw [ht', FileTree.place_put, FileTree.place_remove, ht₂, FileTree.place_put]
  have hroot : t₂.place path ≠ [] := hcanMove.place_ne_nil
  have hnode : t'.node? (t'.place path) = some (.file (Utf8.encode i.text)) := by
    rw [ht', FileTree.place_put, FileTree.place_remove, FileTree.node?_put hroot, if_pos rfl]
  have hfree : ∀ n, t'.node? (t'.place temporary) = some n → ∃ content, n = .file content := by
    intro n hn
    rw [hsame, ht', FileTree.node?_put hcan.place_ne_nil] at hn
    split at hn
    · cases hn
      exact ⟨_, rfl⟩
    · rw [FileTree.node?_remove hcan.place_ne_nil, hplace, if_pos rfl] at hn
      cases hn
  refine ⟨⟨temporary, hname, hkeeps.isDirectory hcurrent habove, ?_, hcanMove.valid.2, ?_, ?_⟩, hw,
    hnode⟩
  · refine ⟨hcan.valid, hcan.noSlash, ?_, hfree⟩
    rw [hsame]
    exact hkeeps.walk hcan.walk
  · have hwalk := hkeeps₂.walk hcanMove.walk
    rwa [ht₂, FileTree.place_put, ← hsame] at hwalk
  · intro n hn
    rw [hnode] at hn
    cases hn
    rfl

/-! ## Loads -/

/-- A path whose last component can be replaced has one. -/
theorem fileName_ne_nil (h : temporary? path = some temporary) : Path.fileName path ≠ [] := by
  intro he
  rw [temporary?, Path.withFileName, he] at h
  cases h

/-- The content of an artifact. -/
theorem Holds.read (h : Holds t path i) (ht : Path.tidy path = path) :
    t.read path = .ok (Utf8.encode i.text) := by
  obtain ⟨temporary, hr⟩ := h.ready
  have hslash := Path.noSlash_of_tidy ht (fileName_ne_nil hr.name)
  exact FileTree.read_of_node hr.valid hslash hr.walk h.node

/-- The text of what holds an index. -/
theorem readText_of_read (h : t.read path = .ok (Utf8.encode i.text)) :
    t.readText path = .ok i.text := by
  have hplain : Text.IsPlain i.text := Json.isPlain_indentedAt i.toJson 0
  have hdecode : Utf8.decode (Utf8.encode i.text) = .ok i.text :=
    Utf8.decodeFrom_encode hplain 0
  rw [FileTree.readText_of_read h hdecode, Text.normalizeNewlines_of_isPlain hplain]

/-- The text of an artifact. -/
theorem Holds.readText (h : Holds t path i) (ht : Path.tidy path = path) :
    t.readText path = .ok i.text :=
  readText_of_read (h.read ht)

/-- What is loaded was read. -/
theorem exists_read_of_load (h : load t path = .ok i) : ∃ content, t.read path = .ok content := by
  unfold load FileTree.readText at h
  cases hr : t.read path with
  | error fault =>
    rw [hr] at h
    cases h
  | ok content => exact ⟨content, rfl⟩

/-- What a text holds that an index has as its written form. -/
theorem ofText_text (hw : i.toJson.isWritable = true) (path : Text) :
    ofText path i.text = .ok i.reread := by
  have hread : Json.read i.text = .ok i.toJson.reread := Json.read_indented hw
  obtain ⟨ms, hms⟩ : ∃ ms, i.toJson.reread = .object ms := ⟨_, Json.reread_object _⟩
  have hindex := Index.ofJson_toJson_reread i
  rw [hms] at hread hindex
  rw [ofText, hread]
  dsimp only
  rw [hindex]
  rfl

/-- What is loaded where a written index is read. -/
theorem load_of_read (hw : i.toJson.isWritable = true)
    (h : t.read path = .ok (Utf8.encode i.text)) : load t path = .ok i.reread := by
  rw [Artifact.load, readText_of_read h]
  exact ofText_text hw path

/-- **What is loaded** is the index as it is read back. -/
theorem Holds.load (h : Holds t path i) (ht : Path.tidy path = path) :
    load t path = .ok i.reread :=
  load_of_read h.writable (h.read ht)

/-- A path at which an index stands takes every index that can be written. -/
theorem Holds.exists_save {j : Index} (h : Holds t path i) (hw : j.toJson.isWritable = true) :
    ∃ t', save t j path = (.ok (), t') := by
  obtain ⟨temporary, hr⟩ := h.ready
  exact Artifact.exists_save hr hw

end SourceAtlas.Artifact
