import SourceAtlas.Proofs.Index.Reread

/-!
# The written form of an index

* `SourceRecord.isWritable_toJson`: a record can always be written;
* `Index.isWritable_iff`: whether an index can be written depends on its summaries;
* `Index.isWritable_reread`: what was read back can be written again;
* **`Index.text_congr`**: the text of an index depends on how its file summaries are written.
-/

namespace SourceAtlas

namespace Json

/-! ## What can be written -/

theorem isWritable_list {vs : List Json} :
    (list vs).isWritable = true ↔ ∀ v ∈ vs, v.isWritable = true := by
  rw [isWritable, areWritable_iff]

theorem isWritable_object {ms : List (Text × Json)} :
    (object ms).isWritable = true ↔ ∀ m ∈ ms, m.2.isWritable = true := by
  rw [isWritable, membersWritable_iff]

theorem isWritable_text (t : Text) : (text t).isWritable = true := by rw [isWritable] <;> simp

theorem isWritable_texts (ts : List Text) : (texts ts).isWritable = true := by
  rw [texts, isWritable_list]
  intro v hv
  obtain ⟨t, -, rfl⟩ := List.mem_map.1 hv
  exact isWritable_text t

theorem isWritable_fields {ms : List (String × Json)} (h : ∀ m ∈ ms, m.2.isWritable = true) :
    (fields ms).isWritable = true := by
  rw [fields, isWritable_object]
  intro m hm
  obtain ⟨k, hk, rfl⟩ := List.mem_map.1 hm
  exact h k hk

theorem isWritable_list_map {α : Type} {write : α → Json} (h : ∀ a, (write a).isWritable = true)
    (as : List α) : (list (as.map write)).isWritable = true := by
  rw [isWritable_list]
  intro v hv
  obtain ⟨a, -, rfl⟩ := List.mem_map.1 hv
  exact h a

/-- What is read back can be written again. -/
theorem isWritable_reread {v : Json} (h : v.isWritable = true) : v.reread.isWritable = true := by
  induction v using induction with
  | null => rwa [reread] <;> simp
  | bool b => rwa [reread] <;> simp
  | int n => rwa [reread] <;> simp
  | float x => rwa [reread] <;> simp
  | text t =>
    rw [reread_text]
    exact isWritable_text _
  | list vs ih =>
    rw [isWritable_list] at h
    rw [reread_list, isWritable_list]
    intro w hw
    obtain ⟨v, hv, rfl⟩ := List.mem_map.1 hw
    exact ih v hv (h v hv)
  | object ms ih =>
    rw [isWritable_object] at h
    rw [reread_object, isWritable_object]
    intro k hk
    obtain ⟨m, hm, rfl⟩ := List.mem_map.1 (mem_of_mem_mergeMembers hk)
    exact ih m hm (h m hm)

/-! ## Members that are written alike -/

/-- An object is written by its members. -/
theorem indentedAt_object_congr {depth : Nat} {ms ns : List (Text × Json)}
    (h : ms.map (indentedMember (depth + 1)) = ns.map (indentedMember (depth + 1))) :
    indentedAt depth (.object ms) = indentedAt depth (.object ns) := by
  have hnil : ms = [] ↔ ns = [] := by
    rw [← List.map_eq_nil_iff (f := indentedMember (depth + 1)), h, List.map_eq_nil_iff]
  rw [indentedAt_object, indentedAt_object, indentedMembers_eq, indentedMembers_eq, h]
  simp only [hnil]

/-- A member that is read back is written alike where keys are written apart. -/
theorem indentedMember_rereadMember {m : Text × Json} (h : Distinct m.2) (depth : Nat) :
    indentedMember depth (rereadMember m) = indentedMember depth m := by
  rw [indentedMember, indentedMember, rereadMember, writeText_joinPairs, indentedAt_reread h]

end Json

open Json (isWritable_object isWritable_text isWritable_texts isWritable_fields isWritable_list_map)

/-! ## Outlines and records

They hold texts alone, and texts can always be written. -/

theorem Parameter.isWritable_toJson (p : Parameter) : p.toJson.isWritable = true :=
  isWritable_fields (by simp [isWritable_text])

theorem DecoratorOutline.isWritable_toJson (d : DecoratorOutline) : d.toJson.isWritable = true :=
  isWritable_fields (by simp [isWritable_text, isWritable_texts])

theorem FunctionOutline.isWritable_toJson (f : FunctionOutline) : f.toJson.isWritable = true :=
  isWritable_fields (by simp [isWritable_text, isWritable_list_map Parameter.isWritable_toJson])

theorem MethodOutline.isWritable_toJson (m : MethodOutline) : m.toJson.isWritable = true :=
  isWritable_fields (by simp [isWritable_text, isWritable_list_map Parameter.isWritable_toJson,
    isWritable_list_map DecoratorOutline.isWritable_toJson])

theorem ClassOutline.isWritable_toJson (c : ClassOutline) : c.toJson.isWritable = true :=
  isWritable_fields (by simp [isWritable_text, isWritable_list_map MethodOutline.isWritable_toJson,
    isWritable_list_map DecoratorOutline.isWritable_toJson])

theorem PropertyOutline.isWritable_toJson (p : PropertyOutline) : p.toJson.isWritable = true :=
  isWritable_fields (by simp [isWritable_text])

theorem InterfaceOutline.isWritable_toJson (i : InterfaceOutline) : i.toJson.isWritable = true :=
  isWritable_fields
    (by simp [isWritable_text, isWritable_list_map PropertyOutline.isWritable_toJson])

theorem SourceRecord.isWritable_toJson (r : SourceRecord) : r.toJson.isWritable = true :=
  isWritable_fields (by simp [isWritable_text, isWritable_texts,
    isWritable_list_map FunctionOutline.isWritable_toJson,
    isWritable_list_map ClassOutline.isWritable_toJson,
    isWritable_list_map InterfaceOutline.isWritable_toJson])

/-! ## Indexes -/

namespace Index

variable {i j : Index}

/-- Records can always be written, so that only summaries count. -/
theorem isWritable_iff : i.toJson.isWritable = true ↔
    (∀ m ∈ i.fileSummaries, m.2.isWritable = true) ∧ ∀ s ∈ i.repoSummary, s.isWritable = true := by
  have hrecords := isWritable_list_map SourceRecord.isWritable_toJson i.records
  rw [← @isWritable_object i.fileSummaries, toJson, isWritable_object]
  cases i.repoSummary <;> simp [isWritable_text, isWritable_texts, hrecords]

theorem isWritable_reread (h : i.toJson.isWritable = true) :
    i.reread.toJson.isWritable = true := by
  rw [isWritable_iff] at h ⊢
  obtain ⟨hf, hs⟩ := h
  refine ⟨fun m hm => ?_, fun s hs' => ?_⟩
  · obtain ⟨k, hk, rfl⟩ := List.mem_map.1 (Json.mem_of_mem_mergeMembers hm)
    exact Json.isWritable_reread (hf k hk)
  · obtain ⟨v, hv, rfl⟩ := Option.map_eq_some_iff.1 hs'
    refine Json.isWritable_reread (hs v ?_)
    revert hv
    unfold presentSummary?
    split
    · exact fun hv => nomatch hv
    · exact id

/-- **The text of an index depends on how its file summaries are written.** -/
theorem text_congr (hr : i.repository = j.repository) (hf : i.files = j.files)
    (hc : i.records = j.records) (hp : i.repoSummary = j.repoSummary)
    (hs : i.fileSummaries.map (Json.indentedMember 2) = j.fileSummaries.map (Json.indentedMember 2)) :
    i.text = j.text := by
  have hm : Json.indentedMember 1 ("fileSummaries", .object i.fileSummaries) =
      Json.indentedMember 1 ("fileSummaries", .object j.fileSummaries) := by
    rw [Json.indentedMember, Json.indentedMember, Json.indentedAt_object_congr hs]
  unfold text Json.indented toJson
  refine Json.indentedAt_object_congr ?_
  simp only [List.map_append, List.map_cons, hm, hr, hf, hc, hp]

end Index

end SourceAtlas
