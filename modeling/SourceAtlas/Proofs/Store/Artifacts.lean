import SourceAtlas.Proofs.Store.Changes

/-!
# Artifacts that persist

The files of a directory that saves have written, and what becomes of them when more is saved.

* `Index.Grows`: an index with at least the summaries of another, and the same otherwise;
* `Artifact.Stands`, `Artifact.Sound`: the files of a directory that have names of artifacts are as
  saves write them;
* `Artifact.At`, `Artifact.exists_at`: the artifacts of a sound directory;
* `Artifact.Persists`: each artifact of a directory is still there, and related to what it was;
* `Artifact.sound_of_save`, **`Artifact.persists_of_save`**: one save keeps the artifacts, if what it
  replaces is related.
-/

namespace SourceAtlas

/-! ## Indexes that grow -/

namespace Index

variable {i j k : Index}

/-- The index has at least the summaries of another, and is the same otherwise. -/
structure Grows (i j : Index) : Prop where
  repository : j.repository = i.repository
  files : j.files = i.files
  records : j.records = i.records
  repoSummary : j.repoSummary = i.repoSummary
  keys : ∀ f ∈ i.fileSummaries.map Prod.fst, f ∈ j.fileSummaries.map Prod.fst

theorem Grows.refl (i : Index) : i.Grows i := ⟨rfl, rfl, rfl, rfl, fun _ => id⟩

theorem Grows.trans (h : i.Grows j) (h' : j.Grows k) : i.Grows k :=
  ⟨h'.repository.trans h.repository, h'.files.trans h.files, h'.records.trans h.records,
    h'.repoSummary.trans h.repoSummary, fun f hf => h'.keys f (h.keys f hf)⟩

theorem mem_keys_reread {f : Text} : f ∈ i.reread.fileSummaries.map Prod.fst ↔
    ∃ g ∈ i.fileSummaries.map Prod.fst, g.joinPairs = f := by
  have h := @Json.mem_keys_insertAll Json f [] (i.fileSummaries.map Json.rereadMember)
  have hkeys : (i.fileSummaries.map Json.rereadMember).map Prod.fst =
      (i.fileSummaries.map Prod.fst).map Text.joinPairs := by
    rw [List.map_map, List.map_map]
    rfl
  rw [hkeys] at h
  refine h.trans ⟨fun hf => List.mem_map.1 (hf.resolve_left List.not_mem_nil), fun hf => ?_⟩
  exact .inr (List.mem_map.2 hf)

/-- What is read back grows as well. -/
theorem Grows.reread (h : i.Grows j) : i.reread.Grows j.reread := by
  refine ⟨?_, ?_, ?_, ?_, fun f hf => ?_⟩
  · exact congrArg Text.joinPairs h.repository
  · exact congrArg (List.map Text.joinPairs) h.files
  · exact congrArg (List.map SourceRecord.reread) h.records
  · exact congrArg (fun s => (presentSummary? s).map Json.reread) h.repoSummary
  · obtain ⟨g, hg, rfl⟩ := mem_keys_reread.1 hf
    exact mem_keys_reread.2 ⟨g, h.keys g hg, rfl⟩

end Index

namespace Artifact

variable {t t' : FileTree} {directory path name : Text} {i j k : Index} {key : List Text}
  {result : Except SaveFault Unit}

/-! ## Artifacts that were written -/

/-- An index stands at a place as a save writes it. -/
structure Stands (t : FileTree) (key : List Text) (i : Index) : Prop where
  writable : i.toJson.isWritable = true
  node : t.node? key = some (.file (Utf8.encode i.text))

/-- The text of an index tells what is read back. -/
theorem reread_of_text (hi : i.toJson.isWritable = true) (hj : j.toJson.isWritable = true)
    (h : i.text = j.text) : i.reread = j.reread := by
  have hread := ofText_text hi []
  rw [h, ofText_text hj] at hread
  exact (Except.ok.inj hread).symm

/-- What stands at a place tells what is read back from there. -/
theorem Stands.reread_eq (hi : Stands t key i) (hj : Stands t key j) : i.reread = j.reread := by
  have hdecode : ∀ i : Index, Utf8.decode (Utf8.encode i.text) = .ok i.text := fun i =>
    Utf8.decodeFrom_encode (Json.isPlain_indentedAt i.toJson 0) 0
  have hnode := hi.node.symm.trans hj.node
  simp only [Option.some.injEq, FileTree.Node.file.injEq] at hnode
  have htext := hdecode i
  rw [hnode, hdecode j] at htext
  exact reread_of_text hi.writable hj.writable (Except.ok.inj htext).symm

/-- What is loaded from a path is what is read back of the index that stands there. -/
theorem Stands.load_eq (h : Stands t (t.place path) j) (hl : load t path = .ok i) :
    i = j.reread := by
  have hread : t.read path = .ok (Utf8.encode j.text) := by
    obtain ⟨content, hr⟩ := exists_read_of_load hl
    have hnode := (FileTree.node?_of_read hr).symm.trans h.node
    simp only [Option.some.injEq, FileTree.Node.file.injEq] at hnode
    rw [hr, hnode]
  exact Except.ok.inj (hl.symm.trans (load_of_read h.writable hread))

/-- The files of a directory that have names of artifacts are as saves write them. -/
structure Sound (directory : Text) (t : FileTree) : Prop where
  named : t.Named
  written : ∀ name n, isNamed name = true → t.node? (t.place directory ++ [name]) = some n →
    n.isDirectory = false → ∃ i, Stands t (t.place directory ++ [name]) i

/-- An artifact of a directory: an index that stands there under the name of an artifact, and can be
reached. -/
structure At (directory : Text) (t : FileTree) (name : Text) (i : Index) : Prop where
  isOpen : t.isOpen directory = true
  named : isNamed name = true
  valid : Path.Valid (Path.child directory name)
  short : Path.isShortName name = true
  stands : Stands t (t.place directory ++ [name]) i

theorem At.isName (h : At directory t name i) (ht : t.Named) : Path.IsName name :=
  (ht.last (by rw [h.stands.node]; rfl)).1

theorem At.read (h : At directory t name i) (ht : t.Named) :
    t.read (Path.child directory name) = .ok (Utf8.encode i.text) :=
  FileTree.read_child (FileTree.isOpen_eq_true.1 h.isOpen).2 (h.isName ht) h.short h.valid
    h.stands.node

/-- What is loaded of an artifact. -/
theorem At.load (h : At directory t name i) (ht : t.Named) :
    Artifact.load t (Path.child directory name) = .ok i.reread :=
  load_of_read h.stands.writable (h.read ht)

theorem At.mem_list (h : At directory t name i) :
    Path.child directory name ∈ list directory t :=
  Artifact.mem_list.2 ⟨h.isOpen, name, h.named, by rw [h.stands.node]; rfl, rfl⟩

theorem isFile_of_read {content : Bytes} (h : t.read path = .ok content) :
    t.isFile path = true :=
  FileTree.isFile_eq_true.2 ⟨_, FileTree.stat_of_read h, rfl⟩

/-- The files that a sound directory lists are its artifacts. -/
theorem exists_at (hs : Sound directory t) (hp : path ∈ list directory t)
    (hf : t.isFile path = true) :
    ∃ name i, At directory t name i ∧ path = Path.child directory name := by
  obtain ⟨hd, name, hn, hnode, rfl⟩ := Artifact.mem_list.1 hp
  obtain ⟨n, hnode⟩ := Option.isSome_iff_exists.1 hnode
  have hname := (hs.named.last (by rw [hnode]; rfl)).1
  obtain ⟨m, hstat, hm⟩ := FileTree.isFile_eq_true.1 hf
  obtain ⟨hvalid, hwalk, hfound, -⟩ := FileTree.stat_eq_ok.1 hstat
  rw [FileTree.place_child hname] at hwalk hfound
  rw [hnode, Option.some.injEq] at hfound
  obtain ⟨i, hi⟩ := hs.written name n hn hnode (hfound ▸ hm)
  exact ⟨name, i, ⟨hd, hn, hvalid, (FileTree.walk_concat.1 hwalk).2, hi⟩, rfl⟩

/-! ## Artifacts that persist -/

/-- Each artifact of a directory is still there, and related to what it was. -/
structure Persists (R : Index → Index → Prop) (directory : Text) (t t' : FileTree) : Prop where
  current : t'.current = t.current
  directories : FileTree.KeepsDirectories t t'
  artifacts : ∀ name i, At directory t name i →
    ∃ j, Stands t' (t.place directory ++ [name]) j ∧ R i j

variable {R S : Index → Index → Prop}

theorem Persists.refl (hR : ∀ i, R i i) (directory : Text) (t : FileTree) :
    Persists R directory t t :=
  ⟨rfl, fun _ _ _ => id, fun _ i hi => ⟨i, hi.stands, hR i⟩⟩

theorem isOpen_of_keeps (hc : t'.current = t.current) (hk : FileTree.KeepsDirectories t t')
    (h : t.isOpen directory = true) : t'.isOpen directory = true := by
  obtain ⟨hv, hd⟩ := FileTree.isOpen_eq_true.1 h
  rw [FileTree.isOpen_eq_true, FileTree.place_of_current hc]
  exact ⟨hv, hk.hasDirectory hd⟩

/-- An artifact where it is afterwards. -/
theorem Persists.at (h : Persists R directory t t') (hi : At directory t name i) :
    ∃ j, At directory t' name j ∧ R i j := by
  obtain ⟨j, hj, hR⟩ := h.artifacts name i hi
  refine ⟨j, ⟨isOpen_of_keeps h.current h.directories hi.isOpen, hi.named, hi.valid, hi.short, ?_⟩, hR⟩
  rwa [FileTree.place_of_current h.current]

theorem Persists.trans {t'' : FileTree} (hR : ∀ i j k, R i j → R j k → R i k)
    (h : Persists R directory t t') (h' : Persists R directory t' t'') :
    Persists R directory t t'' := by
  refine ⟨h'.current.trans h.current, h.directories.trans h'.directories, fun name i hi => ?_⟩
  obtain ⟨j, hj, hij⟩ := h.at hi
  obtain ⟨k, hk, hjk⟩ := h'.artifacts name j hj
  refine ⟨k, ?_, hR i j k hij hjk⟩
  rwa [FileTree.place_of_current h.current] at hk

theorem Persists.mono (h : Persists R directory t t')
    (hRS : ∀ i j, i.toJson.isWritable = true → j.toJson.isWritable = true → R i j → S i j) :
    Persists S directory t t' := by
  refine ⟨h.current, h.directories, fun name i hi => ?_⟩
  obtain ⟨j, hj, hij⟩ := h.artifacts name i hi
  exact ⟨j, hj, hRS i j hi.stands.writable hj.writable hij⟩

/-- A directory that is sound stays so. -/
theorem sound_of_save (hs : Sound directory t) (h : save t i path = (result, t')) :
    Sound directory t' := by
  obtain ⟨-, hcurrent, hnamed⟩ := keeps_of_save h
  refine ⟨hnamed hs.named, fun name n hn hnode hne => ?_⟩
  rw [FileTree.place_of_current hcurrent] at hnode ⊢
  rcases node?_of_save h hn rfl with he | ⟨-, hd⟩ | ⟨-, -, hw, hi⟩
  · rw [he] at hnode
    obtain ⟨k, hk⟩ := hs.written name n hn hnode hne
    exact ⟨k, hk.writable, he.trans hk.node⟩
  · rw [hd, Option.some.injEq] at hnode
    rw [← hnode] at hne
    cases hne
  · exact ⟨i, hw, hi⟩

/-- **One save keeps the artifacts of a directory**, if the index that it replaces is related to the
one that is saved. -/
theorem persists_of_save (hR : ∀ i, R i i) (h : save t i path = (result, t'))
    (hi : ∀ name k, t.place path = t.place directory ++ [name] → At directory t name k →
      result = .ok () → R k i) : Persists R directory t t' := by
  obtain ⟨hkeeps, hcurrent, -⟩ := keeps_of_save h
  refine ⟨hcurrent, hkeeps, fun name k hk => ?_⟩
  rcases node?_of_save h hk.named rfl with he | ⟨hnone, -⟩ | ⟨hplace, hok, hw, hnode⟩
  · exact ⟨k, ⟨hk.stands.writable, he.trans hk.stands.node⟩, hR k⟩
  · rw [hk.stands.node] at hnone
    cases hnone
  · exact ⟨i, ⟨hw, hnode⟩, hi name k hplace.symm hk hok⟩

end Artifact

end SourceAtlas
