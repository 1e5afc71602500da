import SourceAtlas.Indexing
import SourceAtlas.Proofs.Path.Normal
import SourceAtlas.Proofs.Prompting

/-!
# What an index holds

The index of a repository lists its tracked files, and has one record for each source file among
them: for every outcome of reading the file and of taking its structure.

* `Indexer.sources`: the paths of the source files;
* `Indexer.recordAt`, `Indexer.record_eq`: the record of a file, which is there if the path is one;
* `Indexer.recordAt_unreadable`, `Indexer.recordAt_none`, `Indexer.recordAt_some`: what it holds;
* `Repository.trackedFiles_eq_ok`: when the tracked files are listed;
* **`Indexer.index_eq_ok`**: when there is an index, and what it holds.
-/

namespace SourceAtlas

theorem Repository.trackedFiles_eq_ok {host : Host} {t : FileTree} {excluded files : List Text}
    {root : Text} : trackedFiles host t excluded root = .ok files ↔ t.isDirectory root = true ∧
      ∃ stdout stderr, host.git t root = .finished stdout stderr 0 ∧
        files = listed excluded stdout := by
  unfold trackedFiles
  cases hd : t.isDirectory root with
  | false => cases t.refusal? root <;> simp
  | true =>
    rw [FileTree.refusal?_of_isDirectory hd]
    cases host.git t root with
    | notRun message => simp
    | timedOut => simp
    | finished stdout stderr code =>
      by_cases hc : code = 0
      · simp [hc, eq_comm]
      · simp [hc]

namespace Indexer

variable {indexer : Indexer} {host : Host} {t : FileTree} {resolver : Resolver}
  {repository root fileName source path : Text} {files : List Text} {i : Index}

/-! ## Records -/

/-- The record of a file whose path is one. -/
def recordAt (indexer : Indexer) (t : FileTree) (resolver : Resolver) (root fileName : Text) :
    SourceRecord :=
  match t.readText fileName with
  | .error _ => .bare root fileName
  | .ok source =>
    match indexer.extractor fileName source with
    | none => { SourceRecord.bare root fileName with sourceCode := source }
    | some e => recordOf t resolver root fileName source e

theorem recordAt_unreadable {fault : ReadFault} (h : t.readText fileName = .error fault) :
    indexer.recordAt t resolver root fileName = .bare root fileName := by
  rw [recordAt, h]

theorem recordAt_none (h : t.readText fileName = .ok source)
    (he : indexer.extractor fileName source = none) : indexer.recordAt t resolver root fileName =
      { SourceRecord.bare root fileName with sourceCode := source } := by
  rw [recordAt, h]
  dsimp only
  rw [he]

theorem recordAt_some {e : Extraction} (h : t.readText fileName = .ok source)
    (he : indexer.extractor fileName source = some e) :
    indexer.recordAt t resolver root fileName = recordOf t resolver root fileName source e := by
  rw [recordAt, h]
  dsimp only
  rw [he]

/-- The ways in which the record of a file comes about. -/
theorem recordAt_cases (indexer : Indexer) (t : FileTree) (resolver : Resolver)
    (root fileName : Text) :
    indexer.recordAt t resolver root fileName = .bare root fileName ∨
      (∃ source, indexer.recordAt t resolver root fileName =
        { SourceRecord.bare root fileName with sourceCode := source }) ∨
      ∃ source e, indexer.recordAt t resolver root fileName =
        recordOf t resolver root fileName source e := by
  cases h : t.readText fileName with
  | error fault => exact .inl (recordAt_unreadable h)
  | ok source =>
    cases he : indexer.extractor fileName source with
    | none => exact .inr (.inl ⟨source, recordAt_none h he⟩)
    | some e => exact .inr (.inr ⟨source, e, recordAt_some h he⟩)

@[simp]
theorem fileName_recordAt : (indexer.recordAt t resolver root fileName).fileName = fileName := by
  rcases recordAt_cases indexer t resolver root fileName with h | ⟨_, h⟩ | ⟨_, _, h⟩ <;>
    rw [h] <;> rfl

@[simp]
theorem repository_recordAt : (indexer.recordAt t resolver root fileName).repository = root := by
  rcases recordAt_cases indexer t resolver root fileName with h | ⟨_, h⟩ | ⟨_, _, h⟩ <;>
    rw [h] <;> rfl

/-- **One file has a record** unless its path is none. -/
theorem record_eq (indexer : Indexer) (t : FileTree) (resolver : Resolver) (root fileName : Text) :
    indexer.record t resolver root fileName = match Path.fault? fileName with
      | some why => .error (.file (.unfit why))
      | none => .ok (indexer.recordAt t resolver root fileName) := by
  have hunfit := fun why => @FileTree.readText_eq_unfit t fileName why
  unfold record
  cases h : t.readText fileName with
  | error fault =>
    rw [recordAt_unreadable h]
    cases hf : Path.fault? fileName with
    | some why =>
      rw [(hunfit why).2 hf] at h
      cases h
      rfl
    | none =>
      split
      · rename_i why hwhy
        rw [(hunfit why).1 (h.trans hwhy)] at hf
        cases hf
      · rfl
      · rename_i hok
        cases hok
  | ok source =>
    cases hf : Path.fault? fileName with
    | some why =>
      rw [(hunfit why).2 hf] at h
      cases h
    | none =>
      dsimp only
      cases he : indexer.extractor fileName source with
      | none => rw [recordAt_none h he]
      | some e => rw [recordAt_some h he]

/-- Files have records if all their paths are paths. -/
theorem mapM_record_eq_ok {records : List SourceRecord} (paths : List Text) :
    paths.mapM (indexer.record t resolver root) = .ok records ↔
      (∀ p ∈ paths, Path.isFit p = true) ∧
        records = paths.map (indexer.recordAt t resolver root) := by
  induction paths generalizing records with
  | nil =>
    refine ⟨fun h => ⟨by simp, (Except.ok.inj h).symm⟩, fun h => ?_⟩
    rw [h.2]
    rfl
  | cons p paths ih =>
    rw [List.mapM_cons, record_eq]
    cases hf : Path.fault? p with
    | some why =>
      have hp : Path.isFit p = false := by
        rw [← Bool.not_eq_true, ← Path.fault?_eq_none, hf]
        simp
      simp [hp, bind, Except.bind]
    | none =>
      simp only [Except.bind_eq_ok, ih, pure, Except.pure, Except.ok.injEq, List.forall_mem_cons,
        Path.fault?_eq_none.1 hf, List.map_cons, true_and]
      constructor
      · rintro ⟨r, rfl, rs, ⟨hzs, rfl⟩, rfl⟩
        exact ⟨hzs, rfl⟩
      · rintro ⟨hzs, rfl⟩
        exact ⟨_, rfl, _, ⟨hzs, rfl⟩, rfl⟩

/-! ## Indexes -/

/-- The paths of the source files among the files of a repository. -/
def sources (indexer : Indexer) (root : Text) (files : List Text) : List Text :=
  (files.filter fun f => f.endsWith indexer.sourceExtension).map (Path.child root)

theorem mem_sources : path ∈ indexer.sources root files ↔
    ∃ f ∈ files, f.endsWith indexer.sourceExtension = true ∧ Path.child root f = path := by
  simp [sources, and_assoc]

/-- The root of a repository is a normal path. -/
theorem isNormal_rootOf (h : rootOf host t repository = .ok root) : Path.IsNormal root := by
  unfold rootOf at h
  split at h
  · cases h
  · split at h
    · cases h
    · cases h
      exact Path.isNormal_absolute t _

/-- **What an index holds**: the tracked files, and a record for each source file among them. -/
theorem index_eq_ok : indexer.index host t repository = .ok i ↔ ∃ root files paths,
    rootOf host t repository = .ok root ∧
      Repository.trackedFiles host t indexer.excluded root = .ok files ∧
      ModulePaths.ofRepository t root = .ok paths ∧
      (∀ p ∈ indexer.sources root files, Path.isFit p = true) ∧
      i = { repository := root
            files
            records := (indexer.sources root files).map
              (indexer.recordAt t (paths.resolver indexer.sourceExtension) root)
            fileSummaries := []
            repoSummary := none } := by
  simp only [index, Except.bind_eq_ok, Except.mapError_eq_ok, mapM_record_eq_ok, pure, Except.pure,
    Except.ok.injEq]
  constructor
  · rintro ⟨root, hroot, files, hfiles, paths, hpaths, records, ⟨hz, rfl⟩, rfl⟩
    exact ⟨root, files, paths, hroot, hfiles, hpaths, hz, rfl⟩
  · rintro ⟨root, files, paths, hroot, hfiles, hpaths, hz, rfl⟩
    exact ⟨root, hroot, files, hfiles, paths, hpaths, _, ⟨hz, rfl⟩, rfl⟩

/-- The files of the records are the source files, in order. -/
theorem map_fileName_recordAt (paths : List Text) :
    (paths.map (indexer.recordAt t resolver root)).map SourceRecord.fileName = paths := by
  rw [List.map_map]
  simp [Function.comp_def]

end Indexer

end SourceAtlas
