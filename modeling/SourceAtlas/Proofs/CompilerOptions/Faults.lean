import SourceAtlas.Proofs.CompilerOptions

/-!
# Faults of compiler options

Options that are missing or cannot be read leave the repository with its root and no aliases. Options
that can be read may still be such that nothing can be made of them, and then the repository has no
index.

* `CompilerOptions.Stops`: what stops the reading of files that extend each other;
* `CompilerOptions.read_eq_error_iff`: nothing else does;
* `ModulePaths.Breaks`, `ModulePaths.Unusable`: why options that were asked for cannot be used;
* **`ModulePaths.ofRepository_breakdowns`**: exactly which options break the paths of modules, and
  with them the index of the repository.
-/

namespace SourceAtlas

namespace CompilerOptions

variable {t : FileTree} {count : Nat} {path directory extended : Text} {o : CompilerOptions}
  {fault : OptionsFault}

/-! ## Files that stop the reading -/

theorem parentFile_eq_error_iff : parentFile directory extended = .error fault ↔
    Path.fileName (Path.resolveFrom directory extended) = [] ∧
      fault = .noFileName (Path.resolveFrom directory extended) := by
  unfold parentFile
  rw [show Path.tidy (Path.resolveFrom directory extended) = Path.resolveFrom directory extended from
    Path.tidy_normalize _]
  generalize Path.resolveFrom directory extended = p
  dsimp only
  by_cases hs : Path.suffix p = Text.ofString ".json"
  · have hname : Path.fileName p ≠ [] := by
      intro hnil
      rw [Path.suffix, hnil] at hs
      exact absurd hs (by decide)
    rw [if_pos hs]
    simp [hname]
  · rw [if_neg hs, Path.withFileName]
    by_cases hname : Path.fileName p = []
    · simp [hname, eq_comm]
    · simp [hname]

/-- What stops the reading of a file and of those that it extends one after another, at most `count`
in all: a text that is no path, a whole number with more digits than are read, or a root in the place
of a file to extend. -/
inductive Stops (t : FileTree) : (count : Nat) → (path : Text) → OptionsFault → Prop where
  | unfit {count : Nat} {path : Text} {why : PathFault} : Path.fault? path = some why →
      Stops t (count + 1) path (.file (.unfit why))
  | tooManyDigits {count n : Nat} {path text : Text} : t.readText path = .ok text →
      Json.read (stripComments text) = .error (.tooManyDigits n) →
      Stops t (count + 1) path (.tooManyDigits n)
  /-- The name of the file to extend matters only where it would be asked for. -/
  | noFileName {count : Nat} {path extended : Text} :
      (document? t path).bind (Json.get? "extends") = some (.text extended) →
      isRelative extended = true →
      Path.fileName (Path.resolveFrom (Path.parent path) extended) = [] →
      Stops t (count + 2) path (.noFileName (Path.resolveFrom (Path.parent path) extended))
  | later {count : Nat} {path next : Text} {fault : OptionsFault} : extended? t path = some next →
      Stops t count next fault → Stops t (count + 1) path fault

/-- A file without an object stops the reading by its path or by a number. -/
theorem stops_of_none (hd : document? t path = none) : Stops t (count + 1) path fault ↔
    (∃ why, fault = .file (.unfit why) ∧ Path.fault? path = some why) ∨
      ∃ text n, fault = .tooManyDigits n ∧ t.readText path = .ok text ∧
        Json.read (stripComments text) = .error (.tooManyDigits n) := by
  constructor
  · intro h
    cases h with
    | unfit hf => exact .inl ⟨_, rfl, hf⟩
    | tooManyDigits ht hj => exact .inr ⟨_, _, rfl, ht, hj⟩
    | noFileName hx =>
      rw [hd] at hx
      cases hx
    | later hx =>
      rw [extended?, hd] at hx
      cases hx
  · rintro (⟨why, rfl, hf⟩ | ⟨text, n, rfl, ht, hj⟩)
    · exact .unfit hf
    · exact .tooManyDigits ht hj

theorem read_eq_error_iff_of_none (hd : document? t path = none) :
    read t (count + 1) path = .error fault ↔ Stops t (count + 1) path fault := by
  rw [stops_of_none hd]
  simp only [← @FileTree.readText_eq_unfit t path]
  cases ht : t.readText path with
  | error e =>
    rw [read_of_error ht]
    cases e with
    | decoding fault => simp [ofFault]
    | file fault => cases fault <;> simp [ofFault, eq_comm]
  | ok text =>
    unfold document? at hd
    rw [ht] at hd
    dsimp only at hd
    rw [read, ht]
    dsimp only
    cases hj : Json.read (stripComments text) with
    | error e => cases e <;> simp [hj, eq_comm]
    | ok v =>
      rw [hj] at hd
      cases v with
      | object ms => cases hd
      | null | bool | int | float | text | list => simp [hj]

/-- What stops the inheritance of a file with an object. -/
theorem inherited_eq_error_iff {document : Json} (hd : document? t path = some document)
    (ih : ∀ next, read t count next = .error fault ↔ Stops t count next fault) :
    inherited t count path document = .error fault ↔ Stops t (count + 1) path fault := by
  obtain ⟨text, ms, ht, hj, rfl⟩ : ∃ text ms, t.readText path = .ok text ∧
      Json.read (stripComments text) = .ok (.object ms) ∧ document = .object ms := by
    unfold document? at hd
    split at hd
    · split at hd
      · cases hd
        exact ⟨_, _, ‹_›, ‹_›, rfl⟩
      · cases hd
    · cases hd
  -- A file with a text has a path, and its numbers are not too long.
  have hstops : Stops t (count + 1) path fault ↔
      (∃ k extended, count = k + 1 ∧ (Json.object ms).get? "extends" = some (.text extended) ∧
        isRelative extended = true ∧
        parentFile (Path.parent path) extended = .error fault) ∨
      ∃ next, extended? t path = some next ∧ Stops t count next fault := by
    constructor
    · intro h
      cases h with
      | unfit hf => cases (FileTree.readText_eq_unfit.2 hf).symm.trans ht
      | tooManyDigits ht' hj' =>
        cases ht.symm.trans ht'
        cases hj.symm.trans hj'
      | noFileName hx hr hn =>
        rw [hd] at hx
        exact .inl ⟨_, _, rfl, hx, hr, parentFile_eq_error_iff.2 ⟨hn, rfl⟩⟩
      | later hx hs => exact .inr ⟨_, hx, hs⟩
    · rintro (⟨k, extended, rfl, hx, hr, hp⟩ | ⟨next, hx, hs⟩)
      · obtain ⟨hn, rfl⟩ := parentFile_eq_error_iff.1 hp
        exact .noFileName (by rw [hd]; exact hx) hr hn
      · exact .later hx hs
  rw [hstops, extended?, hd, Option.bind_some, inherited]
  cases hx : (Json.object ms).get? "extends" with
  | none => simp
  | some v =>
    cases v with
    | text extended =>
      by_cases hr : isRelative extended = true
      · cases count with
        | zero =>
          have hnever (next : Text) : ¬Stops t 0 next fault := by
            rintro ⟨⟩
          simp [hr, hnever]
        | succ k =>
          simp only [hr, ne_eq, Nat.add_eq_zero_iff, one_ne_zero, and_false, not_false_eq_true,
            and_self, if_true]
          cases hp : parentFile (Path.parent path) extended with
          | error e =>
            simp [bind, Except.bind, Except.toOption, hr, hp]
          | ok next => simp [bind, Except.bind, Except.toOption, hr, hp, ih next]
      · simp [hr]
    | null | bool | int | float | list | object => simp

/-- **What stops the reading.** -/
theorem read_eq_error_iff : read t count path = .error fault ↔ Stops t count path fault := by
  induction count generalizing path with
  | zero =>
    constructor
    · intro h
      cases h
    · rintro ⟨⟩
  | succ count ih =>
    cases hd : document? t path with
    | none => exact read_eq_error_iff_of_none hd
    | some document =>
      rw [← inherited_eq_error_iff hd fun next => ih, read_of_document hd]
      cases inherited t count path document <;> simp [Except.map]

theorem map_snd_nearest?_succ (t : FileTree) (count : Nat) (path key : Text) :
    (nearest? t (count + 1) path key).map Prod.snd = (declared? t key path).or
      (((extended? t path).bind fun next => nearest? t count next key).map Prod.snd) := by
  rw [nearest?_succ]
  cases declared? t key path <;> rfl

/-- The values of options that were read are the nearest ones. -/
theorem values_of_read (h : read t count path = .ok o) :
    o.baseUrl = (nearest? t count path "baseUrl").map Prod.snd ∧
      o.paths = (nearest? t count path "paths").map Prod.snd := by
  induction count generalizing path o with
  | zero =>
    cases h
    exact ⟨rfl, rfl⟩
  | succ count ih =>
    obtain ⟨below, hbelow, rfl⟩ := exists_inherited h
    rw [map_snd_nearest?_succ, map_snd_nearest?_succ]
    cases hx : extended? t path with
    | none =>
      rw [hx] at hbelow
      cases hbelow
      exact ⟨rfl, rfl⟩
    | some next =>
      rw [hx] at hbelow
      obtain ⟨hb, hp⟩ := ih hbelow
      rw [Option.bind_some, Option.bind_some, ← hb, ← hp]
      exact ⟨rfl, rfl⟩

end CompilerOptions

/-! ## Options that cannot be used -/

namespace ModulePaths

open CompilerOptions

variable {t : FileTree} {root : Text} {fault : OptionsFault}

/-- The `baseUrl` that counts is neither a text nor null, false, zero or empty. -/
def BaseMisfits (t : FileTree) (root : Text) : Prop :=
  ∃ f v, nearest? t maxFiles (optionsFile root) "baseUrl" = some (f, v) ∧ v.isTruthy = true ∧
    ∀ url, v ≠ .text url

/-- The `paths` that count are neither an object nor null, false, zero or empty. -/
def PathsMisfit (t : FileTree) (root : Text) : Prop :=
  ∃ f v, nearest? t maxFiles (optionsFile root) "paths" = some (f, v) ∧ v.isTruthy = true ∧
    ∀ ms, v ≠ .object ms

/-- Why the options of a repository cannot be used: the reading stops, or else the base or the
aliases that count are of a wrong kind. The first reason of these counts. -/
def Breaks (t : FileTree) (root : Text) : OptionsFault → Prop
  | .baseNotText => (∀ stop, ¬Stops t maxFiles (optionsFile root) stop) ∧ BaseMisfits t root
  | .pathsNotObject => (∀ stop, ¬Stops t maxFiles (optionsFile root) stop) ∧
      ¬BaseMisfits t root ∧ PathsMisfit t root
  | fault => Stops t maxFiles (optionsFile root) fault

/-- Why the options of a repository cannot be had: it cannot be told whether the file in which they
start is there, or it is there and they cannot be used. -/
def Unusable (t : FileTree) (root : Text) (fault : OptionsFault) : Prop :=
  (∃ why, t.refusal? (optionsFile root) = some why ∧ .file why = fault) ∨
    t.isFile (optionsFile root) = true ∧ Breaks t root fault

theorem baseOf_eq_error_iff {o : CompilerOptions} : baseOf root o = .error fault ↔
    fault = .baseNotText ∧ ∃ v, o.baseUrl = some v ∧ v.isTruthy = true ∧ ∀ url, v ≠ .text url := by
  unfold baseOf
  cases o.baseUrl with
  | none => simp
  | some v =>
    cases v with
    | text url => cases url <;> simp
    | null | bool | int | float | list | object =>
      dsimp only
      split <;> rename_i h <;> simp [h, @eq_comm _ OptionsFault.baseNotText]

theorem aliasesOf_eq_error_iff {v : Json} : aliasesOf v = .error fault ↔
    fault = .pathsNotObject ∧ v.isTruthy = true ∧ ∀ ms, v ≠ .object ms := by
  unfold aliasesOf
  cases v with
  | object ms => simp
  | null | bool | int | float | text | list =>
    dsimp only
    split <;> rename_i h <;> simp [h, @eq_comm _ OptionsFault.pathsNotObject]

/-- Values of a wrong kind are found once the files are read. -/
theorem not_stops_misfit {count : Nat} {path : Text} :
    ¬Stops t count path .baseNotText ∧ ¬Stops t count path .pathsNotObject := by
  induction count generalizing path with
  | zero => exact ⟨(by rintro ⟨⟩), by rintro ⟨⟩⟩
  | succ count ih =>
    constructor
    · intro h
      cases h with
      | later hx hs => exact ih.1 hs
    · intro h
      cases h with
      | later hx hs => exact ih.2 hs

/-- Options that are read to the end break the paths of modules by their values. -/
theorem breaks_of_read {o : CompilerOptions}
    (h : CompilerOptions.read t maxFiles (optionsFile root) = .ok o) :
    (do
      let base ← baseOf root o
      let aliases ← aliasesOf (o.paths.getD .null)
      return ⟨base, aliases⟩ : Except OptionsFault ModulePaths) = .error fault ↔
        Breaks t root fault := by
  obtain ⟨hbase, hpaths⟩ := values_of_read h
  have hnostop (stop : OptionsFault) : ¬Stops t maxFiles (optionsFile root) stop := by
    rw [← read_eq_error_iff, h]
    rintro ⟨⟩
  have hmisfits : BaseMisfits t root ↔ baseOf root o = .error .baseNotText := by
    rw [baseOf_eq_error_iff, hbase, BaseMisfits, exists_comm]
    simp
  have hmisfit : PathsMisfit t root ↔ aliasesOf (o.paths.getD .null) = .error .pathsNotObject := by
    rw [aliasesOf_eq_error_iff, hpaths, PathsMisfit]
    cases nearest? t maxFiles (optionsFile root) "paths" with
    | none => simp [Json.isTruthy]
    | some d => simp [Prod.ext_iff]
  cases hb : baseOf root o with
  | error e =>
    obtain ⟨rfl, -⟩ := baseOf_eq_error_iff.1 hb
    cases fault <;> simp [Breaks, hnostop, hmisfits, hb, bind, Except.bind]
  | ok base =>
    cases ha : aliasesOf (o.paths.getD .null) with
    | error e =>
      obtain ⟨rfl, -⟩ := aliasesOf_eq_error_iff.1 ha
      cases fault <;> simp [Breaks, hnostop, hmisfits, hmisfit, hb, ha, bind, Except.bind]
    | ok aliases =>
      cases fault <;>
        simp [Breaks, hnostop, hmisfits, hmisfit, hb, ha, bind, Except.bind, pure, Except.pure]

theorem breaks_of_stops {stop : OptionsFault}
    (h : CompilerOptions.read t maxFiles (optionsFile root) = .error stop) :
    stop = fault ↔ Breaks t root fault := by
  have hstops (other : OptionsFault) : Stops t maxFiles (optionsFile root) other ↔ stop = other := by
    rw [← read_eq_error_iff, h, Except.error.injEq]
  have hstop : ¬∀ other, ¬stop = other := fun hnone => hnone stop rfl
  have hnot : ¬ Stops t maxFiles (optionsFile root) .baseNotText ∧
      ¬ Stops t maxFiles (optionsFile root) .pathsNotObject := not_stops_misfit
  rw [hstops, hstops] at hnot
  cases fault <;> simp [Breaks, hstops, hnot.1, hnot.2]

theorem ofRepository_of_not_isFile (hnone : t.refusal? (optionsFile root) = none)
    (h : t.isFile (optionsFile root) = false) : ofRepository t root = .ok ⟨root, []⟩ := by
  rw [ofRepository_of_told hnone, h]
  rfl

/-- **Which options break the paths of modules.** -/
theorem ofRepository_eq_error_iff :
    ofRepository t root = .error fault ↔ Unusable t root fault := by
  unfold Unusable
  cases hnone : t.refusal? (optionsFile root) with
  | some why =>
    have hfile : t.isFile (optionsFile root) = false := by
      rw [← Bool.not_eq_true]
      intro hfile
      rw [FileTree.refusal?_of_isFile hfile] at hnone
      cases hnone
    unfold ofRepository
    dsimp only
    rw [← optionsFile, hnone, hfile]
    simp
  | none =>
    cases hf : t.isFile (optionsFile root) with
    | false => simp [ofRepository_of_not_isFile hnone hf]
    | true =>
      rw [ofRepository_of_told hnone, if_pos hf]
      cases hr : CompilerOptions.read t maxFiles (optionsFile root) with
      | error stop => simpa [bind, Except.bind] using breaks_of_stops hr
      | ok o => exact (breaks_of_read hr).trans (by simp)

/-- Without options a repository has its root and no aliases. -/
theorem ofRepository_of_none (hnone : t.refusal? (optionsFile root) = none)
    (hd : document? t (optionsFile root) = none)
    (hn : ∀ n, ¬Breaks t root (.tooManyDigits n)) : ofRepository t root = .ok ⟨root, []⟩ := by
  cases hf : t.isFile (optionsFile root) with
  | false => exact ofRepository_of_not_isFile hnone hf
  | true =>
    rw [ofRepository_of_told hnone, if_pos hf]
    cases hr : CompilerOptions.read t maxFiles (optionsFile root) with
    | error stop =>
      have hstops := read_eq_error_iff.1 hr
      rcases (stops_of_none hd).1 hstops with ⟨why, rfl, hw⟩ | ⟨text, n, rfl, -⟩
      · rw [FileTree.isFile_of_unfit (FileTree.readText_eq_unfit.2 hw)] at hf
        cases hf
      · exact absurd hstops (hn n)
    | ok o =>
      rw [eq_empty_of_read hd hr]
      rfl

end ModulePaths

/-! ## Indexes -/

namespace Indexer

variable {indexer : Indexer} {host : Host} {t : FileTree} {repository root : Text}
  {fault : IndexingFault}

/-- Records fail for want of a proper path alone, the first that is none. -/
theorem mapM_record_eq_error {resolver : Resolver} {paths : List Text} :
    paths.mapM (indexer.record t resolver root) = .error fault ↔
      ∃ why, paths.findSome? Path.fault? = some why ∧ .file (.unfit why) = fault := by
  induction paths with
  | nil => simp [pure, Except.pure]
  | cons p paths ih =>
    rw [List.mapM_cons, record_eq, List.findSome?_cons]
    cases hf : Path.fault? p with
    | some why => simp [bind, Except.bind]
    | none => simp [Except.bind_eq_error, ih, pure, Except.pure]

/-- **Why a repository has no index**: its files cannot be listed, its options break the paths of
modules, or the path of a source file is none. -/
theorem index_eq_error_iff (hroot : rootOf host t repository = .ok root) :
    indexer.index host t repository = .error fault ↔
      (∃ why, Repository.trackedFiles host t indexer.excluded root = .error why ∧
        .repository why = fault) ∨
      ∃ files, Repository.trackedFiles host t indexer.excluded root = .ok files ∧
        ((∃ why, ModulePaths.ofRepository t root = .error why ∧ .options why = fault) ∨
          ∃ paths, ModulePaths.ofRepository t root = .ok paths ∧
            ∃ why, (indexer.sources root files).findSome? Path.fault? = some why ∧
              .file (.unfit why) = fault) := by
  have hdone (i : Index) : ¬(pure i : Except IndexingFault Index) = .error fault := by
    rintro ⟨⟩
  simp only [index, hroot, Except.bind_eq_error, Except.mapError_eq_error, Except.mapError_eq_ok,
    Except.ok.injEq, mapM_record_eq_error, reduceCtorEq, false_or, exists_eq_left', hdone, and_false,
    exists_false, or_false]
  rfl

end Indexer

namespace ModulePaths

open CompilerOptions

/-- **Which options break the paths of modules**, and with them the index. For every tree and every
root, the options that a repository starts from break exactly where it cannot be told whether
`tsconfig.json` is there, or else where it is there and reading it and what it extends stops, or the
values that count are of a wrong kind. Where `tsconfig.json` is missing, unreadable or no object, and
holds no number of too many digits, the repository has its root and no aliases. Once the root is known
and its files are listed, the index fails exactly where the options break, or else where the path of
a source file is none. The trees are those of `FileTree`, and documents of any depth are read. -/
theorem ofRepository_breakdowns (t : FileTree) (root : Text) :
    (∀ fault, ofRepository t root = .error fault ↔ Unusable t root fault) ∧
    (t.refusal? (optionsFile root) = none → document? t (optionsFile root) = none →
      (∀ n, ¬Breaks t root (.tooManyDigits n)) → ofRepository t root = .ok ⟨root, []⟩) ∧
    ∀ (indexer : Indexer) (host : Host) (repository : Text) (files : List Text)
      (fault : IndexingFault), Indexer.rootOf host t repository = .ok root →
      Repository.trackedFiles host t indexer.excluded root = .ok files →
      (indexer.index host t repository = .error fault ↔
        (∃ why, Unusable t root why ∧ .options why = fault) ∨
        (∀ why, ¬Unusable t root why) ∧
          ∃ why, (indexer.sources root files).findSome? Path.fault? = some why ∧
            .file (.unfit why) = fault) := by
  refine ⟨fun fault => ofRepository_eq_error_iff, ofRepository_of_none,
    fun indexer host repository files fault hroot hfiles => ?_⟩
  have hok : (∃ paths, ofRepository t root = .ok paths) ↔ ∀ why, ¬Unusable t root why := by
    simp only [← ofRepository_eq_error_iff]
    cases ofRepository t root <;> simp
  rw [Indexer.index_eq_error_iff hroot, hfiles, ← hok]
  simp [ofRepository_eq_error_iff]

/-- A list of aliases breaks the paths of modules, and the index of the repository. -/
theorem ofRepository_breakdowns_listedAliases :
    let t : FileTree := ⟨[(["r"], .directory), (["r", "tsconfig.json"], .file (Utf8.encode
      "\x7b\"compilerOptions\": \x7b\"paths\": [\"a\"]\x7d\x7d"))], "/"⟩
    let indexer : Indexer := ⟨fun _ _ => none, [], ".ts"⟩
    let host : Host := ⟨"/", fun _ _ => .finished "a.ts\n" [] 0⟩
    Unusable t "/r" .pathsNotObject ∧
      indexer.index host t "/r" = .error (.options .pathsNotObject) := by
  intro t indexer host
  obtain ⟨hoptions, -, hindex⟩ := ofRepository_breakdowns t "/r"
  have hbreaks : ofRepository t "/r" = .error .pathsNotObject := by
    have hmap : (ofRepository t "/r").map ModulePaths.base = .error .pathsNotObject := by
      decide +kernel
    exact Except.map_eq_error.1 hmap
  have hunusable := (hoptions .pathsNotObject).1 hbreaks
  have hroot : Indexer.rootOf host t "/r" = .ok "/r" := by rfl
  have hfiles : Repository.trackedFiles host t indexer.excluded "/r" = .ok ["a.ts"] := by
    decide +kernel
  exact ⟨hunusable, (hindex indexer host "/r" _ _ hroot hfiles).2 (.inl ⟨_, hunusable, rfl⟩)⟩

end ModulePaths

end SourceAtlas
