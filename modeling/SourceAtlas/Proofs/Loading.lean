import SourceAtlas.CommandLine
import SourceAtlas.Proofs.Configuration
import SourceAtlas.Proofs.Index.Shapes
import SourceAtlas.Proofs.Indexing.OwnArtifacts
import SourceAtlas.Proofs.Store.Atomic

/-!
# What loading an artifact comes to

An artifact that cannot be used is reported, but for those that nothing is prepared for; these end
the commands that load them without a code.

* `Artifact.Fails`, `Artifact.load_eq_error_iff`: why a file gives no index;
* `Artifact.exists_load_iff`: the artifacts that are loaded;
* `Artifact.Breaks`, `Artifact.exists_broken_iff_breaks`: the artifacts that break loading;
* `Batches.Confined`, `Batches.confined_summarizeIndex`: a run over one artifact keeps the others;
* `Batches.fault_of_summarizePaths`: how runs over artifacts fail;
* `Run.HasCode`, `Libraries.Shows`: runs that end with a code, and what the console shows;
* `Workplace.hasCode_runView`, `Workplace.hasCode_runSummarize`: which commands end with a code;
* **`Workplace.artifact_breakdowns`**: loading, and the commands that load.
-/

namespace SourceAtlas

namespace Artifact

variable {t : FileTree} {path : Text} {fault : LoadFault}

/-! ## Loading -/

/-- The text of a file is this JSON value. -/
def HoldsValue (t : FileTree) (path : Text) (v : Json) : Prop :=
  ∃ text, t.readText path = .ok text ∧ Json.read text = .ok v

/-- A file gives no index, and why. -/
inductive Fails (t : FileTree) (path : Text) : LoadFault → Prop where
  | unreadable {fault : ReadFault} (h : t.readText path = .error fault) :
    Fails t path (.unreadable fault)
  | malformed {text : Text} {fault : Json.Fault} (hread : t.readText path = .ok text)
    (h : Json.read text = .error (.malformed fault)) : Fails t path (.malformed text fault)
  | tooManyDigits {text : Text} {count : Nat} (hread : t.readText path = .ok text)
    (h : Json.read text = .error (.tooManyDigits count)) : Fails t path (.tooManyDigits count)
  | notAnObject {v : Json} (hvalue : HoldsValue t path v) (h : ∀ ms, v ≠ .object ms) :
    Fails t path (.notAnObject path)
  | shape {ms : List (Text × Json)} {fault : ShapeFault} (hvalue : HoldsValue t path (.object ms))
    (h : Index.ofJson (.object ms) = .error fault) : Fails t path (.shape fault)

/-- Nothing is prepared for an artifact: the text of its path is none, its text has a number of too
many digits, or it is an object without the shape of an index. -/
inductive Breaks (t : FileTree) (path : Text) : Prop where
  | unfit {why : PathFault} (h : Path.fault? path = some why)
  | tooManyDigits {text : Text} {count : Nat} (hread : t.readText path = .ok text)
    (h : Json.read text = .error (.tooManyDigits count))
  | shape {ms : List (Text × Json)} (hvalue : HoldsValue t path (.object ms))
    (h : ¬ Index.Shape (.object ms))

theorem load_of_object {ms : List (Text × Json)} (h : HoldsValue t path (.object ms)) :
    load t path = (Index.ofJson (.object ms)).mapError .shape := by
  obtain ⟨text, hread, hvalue⟩ := h
  simp only [load, hread, ofText, hvalue]

theorem load_of_ne_object {v : Json} (h : HoldsValue t path v) (hne : ∀ ms, v ≠ .object ms) :
    load t path = .error (.notAnObject path) := by
  obtain ⟨text, hread, hvalue⟩ := h
  simp only [load, hread, ofText, hvalue]

theorem load_eq_error_iff : load t path = .error fault ↔ Fails t path fault := by
  constructor
  · intro h
    cases hread : t.readText path with
    | error f =>
      simp only [load, hread] at h
      cases h
      exact .unreadable hread
    | ok text =>
      cases hvalue : Json.read text with
      | error e =>
        cases e with
        | malformed f =>
          simp only [load, hread, ofText, hvalue] at h
          cases h
          exact .malformed hread hvalue
        | tooManyDigits n =>
          simp only [load, hread, ofText, hvalue] at h
          cases h
          exact .tooManyDigits hread hvalue
      | ok v =>
        have hholds : HoldsValue t path v := ⟨text, hread, hvalue⟩
        by_cases hv : ∃ ms, v = .object ms
        · obtain ⟨ms, rfl⟩ := hv
          rw [load_of_object hholds] at h
          obtain ⟨f, hf, rfl⟩ := Except.mapError_eq_error.1 h
          exact .shape hholds hf
        · have hne : ∀ ms, v ≠ .object ms := fun ms he => hv ⟨ms, he⟩
          rw [load_of_ne_object hholds hne] at h
          cases h
          exact .notAnObject hholds hne
  · rintro (hread | ⟨hread, hvalue⟩ | ⟨hread, hvalue⟩ | ⟨hvalue, hne⟩ | ⟨hvalue, hshape⟩)
    · rw [load, hread]
    · simp only [load, hread, ofText, hvalue]
    · simp only [load, hread, ofText, hvalue]
    · exact load_of_ne_object hvalue hne
    · rw [load_of_object hvalue, hshape]
      rfl

theorem exists_shapeFault_iff {v : Json} : (∃ f, Index.ofJson v = .error f) ↔ ¬ Index.Shape v := by
  rw [← Index.hasReading_iff, Json.HasReading]
  cases Index.ofJson v <;> simp

theorem load_eq_ok_iff {i : Index} : load t path = .ok i ↔
    ∃ ms, HoldsValue t path (.object ms) ∧ Index.ofJson (.object ms) = .ok i := by
  constructor
  · intro h
    unfold load at h
    split at h
    · cases h
    · rename_i text hread
      unfold ofText at h
      split at h
      · cases h
      · cases h
      · rename_i ms hvalue
        exact ⟨ms, ⟨text, hread, hvalue⟩, Except.mapError_eq_ok.1 h⟩
      · cases h
  · rintro ⟨ms, hvalue, hi⟩
    rw [load_of_object hvalue, hi]
    rfl

/-- **The artifacts that are loaded.** -/
theorem exists_load_iff : (∃ i, load t path = .ok i) ↔ ∃ v, HoldsValue t path v ∧ Index.Shape v := by
  simp only [load_eq_ok_iff, ← Index.hasReading_iff]
  constructor
  · rintro ⟨i, ms, hvalue, hi⟩
    exact ⟨_, hvalue, i, hi⟩
  · rintro ⟨v, hvalue, hreading⟩
    obtain ⟨ms, rfl, -⟩ := Index.hasReading_iff.1 hreading
    obtain ⟨i, hi⟩ := hreading
    exact ⟨i, ms, hvalue, hi⟩

/-- **The artifacts that break loading.** -/
theorem exists_broken_iff_breaks :
    (∃ fault why, load t path = .error fault ∧ fault.failure = .broken why) ↔ Breaks t path := by
  simp only [load_eq_error_iff]
  constructor
  · rintro ⟨_, why, h | ⟨hread, hvalue⟩ | ⟨hread, hvalue⟩ | ⟨hvalue, hne⟩ | ⟨hvalue, hshape⟩, hbroken⟩
    · rename_i fault
      match fault with
      | .file (.unfit _) => exact .unfit (FileTree.readText_eq_unfit.1 h)
      | .file (.refused _ _) => cases hbroken
      | .file (.refusedMove _ _ _) => cases hbroken
      | .decoding _ => cases hbroken
    · cases hbroken
    · exact .tooManyDigits hread hvalue
    · cases hbroken
    · exact .shape hvalue (exists_shapeFault_iff.1 ⟨_, hshape⟩)
  · rintro (hunfit | ⟨hread, hvalue⟩ | ⟨hvalue, hshape⟩)
    · exact ⟨_, _, .unreadable (FileTree.readText_eq_unfit.2 hunfit), rfl⟩
    · exact ⟨_, _, .tooManyDigits hread hvalue, rfl⟩
    · obtain ⟨f, hf⟩ := exists_shapeFault_iff.2 hshape
      exact ⟨_, _, .shape hvalue hf, rfl⟩

theorem breaks_iff_of_error (h : load t path = .error fault) :
    Breaks t path ↔ ∃ why, fault.failure = .broken why := by
  rw [← exists_broken_iff_breaks, h]
  simp

theorem not_breaks_of_load {i : Index} (h : load t path = .ok i) : ¬ Breaks t path := by
  rw [← exists_broken_iff_breaks, h]
  simp

end Artifact

/-! ## Runs over artifacts -/

namespace Batches

open Artifact

variable {directory name : Text} {names : List Text} {t u : FileTree} {i : Index}

/-- The failure that a fault leads to. -/
def StoreFault.failure : StoreFault → Failure
  | load fault => fault.failure
  | save fault => fault.failure

/-- A run over an artifact has touched no other, and a save of it that failed is reported. -/
structure Confined (directory name : Text) (t : FileTree) (run : BatchRun FileTree) : Prop where
  touches : Touches directory [name] t run.state
  above : run.state.HasDirectory (run.state.place directory)
  path : run.statistics.path = Path.child directory name
  reported : ∀ fault, run.fault = some fault → ∃ message, fault = .refused message

/-- One save more, whatever comes of it. -/
theorem Confined.next {run : BatchRun FileTree} {result : Except SaveFault Unit}
    (h : Confined directory name t run) (hn : Path.IsName name)
    (hs : Artifact.save run.state i run.statistics.path = (result, u)) :
    Touches directory [name] t u ∧ u.HasDirectory (u.place directory) := by
  obtain ⟨hkeeps, hcurrent, -⟩ := keeps_of_save hs
  rw [h.path] at hs
  refine ⟨(h.touches.trans (touches_of_save hn h.above hs)).mono (by simp), ?_⟩
  rw [FileTree.place_of_current hcurrent]
  exact hkeeps.hasDirectory h.above

/-- **A run over an artifact is confined to it**, also where a save fails. -/
theorem confined_summarizeIndex (b : Batches) (hn : Path.IsName name)
    (hd : t.HasDirectory (t.place directory)) (i : Index) : Confined directory name t
      (b.summarizeIndex (IndexStore.onFiles directory) i (Path.child directory name) t) := by
  refine continueRun_induction (fun run _ => Confined directory name t run)
    (Confined directory name t) (fun run h => h) (fun run pending fault u _ h hsave => ?_)
    (fun run pending u _ h hsave => ?_) _ _ ⟨.refl _ _ _, hd, rfl, nofun⟩
  · obtain ⟨htouches, habove⟩ := h.next hn hsave
    obtain ⟨temporary, ht, -⟩ := exists_temporary run.state directory hn
    refine ⟨htouches, habove, h.path, ?_⟩
    rintro _ ⟨⟩
    rw [← h.path] at ht
    exact exists_message_of_save ht hsave
  · obtain ⟨htouches, habove⟩ := h.next hn hsave
    exact ⟨htouches, habove, h.path, h.reported⟩

/-- The directory of what is loaded. -/
theorem hasDirectory_of_load (hn : Path.IsName name)
    (h : Artifact.load t (Path.child directory name) = .ok i) :
    t.HasDirectory (t.place directory) := by
  obtain ⟨content, hread⟩ := exists_read_of_load h
  have hwalk := (FileTree.stat_eq_ok.1 (FileTree.stat_of_read hread)).2.1
  rw [FileTree.place_child hn] at hwalk
  exact (FileTree.walk_concat.1 hwalk).1

/-- **How runs over artifacts fail**: a save is reported, or one of the artifacts cannot be loaded
where they started. -/
theorem fault_of_summarizePaths (b : Batches)
    (hnames : ∀ x ∈ names, IsOwnName x) (hnodup : names.Nodup)
    {fault : StoreFault} (h : (b.summarizePaths (IndexStore.onFiles directory)
      (names.map (Path.child directory)) t).result = .error fault) :
    (∃ message, fault = .save (.refused message)) ∨
      ∃ x ∈ names, ∃ f, Artifact.load t (Path.child directory x) = .error f ∧ fault = .load f := by
  induction names generalizing t with
  | nil => cases h
  | cons name names ih =>
    obtain ⟨⟨hn, hnamed⟩, hothers⟩ := List.forall_mem_cons.1 hnames
    obtain ⟨hnotin, hnodup⟩ := List.nodup_cons.1 hnodup
    rw [List.map_cons, summarizePaths] at h
    split at h
    · rename_i f hload
      cases h
      exact .inr ⟨name, List.mem_cons_self, f, hload, rfl⟩
    · rename_i i hload
      have hrun := confined_summarizeIndex b hn (hasDirectory_of_load hn hload) i
      dsimp only at h
      split at h
      · rename_i f hf
        cases h
        obtain ⟨message, rfl⟩ := hrun.reported f hf
        exact .inl ⟨message, rfl⟩
      · rcases ih hothers hnodup (Except.map_eq_error.1 h) with hsave | ⟨x, hx, f, hload, rfl⟩
        · exact .inl hsave
        · -- What was saved of the first artifact concerns no other one.
          have hne : x ∉ [name] := by
            rw [List.mem_singleton]
            rintro rfl
            exact hnotin hx
          have hagrees := hrun.touches.agrees (hothers x hx).isNamed (by simpa using hnamed) hne
          rw [hagrees.load (hothers x hx).isName] at hload
          exact .inr ⟨x, List.mem_cons_of_mem name hx, f, hload, rfl⟩

end Batches

/-! ## Commands -/

/-- The run ends with code 0 or 2. -/
def Run.HasCode (r : Run) : Prop := r.ending = .ok 0 ∨ r.ending = .ok 2

namespace Run

variable {files : FileTree} {title : Text}

theorem hasCode_succeeded (files : FileTree) (output : Output) : (succeeded files output).HasCode :=
  .inl rfl

theorem hasCode_refused (files : FileTree) (complaint : Text) : (refused files complaint).HasCode :=
  .inr rfl

theorem hasCode_withoutIndex (files : FileTree) (repository : Text) :
    (withoutIndex files repository).HasCode :=
  hasCode_refused files _

theorem not_hasCode_brokenDown (files : FileTree) (why : Breakdown) :
    ¬ (brokenDown files why).HasCode := by
  rintro (h | h) <;> cases h

theorem hasCode_failed {failure : Failure} :
    (failed files title failure).HasCode ↔ ∀ why, failure ≠ .broken why := by
  cases failure with
  | reported message => simp [failed, hasCode_refused]
  | broken why => simp [failed, not_hasCode_brokenDown]

end Run

/-- The console shows an output, and does not break down over it. -/
def Libraries.Shows (l : Libraries) : Output → Prop
  | .text t => ∃ shown, l.showText t = .ok shown
  | .table t => ∃ shown, l.showTable t = .ok shown

theorem Run.hasCode_printed {l : Libraries} {files : FileTree} {output : Output} :
    (printed files (l.shown output)).HasCode ↔ l.Shows output := by
  cases output with
  | text t =>
    cases h : l.showText t <;>
      simp [Libraries.shown, Libraries.Shows, h, printed, not_hasCode_brokenDown, hasCode_succeeded]
  | table t =>
    cases h : l.showTable t <;>
      simp [Libraries.shown, Libraries.Shows, h, printed, not_hasCode_brokenDown, hasCode_succeeded]

namespace Workplace

open Artifact (Breaks HoldsValue)

variable {w : Workplace} {l : Libraries} {t : FileTree} {repository path : Text} {format : Format}
  {c : Configuration} {e : Environment} {b : Batches}

/-- The summaries of an index are written as a list with a pair whose key is no text. Such a key is
read as the text that it is written as, which does not say whether it can be ordered among others. -/
def ListsOtherKeys (t : FileTree) (path : Text) : Prop :=
  ∃ v pairs k w, HoldsValue t path v ∧ v.get? "fileSummaries" = some (.list pairs) ∧
    Json.list [k, w] ∈ pairs ∧ ∀ key, k ≠ .text key

/-! ### Viewing -/

theorem hasCode_runView : (runView l t repository format c).HasCode ↔
    (storeOf c).refusal? t repository = none ∧
      ((storeOf c).holds t repository = true → ¬ Breaks t ((storeOf c).pathFor repository) ∧
        ∀ i, Artifact.load t ((storeOf c).pathFor repository) = .ok i →
          ∃ output, viewOf i.fileSummaries format = some output ∧ l.Shows output) := by
  unfold runView
  dsimp only
  cases (storeOf c).refusal? t repository with
  | some fault => simp [Run.not_hasCode_brokenDown]
  | none =>
    cases hh : (storeOf c).holds t repository with
    | false => simpa using Run.hasCode_withoutIndex t repository
    | true =>
      have hload : (storeOf c).load t ((storeOf c).pathFor repository) =
          Artifact.load t ((storeOf c).pathFor repository) := rfl
      simp only [Bool.not_true, Bool.false_eq_true, if_false, true_implies, true_and, hload]
      cases hl : Artifact.load t ((storeOf c).pathFor repository) with
      | error fault => simp [Run.hasCode_failed, Artifact.breaks_iff_of_error hl]
      | ok i =>
        have hb := Artifact.not_breaks_of_load hl
        cases hv : viewOf i.fileSummaries format with
        | none => simp [hv, hb, Run.not_hasCode_brokenDown]
        | some output => simp [hv, hb, Run.hasCode_printed]

theorem isSome_mapM {α β : Type} (f : α → Option β) (as : List α) :
    (as.mapM f).isSome = true ↔ ∀ a ∈ as, (f a).isSome = true := by
  induction as with
  | nil => simp
  | cons a as ih =>
    rw [List.mapM_cons, List.forall_mem_cons, ← ih]
    cases f a with
    | none => simp
    | some b => cases as.mapM f <;> simp

/-- There is a table where each summary is an object. -/
theorem isSome_table? {summaries : List (Text × Json)} :
    (Summary.table? summaries).isSome = true ↔ ∀ m ∈ summaries, ∃ ms, m.2 = .object ms := by
  have hrow : ∀ m : Text × Json, (Summary.row? m.1 m.2).isSome = true ↔ ∃ ms, m.2 = .object ms := by
    rintro ⟨k, v⟩
    cases v <;> simp [Summary.row?]
  have hrows := isSome_mapM (fun m : Text × Json => Summary.row? m.1 m.2)
    (summaries.mergeSort fun a b => Text.le a.1 b.1)
  simp only [(List.mergeSort_perm summaries fun a b => Text.le a.1 b.1).mem_iff, hrow] at hrows
  rw [← hrows, Summary.table?]
  cases (summaries.mergeSort fun a b => Text.le a.1 b.1).mapM
    fun m => Summary.row? m.1 m.2 <;> rfl

/-- What the summaries of an artifact come to in a table. -/
theorem exists_table_shown_iff {summaries : List (Text × Json)} :
    (∃ output, viewOf summaries .table = some output ∧ l.Shows output) ↔
      (∀ m ∈ summaries, ∃ ms, m.2 = .object ms) ∧
        ∀ table, Summary.table? summaries = some table → l.Shows (.table table) := by
  rw [← isSome_table?, viewOf]
  cases Summary.table? summaries <;> simp

/-! ### Summarizing -/

/-- The batches in which a configuration has files summarized. -/
def BatchesOf (w : Workplace) (c : Configuration) (b : Batches) : Prop :=
  ∃ r, w.refinerOf c = .ok r ∧
    Batches.ofSize (w.summarizerOf r) c.batchSize summarizableExtensions = .ok b

/-- A configuration that is proper has batches. -/
theorem exists_batchesOf (w : Workplace) (hc : c.IsProper) : ∃ b, w.BatchesOf c b := by
  obtain ⟨table, htable⟩ := TierTable.exists_ofList hc.tiers hc.budgets
  obtain ⟨r, hr⟩ := Refiner.exists_ofSettings hc.rounds hc.keptPoints table w.countTokens none
  obtain ⟨b, hb⟩ := Batches.exists_ofSize hc.batchSize (w.summarizerOf r) summarizableExtensions
  refine ⟨b, r, ?_, hb⟩
  rw [refinerOf, htable]
  exact hr

theorem hasCode_reportOf {r : Batches.StoreRun FileTree} : (reportOf l r).HasCode ↔
    (∀ results, r.result = .ok results → l.Shows (.table (Statistics.table results))) ∧
      ∀ fault, r.result = .error fault → ∀ why, fault.failure ≠ .broken why := by
  unfold reportOf
  split
  · rename_i results h
    simp [h, Run.hasCode_printed]
  · rename_i fault h
    simp [h, Run.hasCode_failed, Batches.StoreFault.failure]
  · rename_i fault h
    simp [h, Run.hasCode_failed, Batches.StoreFault.failure]

/-- **Runs over artifacts that do not break loading** end with a code where the console shows what
came of them. -/
theorem hasCode_of_not_breaks (b : Batches) {directory : Text} {names : List Text}
    (hnames : ∀ x ∈ names, Artifact.IsOwnName x) (hnodup : names.Nodup)
    (h : ∀ x ∈ names, ¬ Breaks t (Path.child directory x)) :
    let run := b.summarizePaths (IndexStore.onFiles directory) (names.map (Path.child directory)) t
    (reportOf l run).HasCode ↔
      ∀ results, run.result = .ok results → l.Shows (.table (Statistics.table results)) := by
  refine hasCode_reportOf.trans (and_iff_left fun fault hfault why hbroken => ?_)
  rcases b.fault_of_summarizePaths hnames hnodup hfault with ⟨message, rfl⟩ | ⟨x, hx, f, hload, rfl⟩
  · cases hbroken
  · exact h x hx ((Artifact.breaks_iff_of_error hload).2 ⟨why, hbroken⟩)

/-- **Runs over artifacts end without a code** if the first one breaks loading. -/
theorem not_hasCode_of_breaks (b : Batches) (directory : Text) (paths : List Text)
    (h : Breaks t path) :
    ¬ (reportOf l (b.summarizePaths (IndexStore.onFiles directory) (path :: paths) t)).HasCode := by
  obtain ⟨fault, why, hload, hbroken⟩ := Artifact.exists_broken_iff_breaks.2 h
  have hstore : (IndexStore.onFiles directory).load t path = .error fault := hload
  intro hcode
  refine (hasCode_reportOf.1 hcode).2 (.load fault) ?_ why hbroken
  rw [Batches.summarizePaths, hstore]

/-- What a summary command ends with is what the runs over artifacts end with, if it can be told
which there are. -/
theorem hasCode_runSummarize (hb : w.BatchesOf c b) (l : Libraries) (t : FileTree)
    (repository : Option Text) (e : Environment) :
    (w.runSummarize l t repository e c).HasCode ↔ unknown? t c repository = none ∧
      (missing? t c repository = none → unlisted? t c repository = none ∧
        (reportOf l (summarizeStored b (storeOf c) t repository)).HasCode) := by
  obtain ⟨r, hr, hb⟩ := hb
  unfold runSummarize
  cases unknown? t c repository with
  | some fault => simp [Run.not_hasCode_brokenDown]
  | none =>
    cases missing? t c repository with
    | some r => simpa using Run.hasCode_withoutIndex t r
    | none =>
      simp only [hr, summarizeWith, hb, true_implies, true_and]
      cases unlisted? t c repository with
      | some fault =>
        refine iff_of_false ?_ (by simp)
        exact Run.not_hasCode_brokenDown t fault.breakdown
      | none =>
        simp only [true_and]
        exact Iff.rfl

theorem missing?_some_eq_none : missing? t c (some repository) = none ↔
    ((storeOf c).holds t repository = true ∨ repository = []) := by
  rw [missing?, Option.filter_eq_none_iff, or_comm, or_iff_not_imp_left]
  simp

theorem unknown?_some_eq_none : unknown? t c (some repository) = none ↔
    (repository ≠ [] → (storeOf c).refusal? t repository = none) := by
  by_cases h : repository = [] <;> simp [unknown?, h]

theorem hasCode_runSummarize_some (hb : w.BatchesOf c b) (l : Libraries) (e : Environment) :
    (w.runSummarize l t (some repository) e c).HasCode ↔
      (repository ≠ [] → (storeOf c).refusal? t repository = none) ∧
        ((storeOf c).holds t repository = true ∨ repository = [] →
          ¬ Breaks t ((storeOf c).pathFor repository) ∧
          ∀ results, (b.summarizePaths (storeOf c) [(storeOf c).pathFor repository] t).result =
            .ok results → l.Shows (.table (Statistics.table results))) := by
  have hname : ∀ x ∈ [artifactName repository], Artifact.IsOwnName x := by
    simpa using isOwnName_artifactName repository
  rw [hasCode_runSummarize hb, missing?_some_eq_none, unknown?_some_eq_none]
  refine and_congr_right fun _ => forall_congr' fun _ => ?_
  rw [unlisted?, and_iff_right rfl]
  by_cases hbreaks : Breaks t ((storeOf c).pathFor repository)
  · exact iff_of_false (not_hasCode_of_breaks b _ [] hbreaks) fun h => h.1 hbreaks
  · rw [and_iff_right hbreaks]
    exact hasCode_of_not_breaks b hname (List.nodup_singleton _) (List.forall_mem_singleton.2 hbreaks)

theorem hasCode_runSummarize_none (hb : w.BatchesOf c b) (l : Libraries) (e : Environment)
    (ht : t.Named) (hnodup : (t.names c.directory).Nodup)
    (h : ∀ path ∈ (storeOf c).list t, ¬ Breaks t path) :
    (w.runSummarize l t none e c).HasCode ↔ Artifact.listRefusal? c.directory t = none ∧
      ∀ results, (b.summarizeStore (storeOf c) t).result = .ok results →
        l.Shows (.table (Statistics.table results)) := by
  obtain ⟨names, hlist, hsorted, hnames⟩ := Artifact.exists_names ht hnodup
  have hpaths : (storeOf c).list t = names.map (Path.child c.directory) := hlist
  have hbreaks : ∀ x ∈ names, ¬ Breaks t (Path.child c.directory x) := by
    intro x hx
    refine h _ ?_
    rw [hpaths]
    exact List.mem_map_of_mem hx
  rw [hasCode_runSummarize hb, unlisted?, summarizeStored, Batches.summarizeStore, hpaths,
    and_iff_right (show unknown? t c none = none from rfl),
    imp_iff_right (show missing? t c none = none from rfl)]
  exact and_congr_right fun _ => hasCode_of_not_breaks b
    (fun x hx => ⟨(hnames x hx).2.1, (hnames x hx).1⟩) (hsorted.imp fun h => h.2) hbreaks

theorem not_hasCode_runSummarize_none (hb : w.BatchesOf c b) (l : Libraries) (e : Environment)
    {paths : List Text} (hlist : (storeOf c).list t = path :: paths) (h : Breaks t path) :
    ¬ (w.runSummarize l t none e c).HasCode := by
  rw [hasCode_runSummarize hb]
  rintro ⟨-, hcode⟩
  have hstored := (hcode rfl).2
  rw [summarizeStored, Batches.summarizeStore, hlist] at hstored
  exact not_hasCode_of_breaks b _ _ h hstored

/-! ### Both commands -/

/-- The environment and the configuration that commands are carried out with. -/
structure Configured (w : Workplace) (t : FileTree) (e : Environment) (c : Configuration) : Prop where
  environment : Environment.load t w.environment = .ok e
  configuration : Configuration.load w.host.home t e.configuration = .ok c

theorem runCommand_of_configured (h : w.Configured t e c) (l : Libraries) :
    (∀ repository format,
      w.runCommand l t (.view repository format) = runView l t repository format c) ∧
    ∀ repository, w.runCommand l t (.summarize repository) = w.runSummarize l t repository e c := by
  simp [runCommand, withConfiguration, h.environment, h.configuration]

end Workplace

end SourceAtlas
