import SourceAtlas.Proofs.Batch.Resume
import SourceAtlas.Proofs.Indexing.Records
import SourceAtlas.Proofs.RoundTrip
import SourceAtlas.Proofs.Store.History

/-!
# What calls leave on disk

One index is summarized again and again, by batches of any kind, while saves may fail. When a call
returns and the last save so far has succeeded, what is loaded from the path is the index in memory
as it is read back.

* `IndexStore.Keeps`: an index is on disk; `IndexStore.failingBy`: a store of which the saves fail by a
  plan;
* `Batches.Going`, `Batches.summarizeIndex_going`: one call, in memory and on disk;
* `Session`, `Session.call`, `Session.keeps_run`, `Session.keeps_calls`: calls one after another;
* **`Session.load_call`**: what is loaded after a call;
* `Session.call_notDurable`: calls that return while the path holds something else.
-/

namespace SourceAtlas

/-! ## Saves that fail by a plan -/

namespace IndexStore

variable {σ : Type} {store : IndexStore σ} {message path : Text} {i : Index}

/-- What is loaded from a path is the index, or the index as it is read back. -/
def Keeps (store : IndexStore σ) (s : σ) (path : Text) (i : Index) : Prop :=
  ∃ j, store.load s path = .ok j ∧ (j = i ∨ j = i.reread)

/-- The store with a plan of which of the saves to come fail with a message; those change nothing. -/
def failingBy (store : IndexStore σ) (message : Text) : IndexStore (σ × List Bool) where
  pathFor := store.pathFor
  refusal? s repository := store.refusal? s.1 repository
  holds s repository := store.holds s.1 repository
  list s := store.list s.1
  load s path := store.load s.1 path
  save s index path :=
    if s.2.headD false then (.error (.refused message), (s.1, s.2.tail))
    else
      let (result, t) := store.save s.1 index path
      (result, (t, s.2.tail))
  files s := store.files s.1

/-- A save that succeeds is one of the store. -/
theorem save_failingBy_ok {s s' : σ × List Bool}
    (h : (store.failingBy message).save s i path = (.ok (), s')) :
    store.save s.1 i path = (.ok (), s'.1) := by
  unfold failingBy at h
  dsimp only at h
  split at h
  · cases h
  · obtain ⟨hresult, hstate⟩ := Prod.mk.inj h
    exact Prod.ext hresult (congrArg Prod.fst hstate)

end IndexStore

/-! ## One call -/

namespace Artifact

/-- No index that is loaded has a null for the summary of its repository. -/
theorem repoSummary_of_load {t : FileTree} {path : Text} {i : Index} (h : load t path = .ok i) :
    i.repoSummary ≠ some .null := by
  have hjson : ∀ {v : Json}, Index.ofJson v = .ok i → i.repoSummary ≠ some .null := by
    intro v h
    obtain ⟨repository, -, h⟩ := Except.bind_eq_ok.1 h
    obtain ⟨files, -, h⟩ := Except.bind_eq_ok.1 h
    obtain ⟨records, -, h⟩ := Except.bind_eq_ok.1 h
    obtain ⟨summaries, -, h⟩ := Except.bind_eq_ok.1 h
    obtain ⟨fileSummaries, -, h⟩ := Except.bind_eq_ok.1 h
    cases h
    dsimp only
    split <;> simp_all
  unfold load ofText at h
  split at h
  · cases h
  · split at h
    · cases h
    · cases h
    · exact hjson (Except.mapError_eq_ok.1 h)
    · cases h

end Artifact

namespace Batches

variable {σ : Type} {b : Batches} {store : IndexStore σ} {path : Text} {i : Index} {s : σ}

/-- A run that goes on: the index has only grown, and if no batch is done yet nothing has changed, while
otherwise the index is what is loaded, as it is read back. -/
structure Going (store : IndexStore σ) (path : Text) (i : Index) (s : σ) (run : BatchRun σ) : Prop where
  target : run.statistics.path = path
  grows : i.Grows run.index
  start : run.statistics.batches = 0 → run.index = i ∧ run.state = s
  written : run.statistics.batches ≠ 0 → store.load run.state path = .ok run.index.reread

/-- **One call.** The index in memory has grown. If the call returns, either it has saved nothing and
nothing has changed, or the index is written. -/
theorem summarizeIndex_going
    (hsave : ∀ s j s', store.save s j path = (.ok (), s') → store.load s' path = .ok j.reread) :
    let run := b.summarizeIndex store i path s
    i.Grows run.index ∧ (run.fault = none → Going store path i s run) := by
  intro run
  refine continueRun_induction (fun run _ => run.fault = none ∧ Going store path i s run)
    (fun run => i.Grows run.index ∧ (run.fault = none → Going store path i s run))
    (fun run h => ⟨h.2.grows, fun _ => h.2⟩) (fun run pending fault state _ h _ => ?_)
    (fun run pending state _ h hs => ?_) _ _ ?_
  · refine ⟨h.2.grows.trans (grows_summarizeBatch b store run _), fun hnone => ?_⟩
    cases hnone
  · refine ⟨h.1, h.2.target, h.2.grows.trans (grows_summarizeBatch b store run _), ?_, fun _ => ?_⟩
    · intro hzero
      cases hzero
    · rw [h.2.target] at hs
      exact hsave _ _ _ hs
  · exact ⟨rfl, rfl, .refl i, fun _ => ⟨rfl, rfl⟩, fun hne => absurd rfl hne⟩

end Batches

/-! ## Calls one after another -/

/-- One index in memory between calls: what it is, the state of the store, and whether the last save
so far has succeeded, if there was one. -/
structure Session (σ : Type) where
  index : Index
  state : σ
  saved : Bool

namespace Session

variable {σ : Type} {store : IndexStore σ} {path : Text}

/-- The session after one more call. -/
def call (store : IndexStore σ) (path : Text) (s : Session σ) (b : Batches) : Session σ :=
  let run := b.summarizeIndex store s.index path s.state
  { index := run.index
    state := run.state
    saved := run.fault.isNone && (s.saved || run.statistics.batches ≠ 0) }

variable (hsave : ∀ s j s', store.save s j path = (.ok (), s') → store.load s' path = .ok j.reread)
include hsave

/-- **One call after others.** If it returns, it leaves the index on disk: by its own saves, or because
nothing has changed since the last one succeeded. -/
theorem keeps_run (s : Session σ) (b : Batches)
    (hs : s.saved = true → store.Keeps s.state path s.index) :
    let run := b.summarizeIndex store s.index path s.state
    run.fault = none → (s.saved = true ∨ run.statistics.batches ≠ 0) →
      store.Keeps run.state path run.index := by
  intro run hfault hsaved
  have hgoing := (Batches.summarizeIndex_going (b := b) hsave).2 hfault
  by_cases hzero : run.statistics.batches = 0
  · obtain ⟨hindex, hstate⟩ := hgoing.start hzero
    rw [hindex, hstate]
    exact hs (hsaved.resolve_right fun hne => hne hzero)
  · exact ⟨run.index.reread, hgoing.written hzero, .inr rfl⟩

/-- **Calls one after another**: the index has grown, and it is on disk if the last save so far has
succeeded. -/
theorem keeps_calls (calls : List Batches) (s : Session σ)
    (hs : s.saved = true → store.Keeps s.state path s.index) :
    let s' := calls.foldl (call store path) s
    s.index.Grows s'.index ∧ (s'.saved = true → store.Keeps s'.state path s'.index) := by
  induction calls generalizing s with
  | nil => exact ⟨.refl s.index, hs⟩
  | cons b calls ih =>
    have hgrows : s.index.Grows (s.call store path b).index :=
      (Batches.summarizeIndex_going hsave).1
    have hcall : (s.call store path b).saved = true →
        store.Keeps (s.call store path b).state path (s.call store path b).index := by
      intro h
      simp only [call, Bool.and_eq_true, Bool.or_eq_true, Option.isNone_iff_eq_none,
        decide_eq_true_iff] at h
      exact keeps_run hsave s b hs h.1 h.2
    obtain ⟨hgrows', hkeeps⟩ := ih (s.call store path b) hcall
    exact ⟨hgrows.trans hgrows', hkeeps⟩

omit hsave

/-- **What is loaded after a call.** An index was loaded from a path, and calls with batches of any
kind have gone over it, while saves have failed by any plan. When one more call returns, and it has
saved or the last save before it had succeeded, what is loaded from the path is the index in memory,
or that as it is read back. It is the index in memory if no text of it holds two halves of a pair
side by side. When the call returns and has not saved, it has changed nothing: what the last save
that failed should have written is still not on disk. -/
theorem load_call {i : Index} {t : FileTree} (htidy : Path.tidy path = path)
    (hload : Artifact.load t path = .ok i) (directory message : Text) (plan : List Bool)
    (calls : List Batches) (b : Batches) :
    let store := (IndexStore.onFiles directory).failingBy message
    let s := calls.foldl (call store path) ⟨i, (t, plan), true⟩
    let run := b.summarizeIndex store s.index path s.state
    run.fault = none →
      ((s.saved = true ∨ run.statistics.batches ≠ 0) →
        ∃ j, store.load run.state path = .ok j ∧ (j = run.index ∨ j = run.index.reread) ∧
          (run.index.toJson.Settled → j = run.index)) ∧
      (run.statistics.batches = 0 → run.index = s.index ∧ run.state = s.state) := by
  intro store s run hfault
  have hsave : ∀ s j s', store.save s j path = (.ok (), s') →
      store.load s' path = .ok j.reread := fun _ _ _ h =>
    (Artifact.holds_of_save (IndexStore.save_failingBy_ok h)).load htidy
  obtain ⟨hgrows, hkeeps⟩ := keeps_calls hsave calls ⟨i, (t, plan), true⟩
    fun _ => ⟨i, hload, .inl rfl⟩
  refine ⟨fun hsaved => ?_, ((Batches.summarizeIndex_going hsave).2 hfault).start⟩
  obtain ⟨j, hj, hcases⟩ := keeps_run hsave s b hkeeps hfault hsaved
  refine ⟨j, hj, hcases, fun hsettled => hcases.elim id fun hreread => ?_⟩
  have hgrows' : s.index.Grows run.index := (Batches.summarizeIndex_going hsave).1
  have hsummary : run.index.repoSummary ≠ some .null :=
    (hgrows.trans hgrows').repoSummary ▸ Artifact.repoSummary_of_load hload
  rw [hreread, Index.reread_of_settled hsettled hsummary]

/-- Every file gets a summary with these elements, one file after the other. -/
def oneByOne (elements : Json) : Batches :=
  Batches.byName (Batches.withElements elements) 1 Nat.one_pos [".json"]

/-- The session of an index of two files that was saved, with a plan of the saves to come. -/
def twoFiles (plan : List Bool) : Session (FileTree × List Bool) :=
  let i := Batches.bareIndex ["a.json", "b.json"]
  ⟨i, (Batches.treeWith i, plan), true⟩

/-- The store of a directory, saves of which fail by a plan. -/
def plannedStore : IndexStore (FileTree × List Bool) :=
  (IndexStore.onFiles "/store").failingBy "disk full"

theorem load_twoFiles (plan : List Bool) :
    Artifact.load (twoFiles plan).state.1 "/store/ast-r.json" = .ok (twoFiles plan).index := by
  have hsave : Artifact.save ⟨[(["store"], .directory)], "/"⟩ (twoFiles plan).index
      "/store/ast-r.json" = (.ok (), (twoFiles plan).state.1) := Prod.ext (by rfl) rfl
  have htidy : Path.tidy "/store/ast-r.json" = Text.ofString "/store/ast-r.json" := by decide +kernel
  have hproper : (Batches.bareIndex ["a.json", "b.json"]).toJson.isProper = true := by decide +kernel
  rw [(Artifact.holds_of_save hsave).load htidy]
  exact congrArg Except.ok
    (Index.reread_of_settled (Json.settled_of_isProper hproper) (by rintro ⟨⟩))

/-- A call whose first save fails, and one over the file that is left. -/
theorem load_call_afterFailure :
    let s := (twoFiles [true]).call plannedStore "/store/ast-r.json" (oneByOne (.list []))
    let run := (oneByOne (.list [])).summarizeIndex plannedStore s.index "/store/ast-r.json" s.state
    s.saved = false ∧ run.fault = none ∧ run.statistics.batches = 1 ∧
      plannedStore.load run.state "/store/ast-r.json" = .ok run.index := by
  intro s run
  have htidy : Path.tidy "/store/ast-r.json" = Text.ofString "/store/ast-r.json" := by decide +kernel
  have hfault : run.fault = none := by decide +kernel
  have hbatches : run.statistics.batches = 1 := by decide +kernel
  have hne : run.statistics.batches ≠ 0 := by rw [hbatches]; decide
  obtain ⟨hsaved, -⟩ := load_call htidy (load_twoFiles [true]) "/store" "disk full" [true]
    [oneByOne (.list [])] (oneByOne (.list [])) hfault
  obtain ⟨j, hj, -, hsettled⟩ := hsaved (.inr hne)
  have hproper : run.index.toJson.isProper = true := by decide +kernel
  rw [hsettled (Json.settled_of_isProper hproper)] at hj
  exact ⟨by decide +kernel, hfault, hbatches, hj⟩

/-- **Calls that return while the path holds something else**: a call whose summaries have keys that are
written alike; and a call after one whose only save has failed, which finds nothing left to do. -/
theorem call_notDurable :
    (let s := twoFiles []
      let run := (oneByOne Batches.alike).summarizeIndex plannedStore s.index "/store/ast-r.json" s.state
      plannedStore.load s.state "/store/ast-r.json" = .ok s.index ∧ run.fault = none ∧
        plannedStore.load run.state "/store/ast-r.json" ≠ .ok run.index) ∧
    (let s := twoFiles [false, true]
      let s' := s.call plannedStore "/store/ast-r.json" (oneByOne (.list []))
      let run := (oneByOne (.list [])).summarizeIndex plannedStore s'.index "/store/ast-r.json" s'.state
      plannedStore.load s.state "/store/ast-r.json" = .ok s.index ∧ run.fault = none ∧
        plannedStore.load run.state "/store/ast-r.json" ≠ .ok run.index) := by
  have hne : ∀ {r : Except LoadFault Index} {i : Index},
      r.toOption.map (fun j => j.text.length) ≠ some i.text.length → r ≠ .ok i := by
    rintro r i h rfl
    exact h rfl
  refine ⟨⟨load_twoFiles [], by decide +kernel, hne ?_⟩,
    ⟨load_twoFiles [false, true], by decide +kernel, hne ?_⟩⟩ <;> decide +kernel

end Session

end SourceAtlas
