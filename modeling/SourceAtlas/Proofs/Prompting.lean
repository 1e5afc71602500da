import SourceAtlas.Context
import SourceAtlas.Proofs.FileTree

/-!
# Files with a prompt

The prompt of a file can be made unless it is made from a file whose path is none, since it holds the
point zero or half of a surrogate pair. This depends on the records of the index alone, not on the
file tree and not on the summaries.

* `Context.sources`: the files that the prompt of a file is made from;
* `Context.canPrompt`: the paths of all of them are paths;
* **`Context.isOk_prompt`**: a prompt is made for these files and no others;
* `Context.prompt_of_record`: the prompt of a source file that has a record.
-/

namespace SourceAtlas.Context

/-- The files that the prompt of a file is made from. The text of an indexed source file is that of
its record. -/
def sources (i : Index) (fileName : Text) : List Text :=
  if Path.extension fileName = Text.ofString ".ts" then
    match i.recordFor? fileName with
    | none => [fileName]
    | some r => imports r
  else if Path.extension fileName = Text.ofString ".html" then fileName :: components i fileName
  else [fileName]

/-- Each file that the prompt is made from has a text that is a path. -/
def canPrompt (i : Index) (fileName : Text) : Bool :=
  (sources i fileName).all fun p => Path.isFit (Path.tidy p)

variable (t : FileTree) (i : Index) (fileName : Text)

theorem canPrompt_congr {i j : Index} (h : j.records = i.records) :
    canPrompt j fileName = canPrompt i fileName := by
  unfold canPrompt sources components Index.recordFor?
  rw [h]

theorem isOk_contents (path : Text) : (contents t path).isOk = Path.isFit (Path.tidy path) := by
  have hunfit := fun why => @FileTree.readText_eq_unfit t (Path.tidy path) why
  unfold contents
  cases hp : Path.isFit (Path.tidy path) with
  | false =>
    obtain ⟨why, hwhy⟩ := Path.exists_fault hp
    rw [(hunfit why).2 hwhy]
    rfl
  | true =>
    have hne := Path.fault?_eq_none.2 hp
    split
    · rfl
    · rename_i why h
      rw [(hunfit why).1 h] at hne
      cases hne
    · rfl

theorem isOk_mapM_contents (paths : List Text) :
    (paths.mapM (contents t)).isOk = paths.all fun p => Path.isFit (Path.tidy p) := by
  induction paths with
  | nil => rfl
  | cons p paths ih =>
    have hp := isOk_contents t p
    rw [List.mapM_cons, List.all_cons, ← ih, ← hp]
    cases contents t p with
    | error fault => rfl
    | ok content => cases paths.mapM (contents t) <;> rfl

theorem isOk_contentsOfAll (paths : List Text) :
    (contentsOfAll t paths).isOk = paths.all fun p => Path.isFit (Path.tidy p) := by
  rw [← isOk_mapM_contents t, contentsOfAll]
  cases paths.mapM (contents t) <;> rfl

theorem isOk_sourcePrompt (h : Path.extension fileName = Text.ofString ".ts") :
    (sourcePrompt t i fileName).isOk = canPrompt i fileName := by
  unfold sourcePrompt canPrompt sources
  rw [if_pos h]
  cases i.recordFor? fileName with
  | none =>
    rw [List.all_cons, List.all_nil, Bool.and_true, ← isOk_contents t]
    dsimp only
    cases contents t fileName <;> rfl
  | some r =>
    rw [← isOk_contentsOfAll t]
    dsimp only
    cases contentsOfAll t (imports r) <;> rfl

/-- **A prompt is made for the files whose sources have paths**, whatever the file tree holds. -/
theorem isOk_prompt : (prompt t i fileName).isOk = canPrompt i fileName := by
  unfold prompt
  split
  · exact isOk_sourcePrompt t i fileName ‹_›
  · rename_i hts
    unfold canPrompt sources
    rw [if_neg hts]
    split
    · rw [List.all_cons, ← isOk_contents t, ← isOk_contentsOfAll t]
      cases contents t fileName with
      | error fault => rfl
      | ok content => cases contentsOfAll t (components i fileName) <;> rfl
    · rw [List.all_cons, List.all_nil, Bool.and_true, ← isOk_contents t]
      cases contents t fileName <;> rfl

/-- The prompt of a source file that has a record is made from the record. -/
theorem prompt_of_record {t : FileTree} {i : Index} {fileName : Text} {r : SourceRecord}
    (hts : Path.extension fileName = Text.ofString ".ts") (hr : i.recordFor? fileName = some r) :
    prompt t i fileName = do
      return Prompt.file fileName r.sourceCode (← contentsOfAll t (imports r)) r.compiledCode := by
  rw [prompt, if_pos hts, sourcePrompt, hr]

theorem exists_prompt (h : canPrompt i fileName = true) : ∃ text, prompt t i fileName = .ok text := by
  rw [← isOk_prompt t] at h
  cases hp : prompt t i fileName with
  | ok text => exact ⟨text, rfl⟩
  | error fault => rw [hp] at h; cases h

theorem exists_fault (h : canPrompt i fileName = false) :
    ∃ fault, prompt t i fileName = .error fault := by
  rw [← isOk_prompt t] at h
  cases hp : prompt t i fileName with
  | error fault => exact ⟨fault, rfl⟩
  | ok text => rw [hp] at h; cases h

end SourceAtlas.Context
