import SourceAtlas.Service
import SourceAtlas.Summary.OfText
import SourceAtlas.Summary.Schema
import SourceAtlas.Tier

/-!
# Refinement of summaries

A summary is drafted, checked by questions and answers about the file, and drafted again in the
light of them, for a number of rounds. The last draft has to be a summary, or be mended into one.

* `Stage`, `Stage.next?`: the stages of the work, and which one follows;
* `Refiner`: rounds, tiers and limits; `Refiner.ofSettings`;
* `Refiner.fit`: a file prompt within the limits; `Refiner.fit_eq`: what is kept of it;
* `Refiner.ask`: a call to the model whose tier fits it;
* `Draft`, `Refiner.work`: what is known so far, and the work of a stage;
* `Refiner.summarize`: the summary of a file, and the calls in order.
-/

namespace SourceAtlas

/-! ## Stages -/

/-- The stages of the work on one file. -/
inductive Stage where
  | draft
  | verify
  | densify
  | coerce
  | accepted
  | failed
deriving DecidableEq

namespace Stage

def name : Stage → Text
  | draft => "draft"
  | verify => "verify"
  | densify => "densify"
  | coerce => "coerce"
  | accepted => "accepted"
  | failed => "failed"

def all : List Stage := [draft, verify, densify, coerce, accepted, failed]

/-- The work is over. -/
def isFinal : Stage → Bool
  | accepted | failed => true
  | _ => false

/-- The stage of a name. -/
def ofName? (t : Text) : Option Stage := all.find? fun s => s.name = t

/-- What stands for a name without a stage. -/
def unknownMessage (t : Text) : Text := t.quoted ++ " is not a valid SummaryState"

/-- What stands for the stage after a final one. -/
def finalMessage (s : Stage) : Text := "no transition out of terminal state " ++ s.name

/-- The stage that follows in a round, the rounds counted from zero. Questions are asked once, after
the first draft; the draft of the last round is coerced. Nothing follows a final stage. -/
def next? (s : Stage) (round rounds : Int) (succeeded : Bool) : Option Stage :=
  if s.isFinal then none
  else if !succeeded then some failed
  else
    let refined := if round + 1 ≥ rounds then coerce else densify
    match s with
    | draft => some (if round = 0 then verify else refined)
    | verify => some refined
    | densify => some draft
    | _ => some accepted

end Stage

/-! ## Refiners -/

/-- Rounds, tiers and limits. A file prompt of more tokens than the limit is cut. -/
structure Refiner where
  tiers : TierTable
  count : Text → Nat
  rounds : Nat
  rounds_pos : 0 < rounds
  tokenLimit : Int
  keptPoints : Nat
  keptPoints_pos : 0 < keptPoints

/-- The prompt cut to its first points, whose number has to be positive. -/
def Prompt.truncate (limit : Int) (prompt : Text) : Except Text Text :=
  if limit ≤ 0 then .error "max_chars must be > 0" else .ok (prompt.take limit.toNat)

/-- The points that are kept of a prompt that is cut, when nothing else is configured. -/
def Prompt.defaultKeptPoints : Nat := 100000

namespace Refiner

/-- The rounds when nothing else is configured. -/
def defaultRounds : Nat := 3

/-- A refiner of settings, whose limits have to be positive. Without a token limit the budget of the
largest tier is the limit. -/
def ofSettings (tiers : TierTable) (count : Text → Nat) (rounds : Int) (tokenLimit : Option Int)
    (keptPoints : Int) : Except Text Refiner :=
  if hr : 0 < rounds then
    if hk : 0 < keptPoints then
      .ok {
        tiers, count
        rounds := rounds.toNat
        rounds_pos := by omega
        tokenLimit := tokenLimit.getD tiers.largest.maxTokens
        keptPoints := keptPoints.toNat
        keptPoints_pos := by omega }
    else .error "truncate_chars must be > 0"
  else .error "rounds must be > 0"

/-- The file prompt, cut if it is too long. The number of points that are kept is never refused. -/
def fit (r : Refiner) (prompt : Text) : Text :=
  if (r.count prompt : Int) ≤ r.tokenLimit then prompt
  else match Prompt.truncate r.keptPoints prompt with
    | .ok kept => kept
    | .error _ => prompt

theorem fit_eq (r : Refiner) (prompt : Text) :
    r.fit prompt =
      if (r.count prompt : Int) ≤ r.tokenLimit then prompt else prompt.take r.keptPoints := by
  have hpos : ¬ (r.keptPoints : Int) ≤ 0 := by have := r.keptPoints_pos; omega
  rw [fit, Prompt.truncate, if_neg hpos, Int.toNat_natCast]

/-- The model whose tier fits a conversation. -/
def modelFor (r : Refiner) (messages : List Message) : Text :=
  (r.tiers.select (r.count (Text.joinWith "\n" (messages.map Message.content)))).model

/-! ## Calls -/

/-- The state of a service, and the calls to it in order. -/
structure Talk (σ : Type) where
  state : σ
  calls : List Call

/-- A call to the model whose tier fits a conversation. -/
def ask {σ : Type} (r : Refiner) (service : Service σ) (messages : List Message) (t : Talk σ) :
    Except Failure Text × Talk σ :=
  let call := ⟨r.modelFor messages, messages⟩
  let (reply, state) := service call t.state
  (reply, ⟨state, t.calls ++ [call]⟩)

/-! ## The work of a stage -/

/-- What is known so far: the conversation that the next draft continues, the last draft, the
questions and answers about the first one, and the summary. -/
structure Draft where
  conversation : List Message
  text : Text
  questions : Text
  answers : Text
  summary : Option Summary

/-- The message with the instructions. -/
def systemMessage : Message := Prompt.system Summary.instructions

/-- What is known before the first draft. -/
def Draft.initial (filePrompt : Text) : Draft :=
  ⟨[systemMessage, ⟨.user, filePrompt⟩], [], [], [], none⟩

/-- The summary that a repaired draft holds, if any. -/
def accept (text : Text) : Except Failure (Option Summary) :=
  match Summary.ofText text with
  | .ok s => .ok (some s)
  | .error fault =>
    match fault.failure with
    | .reported _ => .ok none
    | .broken why => .error (.broken why)

/-- The summary that a draft holds, or that the model makes of it. -/
def coerce {σ : Type} (r : Refiner) (service : Service σ) (text : Text) (t : Talk σ) :
    Except Failure (Option Summary) × Talk σ :=
  match Summary.ofText text with
  | .ok s => (.ok (some s), t)
  | .error fault =>
    match fault.failure with
    | .broken why => (.error (.broken why), t)
    | .reported message =>
      match r.ask service (Prompt.repair text message Summary.instructions) t with
      | (.ok repaired, t) => (accept repaired, t)
      | (.error e, t) => (.error e, t)

/-- The work of a stage: what is known after it, or the failure. -/
def work {σ : Type} (r : Refiner) (service : Service σ) (filePrompt : Text) (d : Draft)
    (t : Talk σ) : Stage → Except Failure (Option Draft) × Talk σ
  | .draft =>
    match r.ask service d.conversation t with
    | (.ok text, t) => (.ok (some { d with text }), t)
    | (.error e, t) => (.error e, t)
  | .verify =>
    match r.ask service (Prompt.verification d.text) t with
    | (.error e, t) => (.error e, t)
    | (.ok questions, t) =>
      match r.ask service (Prompt.correction questions filePrompt) t with
      | (.error e, t) => (.error e, t)
      | (.ok answers, t) => (.ok (some { d with questions, answers }), t)
  | .densify =>
    let conversation := Prompt.density systemMessage filePrompt d.text d.questions d.answers
    (.ok (some { d with conversation }), t)
  | .coerce =>
    match r.coerce service d.text t with
    | (.error e, t) => (.error e, t)
    | (.ok none, t) => (.ok none, t)
    | (.ok (some s), t) => (.ok (some { d with summary := some s }), t)
  | _ => (.ok (some d), t)

/-! ## The whole work -/

/-- A bound on the stages that still follow. -/
def stagesLeft (rounds round : Nat) : Stage → Nat
  | .draft => 3 * (rounds - round) + 3
  | .verify => 3 * (rounds - round) + 2
  | .densify => 3 * (rounds - (round + 1)) + 4
  | .coerce => 1
  | _ => 0

/-- The round of the stage that follows. -/
def roundAfter (round : Nat) : Stage → Nat
  | .densify => round + 1
  | _ => round

theorem stagesLeft_next {s next : Stage} {round rounds : Nat} {succeeded : Bool}
    (h : s.next? round rounds succeeded = some next) :
    stagesLeft rounds (roundAfter round s) next < stagesLeft rounds round s := by
  cases s <;> grind [Stage.next?, Stage.isFinal, stagesLeft, roundAfter]

/-- Whether a stage succeeded, and what is known after it. A failure that the service reports leaves
all as it was. -/
def settle (d : Draft) : Except Failure (Option Draft) → Except Breakdown (Bool × Draft)
  | .ok (some d') => .ok (true, d')
  | .ok none => .ok (false, d)
  | .error (.reported _) => .ok (false, d)
  | .error (.broken why) => .error why

/-- The work from a stage on: the summary if there is one, unless something breaks down. -/
def continueFrom {σ : Type} (r : Refiner) (service : Service σ) (filePrompt : Text) (s : Stage)
    (round : Nat) (d : Draft) (t : Talk σ) : Except Breakdown (Option Summary) × Talk σ :=
  if s.isFinal then (.ok d.summary, t)
  else
    let (result, t) := r.work service filePrompt d t s
    match settle d result with
    | .error why => (.error why, t)
    | .ok (succeeded, d) =>
      match _h : s.next? round r.rounds succeeded with
      | none => (.ok d.summary, t)
      | some next => continueFrom r service filePrompt next (roundAfter round s) d t
termination_by stagesLeft r.rounds round s
decreasing_by exact stagesLeft_next _h

/-- The summary of a file by its prompt, and the calls that were made. -/
def summarize {σ : Type} (r : Refiner) (service : Service σ) (prompt : Text) (state : σ) :
    Except Breakdown (Option Summary) × Talk σ :=
  let filePrompt := r.fit prompt
  r.continueFrom service filePrompt .draft 0 (.initial filePrompt) ⟨state, []⟩

end Refiner

end SourceAtlas
