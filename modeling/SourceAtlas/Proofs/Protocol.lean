import SourceAtlas.Refinement

/-!
# The protocol of refinement

The work on a file passes from stage to stage. Seen from the service it is one straight line of
conversations: the first draft, questions about it, answers from the file, a further draft for each
round after the first, and at the end at most one demand for repair.

* `Refiner.Exchange`, `Refiner.Answered`, `Refiner.FailsAt`: conversations with their answers, and
  the first one that fails;
* `Refiner.script`: the conversations of all rounds;
* `Refiner.Concluded`: what becomes of the last draft;
* **`Refiner.summarize_script`**: the work on a file follows the script;
* `Refiner.summarize_script_repaired`: two rounds and a repair.
-/

namespace SourceAtlas.Refiner

variable {σ : Type} {r : Refiner} {service : Service σ}

/-! ## Exchanges -/

/-- A conversation and the answer to it. -/
abbrev Exchange := List Message × Text

/-- The call for a conversation, to the model of the tier selected for the number of tokens of its
contents, one a line. -/
def call (r : Refiner) (messages : List Message) : Call :=
  ⟨(r.tiers.select (r.count (Text.joinWith "\n" (messages.map Message.content)))).model, messages⟩

/-- The calls of exchanges, in order. -/
def calls (r : Refiner) (exchanges : List Exchange) : List Call :=
  exchanges.map fun x => r.call x.1

variable (r service) in
/-- The service gives these answers to these conversations, one after the other, and passes from one
state to another. -/
inductive Answered : σ → List Exchange → σ → Prop where
  | nil (s : σ) : Answered s [] s
  | cons {s s' s'' : σ} {messages : List Message} {text : Text} {rest : List Exchange} :
      service (r.call messages) s = (.ok text, s') → Answered s' rest s'' →
        Answered s ((messages, text) :: rest) s''

variable (r service) in
/-- The service gives the answers before place `k` and fails at it. -/
def FailsAt (s : σ) (exchanges : List Exchange) (k : Nat) (e : Failure) (s' : σ) : Prop :=
  ∃ x t, exchanges[k]? = some x ∧ Answered r service s (exchanges.take k) t ∧
    service (r.call x.1) t = (.error e, s')

theorem FailsAt.head {s s' : σ} {messages : List Message} {text : Text} {rest : List Exchange}
    {e : Failure} (h : service (r.call messages) s = (.error e, s')) :
    FailsAt r service s ((messages, text) :: rest) 0 e s' :=
  ⟨(messages, text), s, rfl, .nil s, h⟩

theorem FailsAt.cons {s s' s'' : σ} {messages : List Message} {text : Text} {rest : List Exchange}
    {k : Nat} {e : Failure} (h : service (r.call messages) s = (.ok text, s'))
    (hk : FailsAt r service s' rest k e s'') :
    FailsAt r service s ((messages, text) :: rest) (k + 1) e s'' := by
  obtain ⟨x, t, hx, hr, he⟩ := hk
  exact ⟨x, t, hx, .cons h hr, he⟩

/-! ## The script -/

/-- The further drafts `ds` after `d`. Each is asked for with the draft before it and with the same
questions and answers. -/
def refinements (filePrompt questions answers : Text) : (d : Text) → (ds : List Text) → List Exchange
  | _, [] => []
  | d, d' :: ds =>
    ([⟨.system, Prompt.systemText Summary.instructions⟩, ⟨.user, filePrompt⟩, ⟨.assistant, d⟩,
        ⟨.user, Prompt.densityLead ++ questions ++ Prompt.densityLink ++ answers ++
          Prompt.densityEnd⟩], d') ::
      refinements filePrompt questions answers d' ds

/-- The conversations of all rounds: the first draft, the questions, the answers, and the further
drafts. -/
def script (filePrompt d questions answers : Text) (ds : List Text) : List Exchange :=
  ([⟨.system, Prompt.systemText Summary.instructions⟩, ⟨.user, filePrompt⟩], d) ::
    ([⟨.system, Prompt.verificationText⟩, ⟨.user, d⟩], questions) ::
      ([⟨.system, Prompt.correctionLead ++ questions⟩, ⟨.user, filePrompt⟩], answers) ::
        refinements filePrompt questions answers d ds

/-- The demand for a repair, with the draft and what is wrong with it. -/
def repairing (draft error : Text) : List Message :=
  [⟨.user, Prompt.repairLead ++ error ++ Prompt.repairLink ++ Summary.instructions ++
    Prompt.repairEnd ++ draft⟩]

theorem refinements_cons (filePrompt questions answers d d' : Text) (ds : List Text) :
    refinements filePrompt questions answers d (d' :: ds) =
      (Prompt.density systemMessage filePrompt d questions answers, d') ::
        refinements filePrompt questions answers d' ds := rfl

theorem script_eq (filePrompt d questions answers : Text) (ds : List Text) :
    script filePrompt d questions answers ds =
      ([systemMessage, ⟨.user, filePrompt⟩], d) :: (Prompt.verification d, questions) ::
        (Prompt.correction questions filePrompt, answers) ::
          refinements filePrompt questions answers d ds := rfl

/-- What a failure makes of the work: no summary if the service reports it, else a breakdown. -/
def verdict : Failure → Except Breakdown (Option Summary)
  | .reported _ => .ok none
  | .broken why => .error why

/-- The summary that a text holds, or the failure to read one. -/
def parse (text : Text) : Except Failure Summary := (Summary.ofText text).mapError Summary.Fault.failure

variable (r service) in
/-- What becomes of the last draft, after these calls and in this state of the service: it is the
summary, or it does not fit the schema and is repaired once, or it breaks the work. -/
inductive Concluded (draft : Text) (s : σ) (calls : List Call) :
    Except Breakdown (Option Summary) × Talk σ → Prop where
  | fits {summary : Summary} : parse draft = .ok summary →
      Concluded draft s calls (.ok (some summary), ⟨s, calls⟩)
  | breaks {why : Breakdown} : parse draft = .error (.broken why) →
      Concluded draft s calls (.error why, ⟨s, calls⟩)
  | refused {message : Text} {e : Failure} {s' : σ} : parse draft = .error (.reported message) →
      service (r.call (repairing draft message)) s = (.error e, s') →
      Concluded draft s calls (verdict e,
        ⟨s', calls ++ [r.call (repairing draft message)]⟩)
  | repaired {message text : Text} {s' : σ} : parse draft = .error (.reported message) →
      service (r.call (repairing draft message)) s = (.ok text, s') →
      Concluded draft s calls (match parse text with
          | .ok summary => .ok (some summary)
          | .error e => verdict e,
        ⟨s', calls ++ [r.call (repairing draft message)]⟩)

variable (r service) in
/-- What becomes of the work when these exchanges are to come and then the last draft: up to the
first call that fails, or to the end. -/
def Follows (s : σ) (calls : List Call) (exchanges : List Exchange) (last : Text)
    (outcome : Except Breakdown (Option Summary) × Talk σ) : Prop :=
  (∃ k e s', FailsAt r service s exchanges k e s' ∧
    outcome = (verdict e, ⟨s', calls ++ r.calls (exchanges.take (k + 1))⟩)) ∨
  ∃ s', Answered r service s exchanges s' ∧
    Concluded r service last s' (calls ++ r.calls exchanges) outcome

theorem Follows.fails {s s' : σ} {messages : List Message} {text last : Text} {rest : List Exchange}
    {calls : List Call} {e : Failure} {outcome : Except Breakdown (Option Summary) × Talk σ}
    (h : service (r.call messages) s = (.error e, s'))
    (ho : outcome = (verdict e, ⟨s', calls ++ [r.call messages]⟩)) :
    Follows r service s calls ((messages, text) :: rest) last outcome :=
  .inl ⟨0, e, s', .head h, ho⟩

theorem Follows.cons {s s' : σ} {messages : List Message} {text last : Text} {rest : List Exchange}
    {calls : List Call} {outcome : Except Breakdown (Option Summary) × Talk σ}
    (h : service (r.call messages) s = (.ok text, s'))
    (hf : Follows r service s' (calls ++ [r.call messages]) rest last outcome) :
    Follows r service s calls ((messages, text) :: rest) last outcome := by
  rcases hf with ⟨k, e, s'', hk, ho⟩ | ⟨s'', hr, hc⟩
  · refine .inl ⟨k + 1, e, s'', .cons h hk, ?_⟩
    rw [ho, List.append_assoc]
    rfl
  · refine .inr ⟨s'', .cons h hr, ?_⟩
    rw [List.append_assoc] at hc
    exact hc

/-! ## One stage -/

theorem ask_eq (messages : List Message) (t : Talk σ) :
    r.ask service messages t =
      ((service (r.call messages) t.state).1,
        ⟨(service (r.call messages) t.state).2, t.calls ++ [r.call messages]⟩) := rfl

theorem ask_of_service {messages : List Message} {t : Talk σ} {reply : Except Failure Text} {s : σ}
    (h : service (r.call messages) t.state = (reply, s)) :
    r.ask service messages t = (reply, ⟨s, t.calls ++ [r.call messages]⟩) := by
  rw [ask_eq, h]

variable {filePrompt : Text} {d d' : Draft} {t t' : Talk σ} {round : Nat} {s next : Stage}

theorem continueFrom_final (hs : s.isFinal = true) :
    r.continueFrom service filePrompt s round d t = (.ok d.summary, t) := by
  rw [continueFrom, if_pos hs]

/-- A stage that succeeds is followed by the next one. -/
theorem continueFrom_succeeds (hs : s.isFinal = false)
    (hw : r.work service filePrompt d t s = (.ok (some d'), t'))
    (hn : s.next? round r.rounds true = some next) :
    r.continueFrom service filePrompt s round d t =
      r.continueFrom service filePrompt next (roundAfter round s) d' t' := by
  rw [continueFrom, if_neg (by simp [hs]), hw]
  dsimp only [settle]
  split
  · rename_i h; rw [hn] at h; cases h
  · rename_i h; rw [hn] at h; cases h; rfl

theorem next?_of_failure (hs : s.isFinal = false) (round rounds : Int) :
    s.next? round rounds false = some .failed := by
  simp [Stage.next?, hs]

/-- A stage whose work yields nothing ends the work without a new summary. -/
theorem continueFrom_yields_nothing (hs : s.isFinal = false)
    (hw : r.work service filePrompt d t s = (.ok none, t')) :
    r.continueFrom service filePrompt s round d t = (.ok d.summary, t') := by
  rw [continueFrom, if_neg (by simp [hs]), hw]
  dsimp only [settle]
  split
  · rfl
  · rename_i h
    rw [next?_of_failure hs] at h
    cases h
    exact continueFrom_final rfl

/-- A stage that fails ends the work. -/
theorem continueFrom_fails {e : Failure} (hs : s.isFinal = false) (hd : d.summary = none)
    (hw : r.work service filePrompt d t s = (.error e, t')) :
    r.continueFrom service filePrompt s round d t = (verdict e, t') := by
  rw [continueFrom, if_neg (by simp [hs]), hw]
  cases e with
  | broken why => rfl
  | reported message =>
    dsimp only [settle, verdict]
    split
    · rw [hd]
    · rename_i h
      rw [next?_of_failure hs] at h
      cases h
      rw [continueFrom_final rfl, hd]

/-! ## The last draft -/

theorem parse_of_error {text : Text} {fault : Summary.Fault}
    (h : Summary.ofText text = .error fault) : parse text = .error fault.failure := by
  rw [parse, h]
  rfl

theorem accept_eq (text : Text) :
    accept text = match parse text with
      | .ok summary => .ok (some summary)
      | .error (.reported _) => .ok none
      | .error (.broken why) => .error (.broken why) := by
  unfold accept
  cases h : Summary.ofText text with
  | ok summary =>
    rw [parse, h]
    rfl
  | error fault =>
    rw [parse_of_error h]
    dsimp only
    cases fault.failure <;> rfl

theorem coerce_eq (text : Text) (t : Talk σ) :
    r.coerce service text t = match parse text with
      | .ok summary => (.ok (some summary), t)
      | .error (.broken why) => (.error (.broken why), t)
      | .error (.reported message) =>
        match r.ask service (Prompt.repair text message Summary.instructions) t with
        | (.ok repaired, t) => (accept repaired, t)
        | (.error e, t) => (.error e, t) := by
  unfold coerce
  cases h : Summary.ofText text with
  | ok summary =>
    rw [parse, h]
    rfl
  | error fault =>
    rw [parse_of_error h]
    dsimp only
    cases fault.failure <;> rfl

variable (r service filePrompt) in
theorem work_coerce (d : Draft) (t : Talk σ) :
    r.work service filePrompt d t .coerce = match r.coerce service d.text t with
      | (.error e, t) => (.error e, t)
      | (.ok none, t) => (.ok none, t)
      | (.ok (some summary), t) => (.ok (some { d with summary := some summary }), t) := rfl

theorem next?_coerce (round rounds : Int) : Stage.coerce.next? round rounds true = some .accepted := rfl

/-- A draft that was repaired is the summary, or there is none. -/
theorem continueFrom_repaired {message text : Text} {talk : Talk σ} (hd : d.summary = none)
    (hp : parse d.text = .error (.reported message))
    (ha : r.ask service (Prompt.repair d.text message Summary.instructions) t = (.ok text, talk)) :
    r.continueFrom service filePrompt .coerce round d t =
      (match parse text with
        | .ok summary => .ok (some summary)
        | .error e => verdict e, talk) := by
  have hw := work_coerce r service filePrompt d t
  rw [coerce_eq, hp] at hw
  simp only [ha, accept_eq] at hw
  cases hq : parse text with
  | ok summary =>
    rw [hq] at hw
    rw [continueFrom_succeeds rfl hw (next?_coerce _ _), continueFrom_final rfl]
  | error e =>
    rw [hq] at hw
    cases e with
    | reported _ => rw [continueFrom_yields_nothing rfl hw, hd]; rfl
    | broken why => rw [continueFrom_fails rfl hd hw]

/-- **The last draft is the summary, or is repaired once.** -/
theorem continueFrom_coerce (hd : d.summary = none) :
    Concluded r service d.text t.state t.calls
      (r.continueFrom service filePrompt .coerce round d t) := by
  have hw := work_coerce r service filePrompt d t
  rw [coerce_eq] at hw
  cases hp : parse d.text with
  | ok summary =>
    rw [hp] at hw
    rw [continueFrom_succeeds rfl hw (next?_coerce _ _), continueFrom_final rfl]
    exact .fits hp
  | error e =>
    rw [hp] at hw
    cases e with
    | broken why =>
      rw [continueFrom_fails rfl hd hw]
      exact .breaks hp
    | reported message =>
      obtain ⟨reply, s', hc⟩ : ∃ reply s',
          service (r.call (Prompt.repair d.text message Summary.instructions)) t.state =
            (reply, s') := ⟨_, _, rfl⟩
      have ha := ask_of_service hc
      cases reply with
      | error e =>
        simp only [ha] at hw
        rw [continueFrom_fails rfl hd hw]
        exact .refused hp hc
      | ok text =>
        rw [continueFrom_repaired hd hp ha]
        exact .repaired hp hc

/-! ## The rounds -/

/-- The stage after the questions, or after a further draft, when `n` more drafts are to come. -/
def afterDraft : (n : Nat) → Stage
  | 0 => .coerce
  | _ + 1 => .densify

theorem next?_verify {n : Nat} (h : round + 1 + n = r.rounds) :
    Stage.verify.next? round r.rounds true = some (afterDraft n) := by
  rw [← h]
  cases n with
  | zero =>
    have hge : (round : Int) + 1 ≥ (round + 1 + 0 : Nat) := by omega
    simp only [Stage.next?, Stage.isFinal, afterDraft, hge, if_true, Bool.not_true,
      Bool.false_eq_true, if_false]
  | succ n =>
    have hlt : ¬ (round : Int) + 1 ≥ (round + 1 + (n + 1) : Nat) := by omega
    simp only [Stage.next?, Stage.isFinal, afterDraft, hlt, if_false, Bool.not_true,
      Bool.false_eq_true]

theorem next?_draft {n : Nat} (h : round + 1 + n = r.rounds) (hr : round ≠ 0) :
    Stage.draft.next? round r.rounds true = some (afterDraft n) := by
  rw [← next?_verify h]
  simp [Stage.next?, Stage.isFinal, hr]

theorem continueFrom_draft {text : Text} (ha : r.ask service d.conversation t = (.ok text, t'))
    (hn : Stage.draft.next? round r.rounds true = some next) :
    r.continueFrom service filePrompt .draft round d t =
      r.continueFrom service filePrompt next round { d with text } t' := by
  have hw : r.work service filePrompt d t .draft = (.ok (some { d with text }), t') := by
    simp only [work, ha]
  exact continueFrom_succeeds rfl hw hn

theorem continueFrom_verify {n : Nat} {questions answers : Text} {t'' : Talk σ}
    (hq : r.ask service (Prompt.verification d.text) t = (.ok questions, t'))
    (ha : r.ask service (Prompt.correction questions filePrompt) t' = (.ok answers, t''))
    (h : round + 1 + n = r.rounds) :
    r.continueFrom service filePrompt .verify round d t =
      r.continueFrom service filePrompt (afterDraft n) round { d with questions, answers } t'' := by
  have hw : r.work service filePrompt d t .verify = (.ok (some { d with questions, answers }), t'') := by
    simp only [work, hq, ha]
  exact continueFrom_succeeds rfl hw (next?_verify h)

theorem continueFrom_densify :
    r.continueFrom service filePrompt .densify round d t =
      r.continueFrom service filePrompt .draft (round + 1) { d with
        conversation := Prompt.density systemMessage filePrompt d.text d.questions d.answers } t :=
  continueFrom_succeeds rfl rfl rfl

variable (r service) in
theorem exists_reply (messages : List Message) (s : σ) :
    ∃ reply s', service (r.call messages) s = (reply, s') := ⟨_, _, rfl⟩

/-- **The rounds after the questions follow the script**, with one further draft each. -/
theorem follows_refinements : ∀ (n round : Nat) (d : Draft) (t : Talk σ),
    round + 1 + n = r.rounds → d.summary = none →
      ∃ ds, ds.length = n ∧
        Follows r service t.state t.calls (refinements filePrompt d.questions d.answers d.text ds)
          (ds.getLastD d.text) (r.continueFrom service filePrompt (afterDraft n) round d t)
  | 0, round, d, t, _, hd => by
    refine ⟨[], rfl, .inr ⟨t.state, .nil _, ?_⟩⟩
    have hc : Concluded r service d.text t.state t.calls
        (r.continueFrom service filePrompt .coerce round d t) := continueFrom_coerce hd
    rwa [← List.append_nil t.calls] at hc
  | n + 1, round, d, t, h, hd => by
    rw [afterDraft, continueFrom_densify]
    obtain ⟨reply, s', hc⟩ := exists_reply r service
      (Prompt.density systemMessage filePrompt d.text d.questions d.answers) t.state
    have ha := ask_of_service hc
    cases reply with
    | error e =>
      refine ⟨List.replicate (n + 1) [], by simp, ?_⟩
      rw [List.replicate_succ, refinements_cons]
      exact .fails hc (continueFrom_fails rfl hd (by simp only [work, ha]))
    | ok text =>
      have hn : Stage.draft.next? (round + 1 : Nat) r.rounds true = some (afterDraft n) :=
        next?_draft (by omega) (by omega)
      rw [continueFrom_draft (d := { d with
        conversation := Prompt.density systemMessage filePrompt d.text d.questions d.answers })
        ha hn]
      obtain ⟨ds, hds, hf⟩ := follows_refinements n (round + 1) { d with
          conversation := Prompt.density systemMessage filePrompt d.text d.questions d.answers
          text } ⟨s', _⟩ (by omega) hd
      refine ⟨text :: ds, by simp [hds], ?_⟩
      rw [refinements_cons, List.getLastD_cons]
      exact .cons hc hf

/-- **The work on a file follows the script** for some texts, with one draft for each round. -/
theorem summarize_script (r : Refiner) (service : Service σ) (prompt : Text) (state : σ) :
    ∃ d questions answers ds, ds.length + 1 = r.rounds ∧
      Follows r service state [] (script (r.fit prompt) d questions answers ds) (ds.getLastD d)
        (r.summarize service prompt state) := by
  obtain ⟨n, hn⟩ : ∃ n, 0 + 1 + n = r.rounds := ⟨r.rounds - 1, by have := r.rounds_pos; omega⟩
  have hfill : (List.replicate n ([] : Text)).length + 1 = r.rounds := by simp; omega
  unfold summarize
  simp only [script_eq]
  generalize r.fit prompt = filePrompt
  obtain ⟨reply, s₁, h₁⟩ := exists_reply r service [systemMessage, ⟨.user, filePrompt⟩] state
  have ha₁ : r.ask service [systemMessage, ⟨.user, filePrompt⟩] ⟨state, []⟩ =
      (reply, ⟨s₁, [r.call [systemMessage, ⟨.user, filePrompt⟩]]⟩) := ask_of_service h₁
  cases reply with
  | error e =>
    refine ⟨[], [], [], _, hfill, .fails h₁ ?_⟩
    exact continueFrom_fails rfl rfl (by simp only [work, Draft.initial, ha₁, List.nil_append])
  | ok d =>
    have hn₁ : Stage.draft.next? (0 : Nat) r.rounds true = some .verify := rfl
    rw [continueFrom_draft (d := .initial filePrompt) ha₁ hn₁]
    generalize hc₁ : [r.call [systemMessage, ⟨.user, filePrompt⟩]] = calls₁
    obtain ⟨reply, s₂, h₂⟩ := exists_reply r service (Prompt.verification d) s₁
    have ha₂ := ask_of_service (t := ⟨s₁, calls₁⟩) h₂
    cases reply with
    | error e =>
      refine ⟨d, [], [], _, hfill, .cons h₁ (.fails h₂ ?_)⟩
      rw [List.nil_append, hc₁]
      exact continueFrom_fails rfl rfl (by simp only [work, ha₂])
    | ok questions =>
      generalize hc₂ : calls₁ ++ [r.call (Prompt.verification d)] = calls₂ at ha₂
      obtain ⟨reply, s₃, h₃⟩ := exists_reply r service (Prompt.correction questions filePrompt) s₂
      have ha₃ := ask_of_service (t := ⟨s₂, calls₂⟩) h₃
      cases reply with
      | error e =>
        refine ⟨d, questions, [], _, hfill, .cons h₁ (.cons h₂ (.fails h₃ ?_))⟩
        rw [List.nil_append, hc₁, hc₂]
        exact continueFrom_fails rfl rfl (by simp only [work, ha₂, ha₃])
      | ok answers =>
        rw [continueFrom_verify (d := { Draft.initial filePrompt with text := d }) ha₂ ha₃ hn]
        obtain ⟨ds, hds, hf⟩ := follows_refinements n 0
          ⟨[systemMessage, ⟨.user, filePrompt⟩], d, questions, answers, none⟩ ⟨s₃, _⟩ hn rfl
        refine ⟨d, questions, answers, ds, by omega, .cons h₁ (.cons h₂ (.cons h₃ ?_))⟩
        rw [List.nil_append, hc₁, hc₂]
        exact hf

/-! ## A run -/

/-- The service that gives the texts that are left, one for each call. -/
def dealing : Service (List Text)
  | _, [] => (.error (.reported "No text is left."), [])
  | _, text :: rest => (.ok text, rest)

theorem texts_of_answered {s s' : List Text} {exchanges : List Exchange}
    (h : Answered r dealing s exchanges s') : s = exchanges.map Prod.snd ++ s' := by
  induction h with
  | nil => rfl
  | @cons s _ _ _ _ _ hc _ ih =>
    cases s with
    | nil => cases hc
    | cons text rest => cases hc; rw [ih]; rfl

/-- It fails only when no text is left. -/
theorem FailsAt.length_le {s s' : List Text} {exchanges : List Exchange} {k : Nat} {e : Failure}
    (h : FailsAt r dealing s exchanges k e s') : k < exchanges.length ∧ s.length ≤ k := by
  obtain ⟨x, t, hx, ha, he⟩ := h
  have hk : k < exchanges.length := (List.getElem?_eq_some_iff.1 hx).1
  refine ⟨hk, ?_⟩
  cases t with
  | cons => cases he
  | nil => simp [texts_of_answered ha, Nat.le_of_lt hk]

/-- Two rounds, with a small model for short conversations. -/
def twoRounds : Refiner where
  tiers := ⟨[⟨"small", "s", 1000⟩, ⟨"large", "l", 10000⟩], by decide, by decide, by decide⟩
  count := List.length
  rounds := 2
  rounds_pos := by decide
  tokenLimit := 100
  keptPoints := 50
  keptPoints_pos := by decide

/-- The last draft is no summary and is repaired. -/
theorem summarize_script_repaired : ∃ s : Summary, s.description = Text.ofString "x" ∧ s.tag = .ui ∧
    twoRounds.summarize dealing "p"
        ["d", "q", "a", "e", "\x7b\"fileDescription\": \"x\", \"tag\": \"ui\"\x7d"] =
      (.ok (some s), ⟨[], [
        twoRounds.call [⟨.system, Prompt.systemText Summary.instructions⟩, ⟨.user, "p"⟩],
        twoRounds.call [⟨.system, Prompt.verificationText⟩, ⟨.user, "d"⟩],
        twoRounds.call [⟨.system, Prompt.correctionLead ++ "q"⟩, ⟨.user, "p"⟩],
        twoRounds.call [⟨.system, Prompt.systemText Summary.instructions⟩, ⟨.user, "p"⟩,
          ⟨.assistant, "d"⟩, ⟨.user, Prompt.densityLead ++ "q" ++ Prompt.densityLink ++ "a" ++
            Prompt.densityEnd⟩],
        twoRounds.call [⟨.user, Prompt.repairLead ++ "No JSON object found in model output." ++
          Prompt.repairLink ++ Summary.instructions ++ Prompt.repairEnd ++ "e"⟩]]⟩) := by
  obtain ⟨d, q, a, ds, hds, hf⟩ := summarize_script twoRounds dealing "p"
    ["d", "q", "a", "e", "\x7b\"fileDescription\": \"x\", \"tag\": \"ui\"\x7d"]
  obtain ⟨e, rfl⟩ : ∃ e, ds = [e] := List.length_eq_one_iff.1 (Nat.succ.inj hds)
  have hnone : Summary.ofText "e" = .error .noObject := by rfl
  have hp : parse "e" = .error (.reported "No JSON object found in model output.") :=
    parse_of_error hnone
  obtain ⟨s, hs, hdescription, htag⟩ :
      ∃ s, parse "\x7b\"fileDescription\": \"x\", \"tag\": \"ui\"\x7d" = .ok s ∧
        s.description = Text.ofString "x" ∧ s.tag = .ui := by
    have hparts : (parse "\x7b\"fileDescription\": \"x\", \"tag\": \"ui\"\x7d").toOption.map
        (fun s => (s.description, s.tag)) = some (Text.ofString "x", .ui) := by decide +kernel
    cases h : parse "\x7b\"fileDescription\": \"x\", \"tag\": \"ui\"\x7d" with
    | error fault =>
      rw [h] at hparts
      cases hparts
    | ok s =>
      rw [h] at hparts
      exact ⟨s, rfl, Prod.mk.inj (Option.some.inj hparts)⟩
  refine ⟨s, hdescription, htag, ?_⟩
  rcases hf with ⟨k, e', s', hk, -⟩ | ⟨s', ha, hc⟩
  · have hlt := hk.length_le
    simp only [script, refinements, List.length_cons, List.length_nil] at hlt
    omega
  · have ht := texts_of_answered ha
    simp only [script, refinements, List.map_cons, List.map_nil, List.cons_append,
      List.nil_append, List.cons.injEq] at ht
    obtain ⟨rfl, rfl, rfl, rfl, rfl⟩ := ht
    generalize twoRounds.summarize _ _ _ = outcome at hc ⊢
    cases hc with
    | fits h => cases hp.symm.trans h
    | breaks h => cases hp.symm.trans h
    | refused h hr => cases hr
    | repaired h hr =>
      cases hp.symm.trans h
      cases hr
      rw [hs]
      rfl

end SourceAtlas.Refiner
