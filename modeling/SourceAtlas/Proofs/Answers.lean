import SourceAtlas.Proofs.Blank
import SourceAtlas.Provider

/-!
# Answers of providers

A response is searched for the text of an answer, and everything in it may be missing, empty or of
another kind. Where the text is not found the failure is reported. One provider's choices are looked
into without a test of their kind, so that some of them break the client.

* `Provider.Holds`: the text that a response holds;
* `Provider.BreaksOn`, `Provider.Breaks`: the responses that nothing is prepared for, and how they
  break the client;
* `Response.answer_of_holds`, `Response.answer_of_breaks`, `Response.answer_cases`: what is found in
  a response;
* `Client.answerOf_of_holds`, `Client.answerOf_of_breaks`, `Client.answerOf_cases`: what the client
  makes of it;
* **`Client.service_mapping`**: what comes of a call whose response is a mapping.
-/

namespace SourceAtlas

variable {p : Provider} {ms : List (Text × Json)} {kind : Breakdown.Kind} {x : Text}

namespace Provider

/-- The text that a response holds: the content of the message of its first choice, or the content
of its message. -/
inductive Holds : Provider → List (Text × Json) → Text → Prop where
  | choice {ms choice message : List (Text × Json)} {others : List Json} {x : Text} :
      Json.member? "choices" ms = some (.list (.object choice :: others)) →
      Json.member? "message" choice = some (.object message) →
      Json.member? "content" message = some (.text x) → Holds openai ms x
  | message {ms message : List (Text × Json)} {x : Text} :
      Json.member? "message" ms = some (.object message) →
      Json.member? "content" message = some (.text x) → Holds ollama ms x

/-- Choices that nothing is prepared for, and the kind of the breakdown: a flag or a number has no
first item, no key of an object is a place, and a first choice or its message that is no object has
no members. -/
inductive BreaksOn : Json → Breakdown.Kind → Prop where
  | flag : BreaksOn (.bool true) .type
  | int {n : Int} : n ≠ 0 → BreaksOn (.int n) .type
  | float {x : Binary64} : x.isZero = false → BreaksOn (.float x) .type
  | object {m : Text × Json} {ms : List (Text × Json)} : BreaksOn (.object (m :: ms)) .lookup
  | text {c : Point} {t : Text} : BreaksOn (.text (c :: t)) .attribute
  | choice {first : Json} {others : List Json} : (∀ choice, first ≠ .object choice) →
      BreaksOn (.list (first :: others)) .attribute
  | message {choice : List (Text × Json)} {message : Json} {others : List Json} :
      Json.member? "message" choice = some message → (∀ ms, message ≠ .object ms) →
      BreaksOn (.list (.object choice :: others)) .attribute

/-- A response of the provider breaks the client. -/
def Breaks (p : Provider) (ms : List (Text × Json)) (kind : Breakdown.Kind) : Prop :=
  p = openai ∧ ∃ choices, Json.member? "choices" ms = some choices ∧ BreaksOn choices kind

end Provider

open Provider (Holds BreaksOn Breaks)

/-! ## What is found -/

namespace Response

/-- The text of a first choice. -/
def firstText : Json → Except Breakdown Text
  | .object choice =>
    match Json.member? "message" choice with
    | none => .ok []
    | some (.object message) => .ok (trimmed (Json.member? "content" message))
    | some _ => broken .attribute
  | _ => broken .attribute

/-- What is found in choices. -/
theorem choiceText_eq {choices : Json} (h : Json.member? "choices" ms = some choices) :
    choiceText ⟨false, .object ms⟩ =
      if choices.isTruthy then firstItem ⟨false, choices⟩ >>= fun first => firstText first.value
      else .ok [] := by
  have htruthy : isTruthy ⟨false, choices⟩ = choices.isTruthy := by cases choices <;> rfl
  rw [choiceText, mapping?, if_neg Bool.false_ne_true]
  dsimp only
  rw [h, Option.getD_some, part, htruthy]
  cases choices.isTruthy with
  | false => rfl
  | true =>
    cases choices with
    | list items =>
      cases items with
      | nil => rfl
      | cons first others => cases first <;> rfl
    | text t => cases t <;> rfl
    | null | bool | int | float | object => rfl

theorem choiceText_of_none (h : Json.member? "choices" ms = none) :
    choiceText ⟨false, .object ms⟩ = .ok [] := by
  rw [choiceText, mapping?, if_neg Bool.false_ne_true]
  dsimp only
  rw [h]
  rfl

/-- What is found in a list of choices is found in the first. -/
theorem choiceText_list {first : Json} {others : List Json}
    (h : Json.member? "choices" ms = some (.list (first :: others))) :
    choiceText ⟨false, .object ms⟩ = firstText first :=
  choiceText_eq h

theorem answer_of_holds (h : Holds p ms x) : answer ⟨false, .object ms⟩ p = .ok x.trim := by
  cases h with
  | choice hchoices hmessage hcontent =>
    rw [answer, choiceText_list hchoices, firstText, hmessage]
    dsimp only
    rw [hcontent, trimmed]
  | message hmessage hcontent =>
    rw [answer, messageText, mapping?, if_neg Bool.false_ne_true]
    dsimp only
    rw [hmessage]
    dsimp only
    rw [hcontent, trimmed]

theorem answer_of_breaks (h : Breaks p ms kind) :
    answer ⟨false, .object ms⟩ p = .error ⟨kind, []⟩ := by
  obtain ⟨rfl, choices, hchoices, hbreaks⟩ := h
  rw [answer]
  cases hbreaks with
  | flag | object | text => exact choiceText_eq hchoices
  | int hn => rw [choiceText_eq hchoices, if_pos (by simpa [Json.isTruthy] using hn)]; rfl
  | float hx => rw [choiceText_eq hchoices, if_pos (by simpa [Json.isTruthy] using hx)]; rfl
  | @choice first others hfirst =>
    rw [choiceText_list hchoices]
    cases first with
    | object choice => exact absurd rfl (hfirst choice)
    | null | bool | int | float | text | list => rfl
  | @message choice message others hmessage hother =>
    rw [choiceText_list hchoices, firstText, hmessage]
    cases message with
    | object ms => exact absurd rfl (hother ms)
    | null | bool | int | float | text | list => rfl

/-- What content there is: a text, or nothing that counts. -/
theorem trimmed_cases (content : Option Json) :
    (∃ x, content = some (.text x)) ∨ trimmed content = [] := by
  match content with
  | none => exact .inr rfl
  | some (.text x) => exact .inl ⟨x, rfl⟩
  | some .null | some (.bool _) | some (.int _) | some (.float _) | some (.list _)
  | some (.object _) => exact .inr rfl

/-- A first choice breaks the client, has a text, or has none. -/
theorem firstText_cases {first : Json} {others : List Json}
    (h : Json.member? "choices" ms = some (.list (first :: others))) :
    (∃ kind, Breaks .openai ms kind) ∨ (∃ x, Holds .openai ms x) ∨ firstText first = .ok [] := by
  cases first with
  | object choice =>
    cases hm : Json.member? "message" choice with
    | none => exact .inr (.inr (by rw [firstText, hm]))
    | some message =>
      cases message with
      | object message =>
        rcases trimmed_cases (Json.member? "content" message) with ⟨x, hx⟩ | hnil
        · exact .inr (.inl ⟨x, .choice h hm hx⟩)
        · exact .inr (.inr (by rw [firstText, hm]; exact congrArg Except.ok hnil))
      | null | bool | int | float | text | list =>
        exact .inl ⟨_, rfl, _, h, .message hm fun ms he => nomatch he⟩
  | null | bool | int | float | text | list =>
    exact .inl ⟨_, rfl, _, h, .choice fun choice he => nomatch he⟩

/-- Choices break the client, count as none, or are a list with a first one. -/
theorem breaksOn_cases (choices : Json) : (∃ kind, BreaksOn choices kind) ∨
    choices.isTruthy = false ∨ ∃ first others, choices = .list (first :: others) := by
  cases choices with
  | null => exact .inr (.inl rfl)
  | bool b =>
    cases b with
    | false => exact .inr (.inl rfl)
    | true => exact .inl ⟨_, .flag⟩
  | int n =>
    by_cases hn : n = 0
    · exact .inr (.inl (by simp [Json.isTruthy, hn]))
    · exact .inl ⟨_, .int hn⟩
  | float x =>
    cases hx : x.isZero with
    | false => exact .inl ⟨_, .float hx⟩
    | true => exact .inr (.inl (by simp [Json.isTruthy, hx]))
  | text t =>
    cases t with
    | nil => exact .inr (.inl rfl)
    | cons c t => exact .inl ⟨_, .text⟩
  | list items =>
    cases items with
    | nil => exact .inr (.inl rfl)
    | cons first others => exact .inr (.inr ⟨first, others, rfl⟩)
  | object ms =>
    cases ms with
    | nil => exact .inr (.inl rfl)
    | cons m ms => exact .inl ⟨_, .object⟩

/-- **What is found in a response**: something that breaks the client, a text, or nothing. -/
theorem answer_cases (p : Provider) (ms : List (Text × Json)) : (∃ kind, Breaks p ms kind) ∨
    (∃ x, Holds p ms x) ∨ answer ⟨false, .object ms⟩ p = .ok [] := by
  cases p with
  | openai =>
    rw [answer]
    cases hc : Json.member? "choices" ms with
    | none => exact .inr (.inr (choiceText_of_none hc))
    | some choices =>
      rcases breaksOn_cases choices with ⟨kind, hbreaks⟩ | hfalsy | ⟨first, others, rfl⟩
      · exact .inl ⟨kind, rfl, choices, hc, hbreaks⟩
      · exact .inr (.inr (by rw [choiceText_eq hc, hfalsy]; rfl))
      · rw [choiceText_list hc]
        exact firstText_cases hc
  | ollama =>
    right
    have hopen : answer ⟨false, .object ms⟩ .ollama = .ok (messageText ⟨false, .object ms⟩) := rfl
    rw [hopen, messageText, mapping?, if_neg Bool.false_ne_true]
    dsimp only
    split
    · rename_i message hm
      rcases trimmed_cases (Json.member? "content" message) with ⟨x, hx⟩ | hnil
      · exact .inl ⟨x, .message hm hx⟩
      · exact .inr (congrArg Except.ok hnil)
    · exact .inr rfl

end Response

/-! ## What comes of it -/

namespace Client

variable {σ : Type} {c : Client} {s : ClientState σ}

/-- The report of a response in which no text is found. -/
def withoutContent (p : Provider) : Failure :=
  .reported (p.title ++ " response does not contain generation content.")

/-- A mapping counts no usage. -/
theorem receive_mapping (c : Client) (ms : List (Text × Json)) (s : ClientState σ) :
    c.receive ⟨false, .object ms⟩ s = (c.answerOf ⟨false, .object ms⟩, s) := by
  unfold receive
  cases c.provider <;> rfl

/-- What becomes of a text that is found. -/
theorem answerOf_of_ok {t : Text} (h : Response.answer ⟨false, .object ms⟩ c.provider = .ok t) :
    c.answerOf ⟨false, .object ms⟩ =
      if t = [] then .error (withoutContent c.provider) else .ok t := by
  rw [answerOf, h]
  cases t <;> rfl

theorem answerOf_of_breaks (h : Breaks c.provider ms kind) :
    c.answerOf ⟨false, .object ms⟩ = .error (.broken ⟨kind, []⟩) := by
  rw [answerOf, Response.answer_of_breaks h]

theorem answerOf_of_holds (h : Holds c.provider ms x) (hne : x.trim ≠ []) :
    c.answerOf ⟨false, .object ms⟩ = .ok x.trim := by
  rw [answerOf_of_ok (Response.answer_of_holds h), if_neg hne]

/-- **The three outcomes**: a breakdown, an answer, or a report. -/
theorem answerOf_cases (c : Client) (ms : List (Text × Json)) :
    (∃ kind, Breaks c.provider ms kind ∧
      c.answerOf ⟨false, .object ms⟩ = .error (.broken ⟨kind, []⟩)) ∨
    (∃ x, Holds c.provider ms x ∧ x.trim ≠ [] ∧ c.answerOf ⟨false, .object ms⟩ = .ok x.trim) ∨
    c.answerOf ⟨false, .object ms⟩ = .error (withoutContent c.provider) := by
  rcases Response.answer_cases c.provider ms with ⟨kind, hbreaks⟩ | ⟨x, hx⟩ | hnil
  · exact .inl ⟨kind, hbreaks, answerOf_of_breaks hbreaks⟩
  · by_cases hne : x.trim = []
    · exact .inr (.inr (by rw [answerOf_of_ok (Response.answer_of_holds hx), if_pos hne]))
    · exact .inr (.inl ⟨x, hx, hne, answerOf_of_holds hx hne⟩)
  · exact .inr (.inr (by rw [answerOf_of_ok hnil, if_pos rfl]))

/-- **What comes of a call whose response is a mapping**: the trimmed text that the response holds,
or a report if it holds none or a blank one; some responses of one provider break the client
instead. An answer is not empty and has no white space at its ends, and nothing but the state of the
library changes. -/
theorem service_mapping (c : Client) (library : Library σ) (call : Call) (s connected : ClientState σ)
    (ms : List (Text × Json)) (l : σ)
    (hconnect : c.connect library s = (.ok (), connected))
    (hsend : library.send (c.payload call) connected.library = (.ok ⟨false, .object ms⟩, l)) :
    ∃ outcome, c.service library call s = (outcome, { connected with library := l }) ∧
      (∀ t, outcome = .ok t ↔ t ≠ [] ∧ ∃ x, Holds c.provider ms x ∧ x.trim = t) ∧
      (∀ b, outcome = .error (.broken b) ↔ ∃ kind, Breaks c.provider ms kind ∧ b = ⟨kind, []⟩) ∧
      (∀ message, outcome = .error (.reported message) →
        message = c.provider.title ++ " response does not contain generation content.") ∧
      (((∃ t, outcome = .ok t ∧ t ≠ [] ∧ (∀ q ∈ t.head?, q.isBlank = false) ∧
          ∀ q ∈ t.getLast?, q.isBlank = false) ∨
        ∃ message, outcome = .error (.reported message)) ↔ ¬ ∃ kind, Breaks c.provider ms kind) := by
  have hservice : c.service library call s =
      (c.answerOf ⟨false, .object ms⟩, { connected with library := l }) := by
    rw [service, hconnect]
    dsimp only
    rw [hsend]
    exact receive_mapping c ms _
  have hcases := answerOf_cases c ms
  refine ⟨_, hservice, fun t => ⟨fun h => ?_, ?_⟩, fun b => ⟨fun h => ?_, ?_⟩, fun message h => ?_, ?_⟩
  · rw [h] at hcases
    obtain ⟨-, -, ⟨⟩⟩ | ⟨x, hx, hne, he⟩ | ⟨⟨⟩⟩ := hcases
    cases he
    exact ⟨hne, x, hx, rfl⟩
  · rintro ⟨hne, x, hx, rfl⟩
    exact answerOf_of_holds hx hne
  · rw [h] at hcases
    obtain ⟨kind, hbreaks, he⟩ | ⟨-, -, -, ⟨⟩⟩ | ⟨⟨⟩⟩ := hcases
    cases he
    exact ⟨kind, hbreaks, rfl⟩
  · rintro ⟨kind, hbreaks, rfl⟩
    exact answerOf_of_breaks hbreaks
  · rw [h] at hcases
    obtain ⟨-, -, ⟨⟩⟩ | ⟨-, -, -, ⟨⟩⟩ | he := hcases
    cases he
    rfl
  · constructor
    · rintro h ⟨kind, hbreaks⟩
      rw [answerOf_of_breaks hbreaks] at h
      obtain ⟨t, ⟨⟩, -⟩ | ⟨message, ⟨⟩⟩ := h
    · intro hnot
      obtain ⟨kind, hbreaks, -⟩ | ⟨x, -, hne, he⟩ | he := hcases
      · exact absurd ⟨kind, hbreaks⟩ hnot
      · exact .inl ⟨_, he, hne, fun q => Text.isBlank_of_mem_head?_trim,
          fun q => Text.isBlank_of_mem_getLast?_trim⟩
      · exact .inr ⟨_, he⟩

/-- The message of the first choice is null: one provider's client breaks. -/
theorem service_mapping_nullMessage :
    let ms : List (Text × Json) :=
      [("choices", .list [.object [("message", .null)]])]
    let c : Client := ⟨.openai, "openai", none, .int 0⟩
    let library : Library Unit := ⟨fun _ l => (.ok (), l), fun _ l => (.ok ⟨false, .object ms⟩, l)⟩
    let s : ClientState Unit := ⟨false, .zero, ()⟩
    c.connect library s = (.ok (), ⟨true, .zero, ()⟩) ∧
      library.send (c.payload ⟨"m", []⟩) () = (.ok ⟨false, .object ms⟩, ()) ∧
      (c.service library ⟨"m", []⟩ s).1 = .error (.broken ⟨.attribute, []⟩) := by
  intro ms c library s
  have hconnect : c.connect library s = (.ok (), ⟨true, .zero, ()⟩) := by rfl
  have hsend : library.send (c.payload ⟨"m", []⟩) () = (.ok ⟨false, .object ms⟩, ()) := by rfl
  obtain ⟨outcome, hservice, -, hbroken, -⟩ :=
    service_mapping c library ⟨"m", []⟩ s _ ms () hconnect hsend
  refine ⟨hconnect, hsend, ?_⟩
  rw [hservice]
  refine (hbroken _).2 ⟨.attribute, ⟨rfl, _, rfl, ?_⟩, rfl⟩
  exact .message rfl fun ms he => nomatch he

end Client

end SourceAtlas
