import SourceAtlas.Json.Basic
import SourceAtlas.Provider.Address
import SourceAtlas.Service
import SourceAtlas.Text.Integer

/-!
# Providers

Model services over the libraries of two providers. A library sends requests and hands over the
provider's response as records or as mappings.

* `Provider`, `Client`: which provider, where, and with which settings;
* `Response`, `Response.attribute?`: a response, and its parts as records;
* `Library`: what the library of a provider does;
* `Client.payload`: what is sent for a call;
* `Response.answer`: the text of a response, empty when there is none;
* `Client.service`: the model service.
-/

namespace SourceAtlas

open Json (fields)

/-- The providers. -/
inductive Provider where
  | openai
  | ollama
deriving DecidableEq

/-- How often a failed connection is tried again. -/
def Provider.maxRetries : Nat := 5

/-- Where and how a provider is asked. -/
structure Client where
  provider : Provider
  url : Text
  key : Option Text
  temperature : Json

/-! ## Responses -/

/-- A response of a library: a JSON value whose objects are records, with attributes, or
mappings. -/
structure Response where
  asRecords : Bool
  value : Json

namespace Response

/-- A part of a response. -/
def part (r : Response) (v : Json) : Response := { r with value := v }

/-- An attribute of a record. -/
def attribute? (r : Response) (key : Text) : Option Response :=
  if r.asRecords then (r.value.get? key).map r.part else none

/-- The members of a mapping. -/
def mapping? (r : Response) : Option (List (Text × Json)) :=
  if r.asRecords then none
  else match r.value with
    | .object ms => some ms
    | _ => none

/-- Neither null, false, zero nor empty; a record is never empty. -/
def isTruthy (r : Response) : Bool :=
  match r.value with
  | .object ms => r.asRecords || !ms.isEmpty
  | v => v.isTruthy

/-- The attribute of an attribute that may be missing. -/
def attributeOf? (key : Text) (r : Option Response) : Option Response :=
  r.bind fun r => r.attribute? key

/-- The trimmed text, empty for anything but a text. -/
def trimmed : Option Json → Text
  | some (.text t) => t.trim
  | _ => []

/-- A breakdown without a message. -/
def broken {α : Type} (kind : Breakdown.Kind) : Except Breakdown α := .error ⟨kind, []⟩

/-- The first item of a value that is not empty. -/
def firstItem (r : Response) : Except Breakdown Response :=
  match r.value with
  | .list (v :: _) => .ok (r.part v)
  | .text (c :: _) => .ok (r.part (.text [c]))
  | .object _ => if r.asRecords then broken .type else broken .lookup
  | _ => broken .type

/-- The text of the first choice. -/
def choiceText (r : Response) : Except Breakdown Text :=
  match r.mapping? with
  | some ms =>
    let choices := r.part ((Json.member? "choices" ms).getD .null)
    if !choices.isTruthy then .ok []
    else do
      match (← choices.firstItem).mapping? with
      | none => broken .attribute
      | some choice =>
        match Json.member? "message" choice with
        | none => return []
        | some (.object message) => return trimmed (Json.member? "content" message)
        | some _ => broken .attribute
  | none =>
    match r.attribute? "choices" with
    | none => .ok []
    | some choices =>
      if !choices.isTruthy then .ok []
      else do
        let message := (← choices.firstItem).attribute? "message"
        return trimmed ((attributeOf? "content" message).map Response.value)

/-- The text of the message. -/
def messageText (r : Response) : Text :=
  match r.mapping? with
  | some ms =>
    match Json.member? "message" ms with
    | some (.object message) => trimmed (Json.member? "content" message)
    | _ => []
  | none => trimmed ((attributeOf? "content" (r.attribute? "message")).map Response.value)

/-- The text of a response of a provider, empty when there is none. -/
def answer (r : Response) : Provider → Except Breakdown Text
  | .openai => r.choiceText
  | .ollama => .ok r.messageText

/-! ## Usage -/

/-- A part of a count of tokens as a whole number. -/
def wholeNumber (r : Response) : Except Breakdown Int :=
  match r.value with
  | .int n => .ok n
  | .bool b => .ok (if b then 1 else 0)
  | .float x =>
    match x.truncated? with
    | some n => .ok n
    | none =>
      if x = .nan then .error ⟨.value, "cannot convert float NaN to integer"⟩
      else .error ⟨.overflow, "cannot convert float infinity to integer"⟩
  | .text t =>
    match t.readInteger 4300 with
    | .ok n => .ok n
    | .error (.noInteger t) =>
      .error ⟨.value, "invalid literal for int() with base 10: " ++ t.quoted⟩
    | .error (.tooManyDigits n) =>
      .error ⟨.value, "Exceeds the limit (4300 digits) for integer string conversion: value has " ++
        Text.ofNat n ++ " digits; use sys.set_int_max_str_digits() to increase the limit"⟩
  | _ => broken .type

/-- A count of tokens; none when it is missing, null, false, zero or empty. -/
def tokens (r : Response) (key : Text) : Except Breakdown Int :=
  match r.attribute? key with
  | none => .ok 0
  | some v => if v.isTruthy then v.wholeNumber else .ok 0

/-- The usage with what a response counts. -/
def addUsage (u : TokenUsage) (r : Response) : Except Breakdown TokenUsage :=
  match r.attribute? "usage" with
  | none => .ok u
  | some usage =>
    match usage.value with
    | .null => .ok u
    | _ => do
      return u.add (← usage.tokens "prompt_tokens") (← usage.tokens "completion_tokens")
        (← usage.tokens "total_tokens")

end Response

/-! ## Libraries -/

/-- A connection that a library is asked for. -/
structure Connection where
  baseUrl : Text
  key : Option Text
  maxRetries : Nat

/-- What the library of a provider does, its state being `σ`. -/
structure Library (σ : Type) where
  connect : Connection → σ → Except Breakdown Unit × σ
  send : Json → σ → Except Breakdown Response × σ

namespace Provider

/-- A failed connection is reported, not a breakdown. -/
def reportsConnecting : Breakdown.Kind → Bool
  | .connection | .library | .system | .denied | .value => true
  | _ => false

/-- A failed request is reported, not a breakdown. -/
def reportsSending : Provider → Breakdown.Kind → Bool
  | .openai, .connection | .openai, .attribute | .ollama, .request | .ollama, .response => true
  | _, .system | _, .denied | _, .value => true
  | _, _ => false

def title : Provider → Text
  | openai => "OpenAI"
  | ollama => "Ollama"

/-- The failure as a report if it is to be reported. -/
def faultOf (reported : Bool) (b : Breakdown) : Failure :=
  if reported then .reported b.message else .broken b

end Provider

/-! ## Clients -/

/-- The state of a client: whether it is connected, the usage so far, and the state of the
library. -/
structure ClientState (σ : Type) where
  connected : Bool
  usage : TokenUsage
  library : σ

namespace Client

/-- What is sent for a call. -/
def payload (c : Client) (call : Call) : Json :=
  let messages := Json.list (call.messages.map fun m =>
    fields [("role", .text m.role.name), ("content", .text m.content)])
  match c.provider with
  | .openai => fields [("model", .text call.model), ("messages", messages),
      ("temperature", c.temperature)]
  | .ollama => fields [("model", .text call.model), ("messages", messages),
      ("options", fields [("temperature", c.temperature)]), ("stream", .bool false)]

/-- The connection, made by the first call that needs it. A provider of the second kind needs
none. -/
def connect {σ : Type} (c : Client) (library : Library σ) (s : ClientState σ) :
    Except Failure Unit × ClientState σ :=
  if s.connected || c.provider = .ollama then (.ok (), s)
  else match Provider.baseUrl c.url with
    | .error fault => (.error (.reported fault.message), s)
    | .ok baseUrl =>
      match library.connect ⟨baseUrl, c.key, Provider.maxRetries⟩ s.library with
      | (.ok (), l) => (.ok (), { s with connected := true, library := l })
      | (.error b, l) =>
        (.error (Provider.faultOf (Provider.reportsConnecting b.kind) b), { s with library := l })

/-- The answer that a response holds. -/
def answerOf (c : Client) (r : Response) : Except Failure Text :=
  match r.answer c.provider with
  | .error b => .error (.broken b)
  | .ok t =>
    if t.isEmpty then
      .error (.reported (c.provider.title ++ " response does not contain generation content."))
    else .ok t

/-- What becomes of a response: the answer, and the usage with what the response counts. -/
def receive {σ : Type} (c : Client) (r : Response) (s : ClientState σ) :
    Except Failure Text × ClientState σ :=
  match c.provider with
  | .ollama => (c.answerOf r, s)
  | .openai =>
    match r.addUsage s.usage with
    | .error b => (.error (.broken b), s)
    | .ok usage => (c.answerOf r, { s with usage })

/-- The model service of a client over the library of its provider. -/
def service {σ : Type} (c : Client) (library : Library σ) : Service (ClientState σ) := fun call s =>
  match c.connect library s with
  | (.error fault, s) => (.error fault, s)
  | (.ok (), s) =>
    match library.send (c.payload call) s.library with
    | (.ok r, l) => c.receive r { s with library := l }
    | (.error b, l) =>
      (.error (Provider.faultOf (c.provider.reportsSending b.kind) b), { s with library := l })

end Client

end SourceAtlas
