import SourceAtlas.Failure
import SourceAtlas.Prompt

/-!
# Model services

A model service answers conversations, or fails.

* `Call`, `Service`: a conversation for a model, and what a service makes of it;
* `Responder`: a service without a state;
* `TokenUsage`: the tokens that a service counted.
-/

namespace SourceAtlas

/-! ## Services -/

/-- A conversation to be continued by a model. -/
structure Call where
  model : Text
  messages : List Message
deriving DecidableEq

/-- A model service whose state is `σ`. -/
abbrev Service (σ : Type) := Call → σ → Except Failure Text × σ

/-- A service without a state. -/
abbrev Responder := Call → Except Failure Text

/-- The service that answers as a responder does. -/
def Responder.service (r : Responder) : Service Unit := fun call _ => (r call, ())

/-! ## Usage -/

/-- The tokens that a service counted in prompts, in answers and in total, and the number of
counts. -/
structure TokenUsage where
  prompt : Int
  completion : Int
  total : Int
  calls : Nat
deriving DecidableEq

namespace TokenUsage

/-- No tokens. -/
def zero : TokenUsage := ⟨0, 0, 0, 0⟩

/-- One more count. -/
def add (u : TokenUsage) (prompt completion total : Int) : TokenUsage :=
  ⟨u.prompt + prompt, u.completion + completion, u.total + total, u.calls + 1⟩

end TokenUsage

end SourceAtlas
