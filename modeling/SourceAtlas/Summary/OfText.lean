import SourceAtlas.Failure
import SourceAtlas.Json.Reader
import SourceAtlas.Summary

/-!
# Summaries in the answers of models

A model may put prose and code fences around its answer, and braces into them. The summary is the
first complete JSON object of the answer.

* `Summary.Fault`, `Summary.Fault.failure`: why an answer holds no summary;
* `Summary.firstObject`: the first complete object of a text;
* `Summary.ofText`.
-/

namespace SourceAtlas.Summary

/-- Why a text holds no summary. -/
inductive Fault where
  | noObject
  /-- No brace starts an object; the fault of the first brace. -/
  | malformed (text : Text) (fault : Json.Fault)
  | misfits (misfits : List Misfit)
  | tooManyDigits (count : Nat)

/-- The failure that a fault leads to. What the model wrote is reported, so that it can be
mended. -/
def Fault.failure : Fault → Failure
  | noObject => .reported "No JSON object found in model output."
  | malformed text fault => .reported ("Invalid JSON: " ++ fault.message text)
  | misfits ms => .reported (Misfit.report recordName ms)
  | tooManyDigits count => .broken ⟨.value, Json.tooManyDigitsMessage count⟩

/-- The first complete object of a text, in which no object was found before; `first` is the fault
of the first brace so far. -/
def objectFrom (whole : Text) (first : Option Json.Fault) : Text → Except Fault Json
  | [] => .error (match first with | some fault => .malformed whole fault | none => .noObject)
  | c :: t =>
    if c = '{' then
      match Json.readFront (c :: t) with
      | .ok (v, _) => .ok v
      | .error (.tooManyDigits count) => .error (.tooManyDigits count)
      | .error (.malformed fault) => objectFrom whole (first.or (some fault)) t
    else objectFrom whole first t

/-- The first complete object of a text. -/
def firstObject (t : Text) : Except Fault Json := objectFrom t none t

/-- The summary that a text holds. -/
def ofText (t : Text) : Except Fault Summary := do
  (check (← firstObject t)).toExcept .misfits

end SourceAtlas.Summary
