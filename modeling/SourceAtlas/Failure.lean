import SourceAtlas.Text.Basic

/-!
# Failures

A part of the program that cannot do its work reports so, and the parts around it go on. A breakdown
is a failure that no part is prepared for.

* `Breakdown`: a kind and a message;
* `Failure`: a report or a breakdown.
-/

namespace SourceAtlas

/-- The kinds of breakdowns that are told apart. -/
inductive Breakdown.Kind where
  /-- A value has the right type and a wrong content, or a text has no octets. -/
  | value
  /-- A value has a wrong type. -/
  | type
  /-- A part of a value is missing. -/
  | attribute
  /-- A key or place is missing. -/
  | lookup
  /-- A number is too large. -/
  | overflow
  /-- Octets do not make up a text. -/
  | decoding
  /-- The system denies access. -/
  | denied
  /-- The system refuses for another reason. -/
  | system
  | runtime
  /-- A library of a provider fails: in its connection, its request, its response, or elsewhere. -/
  | connection
  | request
  | response
  | library
deriving DecidableEq

/-- A failure that no part of the program is prepared for. -/
structure Breakdown where
  kind : Breakdown.Kind
  message : Text
deriving DecidableEq

/-- A failure: reported, so that the parts around it can go on, or a breakdown. -/
inductive Failure where
  | reported (message : Text)
  | broken (why : Breakdown)
deriving DecidableEq

end SourceAtlas
