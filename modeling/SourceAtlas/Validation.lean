import SourceAtlas.Json.Reader
import SourceAtlas.Path
import SourceAtlas.Text.Integer
import SourceAtlas.Text.Quoted

/-!
# Validation

A JSON value is checked against what a record expects. All misfits are found, each with the way to
its place, in the order of the expectations.

* `Misfit`, `Misfit.Kind`: what is wrong, and where;
* `Checked`: a value or its misfits. Checks side by side find the misfits of both;
* `Checked.all`, `Checked.within`, `Checked.require`: checks of parts;
* `Checked.text`, `Checked.integer`, `Checked.listOf`, …: checks by type;
* `Member`: a member of a record under its keys; `Member.required`, `Member.orElse`;
* `Checked.record`: the members of a value that should be an object;
* `Misfit.report`: all misfits in words.
-/

namespace SourceAtlas

/-! ## Misfits -/

/-- What is wrong with a value. -/
inductive Misfit.Kind where
  | missing
  | notText
  | emptyText
  | loneSurrogate
  | notAChoice (choices : List Text)
  | notAList
  | noItems
  | notARecord (record : Text)
  | notAnInteger
  | noIntegerText
  | integerTooLarge
  | fractional
  | notFinite
  | notPositive
  | notAPath
  | unknownMember
deriving DecidableEq

/-- What is wrong, and the way to the place. -/
structure Misfit where
  place : List Text
  kind : Misfit.Kind
deriving DecidableEq

namespace Misfit

/-- The choices in words. -/
def choiceText : List Text → Text
  | [] => []
  | [a] => a.quoted
  | [a, b] => a.quoted ++ " or " ++ b.quoted
  | a :: as => a.quoted ++ ", " ++ choiceText as

/-- What is wrong in words, with the word for its kind. -/
def Kind.message : Kind → Text
  | missing => "Field required [type=missing]"
  | notText => "Input should be a valid string [type=string_type]"
  | emptyText => "String should have at least 1 character [type=string_too_short]"
  | loneSurrogate =>
    "Input should be a valid string, unable to parse raw data as a unicode string " ++
      "[type=string_unicode]"
  | notAChoice choices => "Input should be " ++ choiceText choices ++ " [type=literal_error]"
  | notAList => "Input should be a valid list [type=list_type]"
  | noItems => "List should have at least 1 item after validation, not 0 [type=too_short]"
  | notARecord record =>
    "Input should be a valid dictionary or instance of " ++ record ++ " [type=model_type]"
  | notAnInteger => "Input should be a valid integer [type=int_type]"
  | noIntegerText =>
    "Input should be a valid integer, unable to parse string as an integer [type=int_parsing]"
  | integerTooLarge =>
    "Unable to parse input string as an integer, exceeded maximum size [type=int_parsing_size]"
  | fractional =>
    "Input should be a valid integer, got a number with a fractional part [type=int_from_float]"
  | notFinite => "Input should be a finite number [type=finite_number]"
  | notPositive => "Input should be greater than 0 [type=greater_than]"
  | notAPath => "Input is not a valid path for <class 'pathlib.Path'> [type=path_type]"
  | unknownMember => "Extra inputs are not permitted [type=extra_forbidden]"

/-- A misfit on a line of its own, after a line with its place if it has one. -/
def text (m : Misfit) : Text :=
  let kind := "\n  " ++ m.kind.message
  if m.place.isEmpty then kind else "\n" ++ Text.joinWith "." m.place ++ kind

/-- All misfits of a record. -/
def report (record : Text) (misfits : List Misfit) : Text :=
  let noun : Text := if misfits.length = 1 then "error" else "errors"
  Text.ofNat misfits.length ++ " validation " ++ noun ++ " for " ++ record ++ misfits.flatMap text

end Misfit

/-! ## Checks -/

/-- A value, or all misfits of what it should be read from. -/
inductive Checked (α : Type) where
  | fits (a : α)
  | misfits (ms : List Misfit)

namespace Checked

/-- What is wrong with a whole value. -/
def fail {α : Type} (kind : Misfit.Kind) : Checked α := misfits [⟨[], kind⟩]

def map {α β : Type} (f : α → β) : Checked α → Checked β
  | fits a => fits (f a)
  | misfits ms => misfits ms

/-- A function and its argument, with the misfits of both. -/
def seq {α β : Type} : Checked (α → β) → Checked α → Checked β
  | fits f, fits a => fits (f a)
  | fits _, misfits ms => misfits ms
  | misfits ms, fits _ => misfits ms
  | misfits ms, misfits ns => misfits (ms ++ ns)

instance : Applicative Checked where
  pure := fits
  map := map
  seq f a := seq f (a ())

/-- The values of a list of checks, with the misfits of all. -/
def all {α : Type} : List (Checked α) → Checked (List α)
  | [] => fits []
  | c :: cs => List.cons <$> c <*> all cs

/-- The check of what stands under a key. -/
def within {α : Type} (key : Text) : Checked α → Checked α
  | fits a => fits a
  | misfits ms => misfits (ms.map fun m => { m with place := key :: m.place })

/-- The value under a condition. -/
def require {α : Type} (p : α → Bool) (kind : Misfit.Kind) : Checked α → Checked α
  | fits a => if p a then fits a else fail kind
  | misfits ms => misfits ms

/-- The value, or the misfits under a name for them all. -/
def toExcept {α ε : Type} (f : List Misfit → ε) : Checked α → Except ε α
  | fits a => .ok a
  | misfits ms => .error (f ms)

/-- The members of a value that should be an object. -/
def record {α : Type} (name : Text) (read : List (Text × Json) → Checked α) : Json → Checked α
  | .object ms => read ms
  | _ => fail (.notARecord name)

/-- The items of a value that should be a list. -/
def listOf {α : Type} (read : Json → Checked α) : Json → Checked (List α)
  | .list items => all (items.mapIdx fun i v => (read v).within (Text.ofNat i))
  | _ => fail .notAList

/-- A text. -/
def text : Json → Checked Text
  | .text t => .fits t
  | _ => fail .notText

/-- A text with at least one point and without halves of surrogate pairs. -/
def properText : Json → Checked Text
  | .text t =>
    if !t.isScalar then fail .loneSurrogate else if t.isEmpty then fail .emptyText else .fits t
  | _ => fail .notText

/-- The path of a text, tidy. -/
def path : Json → Checked Text
  | .text t => .fits (Path.tidy t)
  | _ => fail .notAPath

/-- The digits of a text that spells a whole number in ASCII. Underscores may stand between digits,
and decimals may follow if they are zeros. -/
def integerDigits? (t : Text) : Option Text :=
  let (whole, decimals) := (Text.cut? '.' t).getD (t, [])
  let digits : Text := whole.filter fun c => decide (c ≠ Point.ofChar '_')
  let underscore := some (Point.ofChar '_')
  let separated : Bool :=
    whole.head? ≠ underscore && whole.getLast? ≠ underscore && !whole.contains "__"
  if digits.isEmpty || !digits.all Point.isDigit || !separated then none
  else if decimals.all fun c => decide (c = Point.ofChar '0') then some digits else none

/-- The whole number that a text spells. -/
def integerOfText (t : Text) : Checked Int :=
  let trimmed := Text.trimEndBy Point.isSpacing (Text.trimStartBy Point.isSpacing t)
  let (negative, r) := Text.cutSign trimmed
  if Json.maxDigits < trimmed.length then fail .integerTooLarge
  else match integerDigits? r with
    | none => fail .noIntegerText
    | some ds =>
      let n := Json.Reader.digitsValue ds
      .fits (if negative then -(n : Int) else n)

/-- The whole number of a floating point number below the 64-bit bounds. -/
def integerOfFloat (x : Binary64) : Checked Int :=
  if !x.isFinite then fail .notFinite
  else match x.integer? with
    | none => fail .fractional
    | some n => if n.natAbs < pow2 63 then .fits n else fail .integerTooLarge

/-- A whole number; texts, truth values and floating point numbers may stand for one. -/
def integer : Json → Checked Int
  | .int n => .fits n
  | .bool b => .fits (if b then 1 else 0)
  | .float x => integerOfFloat x
  | .text t => if t.isScalar then integerOfText t else fail .loneSurrogate
  | _ => fail .notAnInteger

/-- A positive whole number. -/
def positive (v : Json) : Checked Int := (integer v).require (fun n => decide (0 < n)) .notPositive

/-- One of several values, given by their texts. -/
def choice {α : Type} (choices : List (Text × α)) : Json → Checked α
  | .text t =>
    match Json.member? t choices with
    | some a => .fits a
    | none => fail (.notAChoice (choices.map Prod.fst))
  | _ => fail (.notAChoice (choices.map Prod.fst))

end Checked

/-! ## Members -/

/-- A member of a record: the keys under which it may stand, the better one first. -/
structure Member where
  keys : List Text

namespace Member

/-- The key under which the member stands, and what stands there. -/
def find? (m : Member) (ms : List (Text × Json)) : Option (Text × Json) :=
  m.keys.findSome? fun k => (Json.member? k ms).map fun v => (k, v)

/-- A member that may be missing. -/
def orElse {α : Type} (m : Member) (default : α) (read : Json → Checked α)
    (ms : List (Text × Json)) : Checked α :=
  match m.find? ms with
  | some (k, v) => (read v).within k
  | none => .fits default

/-- A member that has to be there. -/
def required {α : Type} (m : Member) (read : Json → Checked α) (ms : List (Text × Json)) :
    Checked α :=
  match m.find? ms with
  | some (k, v) => (read v).within k
  | none => .misfits [⟨m.keys.take 1, .missing⟩]

/-- The members of an object that are none of the members of a record. -/
def others (known : List Member) (ms : List (Text × Json)) : List (Text × Json) :=
  let used := known.filterMap fun m => (m.find? ms).map Prod.fst
  ms.filter fun (k, _) => !used.contains k

/-- The check of members together with the keys, which may not hold half of a surrogate pair. -/
def scalarKeys {α : Type} (ms : List (Text × Json)) (check : Checked α) : Checked α :=
  if ms.all fun m => m.1.isScalar then check else Checked.fail .loneSurrogate

/-- The check that an object has no other members than those of a record. -/
def noOthers (known : List Member) (ms : List (Text × Json)) : Checked Unit :=
  match others known ms with
  | [] => .fits ()
  | os => .misfits (os.map fun (k, _) => ⟨[k], .unknownMember⟩)

end Member

end SourceAtlas
