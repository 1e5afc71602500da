import SourceAtlas.Text.Basic
import SourceAtlas.Decimal.Binary64

/-!
# JSON values

* `Json`: a value; an object is the list of its members in order, each key once;
* `Json.insertMember`, `Json.mergeMembers`, `Json.ofMembers`: the later of two members of one key
  wins, at the earlier place;
* `Json.texts`, `Json.fields`: lists of texts, objects of given members;
* `Json.get?`: the member of an object;
* `Json.isTruthy`: neither null, false, zero nor empty;
* `Json.maxDigits`: the digits of the longest whole numbers that are read and written.
-/

namespace SourceAtlas

/-- A JSON value. Numbers are whole, or binary floating point where the text had a fraction or an
exponent. -/
inductive Json where
  | null
  | bool (b : Bool)
  | int (n : Int)
  | float (x : Binary64)
  | text (t : Text)
  | list (items : List Json)
  | object (members : List (Text × Json))

namespace Json

instance : Inhabited Json := ⟨null⟩

mutual

/-- Whether two values are the same, members in the same order. -/
protected def beq : Json → Json → Bool
  | .null, .null => true
  | .bool a, .bool b => a = b
  | .int a, .int b => a = b
  | .float a, .float b => a = b
  | .text a, .text b => a = b
  | .list a, .list b => itemsBeq a b
  | .object a, .object b => membersBeq a b
  | _, _ => false

def itemsBeq : List Json → List Json → Bool
  | [], [] => true
  | a :: as, b :: bs => Json.beq a b && itemsBeq as bs
  | _, _ => false

def membersBeq : List (Text × Json) → List (Text × Json) → Bool
  | [], [] => true
  | (k, a) :: as, (l, b) :: bs => k = l && Json.beq a b && membersBeq as bs
  | _, _ => false

end

instance : BEq Json := ⟨Json.beq⟩

/-! ## Members -/

/-- The members with `v` under `key`: at its place if there is one, else at the end. -/
def insertMember {α : Type} (key : Text) (v : α) : List (Text × α) → List (Text × α)
  | [] => [(key, v)]
  | (k, w) :: ms => if k = key then (k, v) :: ms else (k, w) :: insertMember key v ms

/-- The members of a list of pairs in which keys may repeat. -/
def mergeMembers {α : Type} (pairs : List (Text × α)) : List (Text × α) :=
  pairs.foldl (fun ms (k, v) => insertMember k v ms) []

/-- The object of a list of pairs in which keys may repeat. -/
def ofMembers (pairs : List (Text × Json)) : Json := object (mergeMembers pairs)

/-- The texts of a list. -/
def texts (ts : List Text) : Json := list (ts.map text)

/-- An object from its members, with keys in ASCII. -/
def fields (ms : List (String × Json)) : Json := object (ms.map fun (k, v) => (Text.ofString k, v))

/-- What stands under `key`. -/
def member? {α : Type} (key : Text) (ms : List (Text × α)) : Option α :=
  (ms.find? fun m => m.1 = key).map Prod.snd

/-- The member `key` of an object. -/
def get? (key : Text) : Json → Option Json
  | object ms => member? key ms
  | _ => none

/-! ## Classes -/

/-- Neither null, false, zero nor empty. -/
def isTruthy : Json → Bool
  | null => false
  | bool b => b
  | int n => n ≠ 0
  | float x => !x.isZero
  | text t => !t.isEmpty
  | list items => !items.isEmpty
  | object ms => !ms.isEmpty

/-- The list of a value that is one. -/
def items? : Json → Option (List Json)
  | list items => some items
  | _ => none

/-- The text of a value that is one. -/
def text? : Json → Option Text
  | text t => some t
  | _ => none

/-! ## Long numbers -/

/-- Whole numbers of more digits than this are neither read nor written. -/
def maxDigits : Nat := 4300

end Json

end SourceAtlas
