import SourceAtlas.Json.Writer
import SourceAtlas.Outline

/-!
# Outlines as JSON

The written form of outlines, and their reading from any JSON value. Reading takes what is there:
a missing member is empty, and a value that should be a text is shown as one.

* `ShapeFault`: ways in which a value has no reading;
* `Json.memberOr`, `Json.itemsOf`, `Json.textMember`, `Json.listMember`: parts of a value;
* `toJson` and `ofJson` of each outline.
-/

namespace SourceAtlas

/-- Ways in which a JSON value has no reading. -/
inductive ShapeFault where
  /-- A member is asked of a value that is no object. -/
  | notAnObject
  /-- The items are asked of a value that has none. -/
  | notAList
  /-- A key of a mapping is itself a list or an object. -/
  | compoundKey
  /-- An item of a list of pairs has another length. -/
  | notAPair (index length : Nat)
deriving DecidableEq

namespace Json

/-- The member `key` of an object, or `default` without one. -/
def memberOr (default : Json) (key : Text) : Json → Except ShapeFault Json
  | object ms => .ok ((member? key ms).getD default)
  | _ => .error .notAnObject

/-- The items that a value is made of: those of a list, the points of a text, the keys of an
object. -/
def itemsOf : Json → Except ShapeFault (List Json)
  | list items => .ok items
  | text t => .ok (t.map fun c => text [c])
  | object ms => .ok (ms.map fun m => text m.1)
  | _ => .error .notAList

/-- The member `key` shown as a text, empty without one. -/
def textMember (key : Text) (v : Json) : Except ShapeFault Text :=
  shown <$> memberOr (text []) key v

/-- The items of the member `key`, none without one. -/
def listMember {α : Type} (key : Text) (read : Json → Except ShapeFault α) (v : Json) :
    Except ShapeFault (List α) := do
  (← itemsOf (← memberOr (list []) key v)).mapM read

/-- The member `key`, or `default` if it is missing, null, false, zero or empty. -/
def truthyOr (default : Json) (key : Text) (v : Json) : Except ShapeFault Json := do
  let m ← memberOr default key v
  return if m.isTruthy then m else default

end Json

open Json (textMember listMember fields)

namespace Parameter

def toJson (p : Parameter) : Json := fields [("name", .text p.name), ("type", .text p.type)]

def ofJson (v : Json) : Except ShapeFault Parameter := do
  return { name := ← textMember "name" v, type := ← textMember "type" v }

end Parameter

namespace DecoratorOutline

def toJson (d : DecoratorOutline) : Json :=
  fields [("name", .text d.name), ("arguments", .texts d.arguments)]

def ofJson (v : Json) : Except ShapeFault DecoratorOutline := do
  return {
    name := ← textMember "name" v
    arguments := ← listMember "arguments" (fun a => .ok a.shown) v }

end DecoratorOutline

namespace FunctionOutline

def toJson (f : FunctionOutline) : Json :=
  fields [("name", .text f.name), ("parameters", .list (f.parameters.map Parameter.toJson)),
    ("returnType", .text f.returnType)]

def ofJson (v : Json) : Except ShapeFault FunctionOutline := do
  return {
    name := ← textMember "name" v
    parameters := ← listMember "parameters" Parameter.ofJson v
    returnType := ← textMember "returnType" v }

end FunctionOutline

namespace MethodOutline

def toJson (m : MethodOutline) : Json :=
  fields [("name", .text m.name), ("parameters", .list (m.parameters.map Parameter.toJson)),
    ("returnType", .text m.returnType),
    ("decorators", .list (m.decorators.map DecoratorOutline.toJson))]

def ofJson (v : Json) : Except ShapeFault MethodOutline := do
  return {
    name := ← textMember "name" v
    parameters := ← listMember "parameters" Parameter.ofJson v
    returnType := ← textMember "returnType" v
    decorators := ← listMember "decorators" DecoratorOutline.ofJson v }

end MethodOutline

namespace ClassOutline

def toJson (c : ClassOutline) : Json :=
  fields [("name", .text c.name), ("decorators", .list (c.decorators.map DecoratorOutline.toJson)),
    ("methods", .list (c.methods.map MethodOutline.toJson))]

def ofJson (v : Json) : Except ShapeFault ClassOutline := do
  return {
    name := ← textMember "name" v
    decorators := ← listMember "decorators" DecoratorOutline.ofJson v
    methods := ← listMember "methods" MethodOutline.ofJson v }

end ClassOutline

namespace PropertyOutline

def toJson (p : PropertyOutline) : Json := fields [("name", .text p.name), ("type", .text p.type)]

def ofJson (v : Json) : Except ShapeFault PropertyOutline := do
  return { name := ← textMember "name" v, type := ← textMember "type" v }

end PropertyOutline

namespace InterfaceOutline

def toJson (i : InterfaceOutline) : Json :=
  fields [("name", .text i.name), ("properties", .list (i.properties.map PropertyOutline.toJson))]

def ofJson (v : Json) : Except ShapeFault InterfaceOutline := do
  return {
    name := ← textMember "name" v
    properties := ← listMember "properties" PropertyOutline.ofJson v }

end InterfaceOutline

end SourceAtlas
