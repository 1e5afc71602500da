import SourceAtlas.Text.Basic

/-!
# Outlines of source files

What is recorded of the declarations at the top level of a file.

* `Parameter`, `FunctionOutline`, `DecoratorOutline`, `MethodOutline`, `ClassOutline`,
  `PropertyOutline`, `InterfaceOutline`: declarations by name, with types as they are written.
-/

namespace SourceAtlas

/-- A declared parameter. -/
structure Parameter where
  name : Text
  type : Text
deriving DecidableEq

/-- A decorator and the texts of its arguments. -/
structure DecoratorOutline where
  name : Text
  arguments : List Text
deriving DecidableEq

/-- A function at the top level. -/
structure FunctionOutline where
  name : Text
  parameters : List Parameter
  returnType : Text
deriving DecidableEq

/-- A method with a body that is neither constructor nor accessor. -/
structure MethodOutline where
  name : Text
  parameters : List Parameter
  returnType : Text
  decorators : List DecoratorOutline
deriving DecidableEq

/-- A class at the top level. -/
structure ClassOutline where
  name : Text
  decorators : List DecoratorOutline
  methods : List MethodOutline
deriving DecidableEq

/-- A property of an interface. -/
structure PropertyOutline where
  name : Text
  type : Text
deriving DecidableEq

/-- An interface at the top level. -/
structure InterfaceOutline where
  name : Text
  properties : List PropertyOutline
deriving DecidableEq

end SourceAtlas
