import SourceAtlas.Outline
import SourceAtlas.Reference
import SourceAtlas.Text.Blank
import SourceAtlas.Tree

/-!
# Outlines of syntax trees

The declarations, imports and references that the syntax tree of a TypeScript file shows.

* `Tree.declarations`: the declarations at the top level, with the decorators of their `export`;
* `Tree.parameters`, `Tree.annotationText`, `Tree.decoratorOutline`: parts of a declaration;
* `Tree.functionOutlines`, `Tree.classOutlines`, `Tree.interfaceOutlines`, `Tree.importSpecifiers`;
* `decoratorArguments`: the argument texts in which files are referenced.
-/

namespace SourceAtlas.Tree

/-! ## Declarations at the top level -/

/-- The statements of a file, each `export` replaced by what it exports, with the decorators that
stand before it. An `export` without a declaration or value is left out. -/
def declarations (root : Tree) : List (Tree × List Tree) :=
  root.namedChildren.filterMap fun node =>
    if node.kind ≠ "export_statement" then some (node, [])
    else
      ((node.child? "declaration").or (node.child? "value")).map fun inner =>
        (inner, node.childrenOf "decorator")

/-! ## Parts of declarations -/

variable (source : Bytes)

/-- The type that an annotation names, `any` without one. -/
def annotationText : Option Tree → Text
  | none => "any"
  | some node =>
    let t := (node.text source).trim
    let t := match Text.after? t ":" with
      | some r => Text.trim r
      | none => t
    if t.isEmpty then "any" else t

/-- The parameters of a function or method. -/
def parameters (node : Tree) : List Parameter :=
  match node.child? "parameters" with
  | none => []
  | some ps =>
    (ps.namedChildren.filter fun p =>
      p.kind = "required_parameter" || p.kind = "optional_parameter").map fun p =>
        let name := p.fieldText source "pattern"
        { name := (Text.after? name "...").getD name
          type := annotationText source (p.child? "type") }

/-- The name after the last point, and the arguments of a call without comments. -/
def decoratorOutline (node : Tree) : DecoratorOutline :=
  match node.namedChildren with
  | [] => ⟨[], []⟩
  | expression :: _ =>
    if expression.kind = "call_expression" then
      let arguments : List Tree := match expression.child? "arguments" with
        | some as => as.namedChildren.filter fun a => a.kind ≠ "comment"
        | none => []
      ⟨Text.afterLast '.' (expression.fieldText source "function"),
        arguments.map fun a => a.text source⟩
    else ⟨Text.afterLast '.' (expression.text source), []⟩

/-- Neither the constructor nor an accessor. -/
def isPlainMethod (node : Tree) : Bool :=
  node.fieldText source "name" ≠ "constructor" && !node.hasToken "get" && !node.hasToken "set"

/-- The methods among the members of a class. The decorators that stand right before a method, in
`pending`, come before its own. -/
def methodOutlines (pending : List Tree) : List Tree → List MethodOutline
  | [] => []
  | m :: ms =>
    if m.kind = "decorator" then methodOutlines (pending ++ [m]) ms
    else if m.kind = "method_definition" && isPlainMethod source m then
      { name := m.fieldText source "name"
        parameters := parameters source m
        returnType := annotationText source (m.child? "return_type")
        decorators := (pending ++ m.childrenOf "decorator").map (decoratorOutline source) }
        :: methodOutlines [] ms
    else methodOutlines [] ms

/-- The name between the quotes of a module specifier. -/
def stringValue (node : Tree) : Text :=
  match node.namedChildren.filter fun c => c.kind = "string_fragment" with
  | [] => (node.text source).trimPoints Reference.quotes
  | fragments => fragments.flatMap fun f => f.text source

/-! ## Outlines of a file -/

def functionOutlines (root : Tree) : List FunctionOutline :=
  (root.declarations.filter fun (node, _) =>
    node.kind = "function_declaration" || node.kind = "generator_function_declaration").map
      fun (node, _) =>
        { name := node.fieldText source "name"
          parameters := parameters source node
          returnType := annotationText source (node.child? "return_type") }

def classOutlines (root : Tree) : List ClassOutline :=
  (root.declarations.filter fun (node, _) =>
    node.kind = "class_declaration" || node.kind = "abstract_class_declaration").map
      fun (node, exported) =>
        { name := node.fieldText source "name"
          decorators := (exported ++ node.childrenOf "decorator").map (decoratorOutline source)
          methods := match node.child? "body" with
            | none => []
            | some body => methodOutlines source [] body.namedChildren }

def interfaceOutlines (root : Tree) : List InterfaceOutline :=
  (root.declarations.filter fun (node, _) => node.kind = "interface_declaration").map
    fun (node, _) =>
      let members : List Tree := match node.child? "body" with
        | none => []
        | some body => body.namedChildren.filter fun m => m.kind = "property_signature"
      { name := node.fieldText source "name"
        properties := members.map fun m =>
          ⟨m.fieldText source "name", annotationText source (m.child? "type")⟩ }

/-- The specifiers of `import` and `export … from` statements. -/
def importSpecifiers (root : Tree) : List Text :=
  (root.namedChildren.filter fun node =>
    node.kind = "import_statement" || node.kind = "export_statement").filterMap fun node =>
      (node.child? "source").map (stringValue source)

end SourceAtlas.Tree

namespace SourceAtlas

/-- The argument texts of the decorators of classes. -/
def decoratorArguments (classes : List ClassOutline) : List Text :=
  classes.flatMap fun c => c.decorators.flatMap fun d => d.arguments

end SourceAtlas
