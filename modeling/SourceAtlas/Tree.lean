import SourceAtlas.Text.Utf8

/-!
# Syntax trees

A node covers a range of octets of its source. Tokens such as keywords and brackets are nodes too;
they are not named.

* `Tree`: a node with its children in order;
* `Tree.namedChildren`, `Tree.child?`: the named children, the first child in a field;
* `Tree.text`: the source text that a node covers.
-/

namespace SourceAtlas

/-- A node of a syntax tree. `field` is its role in the parent, `start` and `stop` bound the octets
of the source that it covers. -/
structure Tree where
  kind : String
  named : Bool
  field : Option String
  start : Nat
  stop : Nat
  children : List Tree

namespace Tree

instance : Inhabited Tree := ⟨⟨"", false, none, 0, 0, []⟩⟩

def namedChildren (t : Tree) : List Tree := t.children.filter fun c => c.named

/-- The first child in the field `name`. -/
def child? (t : Tree) (name : String) : Option Tree :=
  t.children.find? fun c => c.field = some name

/-- The children of one kind. -/
def childrenOf (t : Tree) (kind : String) : List Tree :=
  t.children.filter fun c => c.kind = kind

/-- A keyword or mark among the children. -/
def hasToken (t : Tree) (kind : String) : Bool :=
  t.children.any fun c => !c.named && c.kind = kind

/-- The octets that a node covers. -/
def octets (source : Bytes) (t : Tree) : Bytes := (source.take t.stop).drop t.start

/-- The source text that a node covers. -/
def text (source : Bytes) (t : Tree) : Text := Utf8.decodeLossy (t.octets source)

/-- The source text of the first child in a field; empty without one. -/
def fieldText (source : Bytes) (t : Tree) (name : String) : Text :=
  match t.child? name with
  | some c => c.text source
  | none => []

end Tree

end SourceAtlas
