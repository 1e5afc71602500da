import SourceAtlas.Text.Tidy
import SourceAtlas.Tree

/-!
# Type erasure

The source without comments and types: about what a compiler would emit.

* `Erasure.isErased`: a node that is left out whole;
* `Erasure.isUnwrapped`: a node of which the first named child alone is kept;
* `Erasure.inner?`, `Erasure.childNodes`: that child, all children;
* `Erasure.collect`, `Erasure.ranges`: the ranges of octets to cut out;
* `Erasure.cut`: the source without some ranges;
* `Erasure.erase`: the tidy text of what is left.
-/

namespace SourceAtlas.Erasure

/-- The kinds of named nodes that are left out whole. -/
def erasedKinds : List String :=
  ["comment", "type_annotation", "type_parameters", "type_arguments", "interface_declaration",
    "type_alias_declaration", "accessibility_modifier", "override_modifier", "implements_clause",
    "ambient_declaration", "abstract_method_signature", "function_signature", "method_signature",
    "index_signature"]

/-- The keywords that only the type checker reads. -/
def erasedKeywords : List String := ["abstract", "readonly", "declare"]

/-- A node that is left out whole; `parent` is the kind of the node around it. -/
def isErased (parent : Option String) (t : Tree) : Bool :=
  if t.named then
    if erasedKinds.contains t.kind then true
    else if t.kind = "export_statement" then
      match t.child? "declaration" with
      | some d => erasedKinds.contains d.kind
      | none => false
    else if t.kind = "import_statement" then
      match t.children with
      | _ :: c :: _ => !c.named && c.kind = "type"
      | _ => false
    else false
  else if erasedKeywords.contains t.kind then parent.isSome && parent ≠ some "identifier"
  else t.kind = "?" &&
    (parent = some "optional_parameter" || parent = some "public_field_definition")

/-- A node of which the first named child alone is kept. -/
def isUnwrapped (t : Tree) : Bool :=
  t.kind = "as_expression" || t.kind = "satisfies_expression" || t.kind = "non_null_expression"

/-- The node that an unwrapped node is reduced to: its first named child. -/
def inner? (t : Tree) : Option Tree := if isUnwrapped t then t.namedChildren.head? else none

theorem mem_of_inner? {t inner : Tree} (h : inner? t = some inner) : inner ∈ t.children := by
  unfold inner? at h
  split at h
  · exact (List.mem_filter.1 (List.mem_of_head? h)).1
  · cases h

/-- The children of a node, the last one first, each with the kind of the node. -/
def childNodes (t : Tree) : List (Option String × Tree) :=
  t.children.reverse.map fun c => (some t.kind, c)

/-- The children of a node are smaller than the node. -/
theorem foldr_sizeOf_childNodes (t : Tree) (k : Nat) :
    (childNodes t).foldr (fun n k => sizeOf n.2 + k) k < sizeOf t + k := by
  have hfold : ∀ (cs : List Tree) (k : Nat),
      cs.foldl (fun k c => sizeOf c + k) k ≤ sizeOf cs + k := by
    intro cs
    induction cs with
    | nil => simp
    | cons c cs ih =>
      intro k
      have := ih (sizeOf c + k)
      rw [List.foldl_cons, List.cons.sizeOf_spec]
      omega
  obtain ⟨kind, named, field, start, stop, children⟩ := t
  have hchildren := hfold children k
  rw [childNodes, List.foldr_map, List.foldr_reverse, Tree.mk.sizeOf_spec]
  dsimp only
  omega

/-- The ranges to cut out of a stack of nodes, each with the kind of the node around it. The
children of a node are put on the stack, the last one on top. -/
def collect : List (Option String × Tree) → List (Nat × Nat)
  | [] => []
  | (parent, t) :: rest =>
    if isErased parent t then (t.start, t.stop) :: collect rest
    else match _h : inner? t with
      | some inner => (inner.stop, t.stop) :: collect ((some t.kind, inner) :: rest)
      | none => collect (childNodes t ++ rest)
termination_by stack => stack.foldr (fun n k => sizeOf n.2 + k) 0
decreasing_by
  · have := foldr_sizeOf_childNodes t 0
    simp only [List.foldr_cons]
    omega
  · have hlt := List.sizeOf_lt_of_mem (mem_of_inner? _h)
    cases t
    simp only [Tree.mk.sizeOf_spec, List.foldr_cons] at hlt ⊢
    omega
  · rw [List.foldr_append, List.foldr_cons]
    exact foldr_sizeOf_childNodes t _

/-- The ranges to cut out of a tree. -/
def ranges (root : Tree) : List (Nat × Nat) := collect [(none, root)]

/-- The order of cuts: the later start first, of two with one start the later end. -/
def cutsBefore (a b : Nat × Nat) : Bool := b.1 < a.1 || (a.1 = b.1 && b.2 ≤ a.2)

/-- The octets without those of a range. -/
def cutOne (bs : Bytes) (r : Nat × Nat) : Bytes := bs.take r.1 ++ bs.drop (max r.1 r.2)

/-- The octets without those of some ranges, cut out from the last one on. -/
def cut (bs : Bytes) (rs : List (Nat × Nat)) : Bytes := (rs.mergeSort cutsBefore).foldl cutOne bs

/-- The tidy source without comments and types. -/
def erase (source : Bytes) (root : Tree) : Text :=
  Text.tidy (Utf8.decodeLossy (cut source (ranges root)))

end SourceAtlas.Erasure
