import SourceAtlas.Proofs.Outline.Methods

/-!
# Outlines of files with more comments

What is recorded of a file when comments are put into its syntax tree.

* `Tree.declared`, `Tree.Redeclared`, `Tree.forall₂_declarations`: the declarations at the top level;
* `Tree.functionOutlines_eq`, `Tree.interfaceOutlines_eq`, `Tree.importSpecifiers_eq`: what is as
  before;
* `Tree.classOutline`, `Tree.classMembers`, `Tree.classOutlines_eq_iff`: classes;
* **`Tree.outlines_commented`**: all outlines of a file.
-/

namespace SourceAtlas.Tree

variable {source : Bytes} {t u : Tree} {d e : Tree × List Tree}

/-! ## Declarations -/

/-- What a statement declares, with the decorators of its `export`. -/
def declared (node : Tree) : Option (Tree × List Tree) :=
  if node.kind ≠ "export_statement" then some (node, [])
  else
    ((node.child? "declaration").or (node.child? "value")).map fun inner =>
      (inner, node.childrenOf "decorator")

theorem declarations_eq (root : Tree) : root.declarations = root.namedChildren.filterMap declared :=
  rfl

/-- A declaration with more comments, and its decorators. -/
structure Redeclared (d e : Tree × List Tree) : Prop where
  node : Commented d.1 e.1
  decorators : List.Forall₂ Commented d.2 e.2
  kind : ∀ x ∈ d.2, x.kind = "decorator"

theorem rel_or {α β : Type} {R : α → β → Prop} {a a' : Option α} {b b' : Option β}
    (h : Option.Rel R a b) (h' : Option.Rel R a' b') : Option.Rel R (a.or a') (b.or b') := by
  cases h with
  | none => simpa using h'
  | some hab => exact .some hab

theorem rel_declared (h : Commented t u) : Option.Rel Redeclared (declared t) (declared u) := by
  unfold declared
  rw [h.kind_eq]
  by_cases hk : t.kind = "export_statement"
  · have hc : takesComments t.kind = false := by
      rw [hk]
      rfl
    rw [if_neg (not_not.2 hk), if_neg (not_not.2 hk)]
    have hinner := rel_or (h.rel_child? hc "declaration") (h.rel_child? hc "value")
    have hdecorators := h.forall₂_childrenOf hc "decorator"
    generalize (t.child? "declaration").or (t.child? "value") = a at hinner
    generalize (u.child? "declaration").or (u.child? "value") = b at hinner
    cases hinner with
    | none => exact .none
    | some hab => exact .some ⟨hab, hdecorators, fun _ => kind_of_mem_childrenOf⟩
  · rw [if_pos hk, if_pos hk]
    exact .some ⟨h, .nil, nofun⟩

/-- The declarations of some kind, if comments are not of it. -/
theorem forall₂_declarations (h : Commented t u) (p : String → Bool) (hp : p "comment" = false) :
    List.Forall₂ (fun d e => Redeclared d e ∧ p d.1.kind = true)
      (t.declarations.filter fun d => p d.1.kind) (u.declarations.filter fun d => p d.1.kind) := by
  have hnamed := h.namedChildren
  rw [declarations_eq, declarations_eq]
  generalize t.namedChildren = ts at hnamed
  generalize u.namedChildren = us at hnamed
  induction hnamed with
  | nil => exact .nil
  | @keep a b ts us hab _ ih =>
    have hrel := rel_declared hab
    rw [List.filterMap_cons, List.filterMap_cons]
    generalize declared a = d at hrel
    generalize declared b = e at hrel
    cases hrel with
    | none => exact ih
    | @some d e hde =>
      dsimp only
      rw [List.filter_cons, List.filter_cons, hde.node.kind_eq]
      split
      · exact .cons ⟨hde, ‹_›⟩ ih
      · exact ih
  | @comment c ts us hc _ ih =>
    have hd : declared c = some (c, []) := by
      rw [declared, hc.kind]
      rfl
    rw [List.filterMap_cons, hd]
    dsimp only
    rw [List.filter_cons, if_neg (by rw [hc.kind, hp]; exact Bool.false_ne_true)]
    exact ih

theorem functionOutlines_eq (h : Commented t u) :
    functionOutlines source u = functionOutlines source t := by
  refine map_eq_of_forall₂ (forall₂_declarations h (fun k =>
    k = "function_declaration" || k = "generator_function_declaration") rfl) ?_
  rintro ⟨d, ds⟩ ⟨e, es⟩ ⟨⟨hde, -, -⟩, hk⟩
  have hc : takesComments d.kind = false := takesComments_of_or rfl rfl hk
  simp only [hde.fieldText_eq hc, parameters_eq hde hc, annotationText_child?_eq hde hc]

theorem interfaceOutlines_eq (h : Commented t u) :
    interfaceOutlines source u = interfaceOutlines source t := by
  refine map_eq_of_forall₂ (forall₂_declarations h (fun k => k = "interface_declaration") rfl) ?_
  rintro ⟨d, ds⟩ ⟨e, es⟩ ⟨⟨hde, -, -⟩, hk⟩
  have hc : takesComments d.kind = false := by
    rw [of_decide_eq_true hk]
    rfl
  have hbody := hde.rel_child? hc "body"
  simp only [hde.fieldText_eq hc, InterfaceOutline.mk.injEq, true_and]
  generalize d.child? "body" = a at hbody
  generalize e.child? "body" = b at hbody
  cases hbody with
  | none => rfl
  | some hab =>
    refine map_eq_of_forall₂ (hab.forall₂_namedOf (fun k => k = "property_signature") rfl) ?_
    rintro x y ⟨hxy, hx⟩
    have hc : takesComments x.kind = false := by
      rw [of_decide_eq_true hx]
      rfl
    simp only [hxy.fieldText_eq hc, annotationText_child?_eq hxy hc]

theorem importSpecifiers_eq (h : Commented t u) :
    importSpecifiers source u = importSpecifiers source t := by
  have himports := h.forall₂_namedOf (fun k => k = "import_statement" || k = "export_statement") rfl
  have hspecifiers : List.Forall₂ Eq (importSpecifiers source t) (importSpecifiers source u) := by
    refine List.rel_filterMap ?_ himports
    rintro x y ⟨hxy, hx⟩
    have hc : takesComments x.kind = false := takesComments_of_or rfl rfl hx
    have hsource := hxy.rel_child? hc "source"
    dsimp only
    generalize x.child? "source" = a at hsource
    generalize y.child? "source" = b at hsource
    cases hsource with
    | none => exact .none
    | some hab => exact .some (stringValue_eq hab).symm
  rw [List.forall₂_eq_eq_eq] at hspecifiers
  exact hspecifiers.symm

/-! ## Classes -/

/-- The members of a class. -/
def members (node : Tree) : List Tree :=
  match node.child? "body" with
  | none => []
  | some body => body.namedChildren

/-- The members of the classes at the top level. -/
def classMembers (root : Tree) : List (List Tree) :=
  (root.declarations.filter fun (node, _) =>
    node.kind = "class_declaration" || node.kind = "abstract_class_declaration").map
      fun (node, _) => members node

/-- The outline of a class, given with the decorators of its `export`. -/
def classOutline (source : Bytes) (d : Tree × List Tree) : ClassOutline :=
  { name := d.1.fieldText source "name"
    decorators := (d.2 ++ d.1.childrenOf "decorator").map (decoratorOutline source)
    methods := methodOutlines source [] (members d.1) }

theorem classOutlines_eq (source : Bytes) (root : Tree) : classOutlines source root =
    (root.declarations.filter fun (node, _) =>
      node.kind = "class_declaration" || node.kind = "abstract_class_declaration").map
        (classOutline source) := by
  unfold classOutlines
  refine List.map_congr_left ?_
  rintro ⟨node, exported⟩ -
  dsimp only
  rw [classOutline, members]
  cases node.child? "body" <;> rfl

/-- A class whose methods have lost decorators at most, and which is the same otherwise. -/
def ClassLosesDecorators (before after : ClassOutline) : Prop :=
  after.name = before.name ∧ after.decorators = before.decorators ∧
    List.Forall₂ LosesDecorators before.methods after.methods

theorem inserted_members (h : Commented t u) (hc : takesComments t.kind = false) :
    Inserted Commented (members t) (members u) := by
  have hbody := h.rel_child? hc "body"
  unfold members
  generalize t.child? "body" = a at hbody
  generalize u.child? "body" = b at hbody
  cases hbody with
  | none => exact .nil
  | some hab => exact hab.namedChildren

/-- The classes at the top level, as they were and with more comments. -/
theorem forall₂_classes (h : Commented t u) : List.Forall₂
    (fun d e => Redeclared d e ∧ takesComments d.1.kind = false)
    (t.declarations.filter fun (node, _) =>
      node.kind = "class_declaration" || node.kind = "abstract_class_declaration")
    (u.declarations.filter fun (node, _) =>
      node.kind = "class_declaration" || node.kind = "abstract_class_declaration") := by
  refine (forall₂_declarations h (fun k =>
    k = "class_declaration" || k = "abstract_class_declaration") rfl).imp fun d e hde => ?_
  exact ⟨hde.1, takesComments_of_or rfl rfl hde.2⟩

/-- A class is shown as before, but for its methods. -/
theorem classOutline_eq (h : Redeclared d e) (hc : takesComments d.1.kind = false) :
    classOutline source e =
      { classOutline source d with methods := methodOutlines source [] (members e.1) } := by
  have hexported := map_decoratorOutline_eq source h.decorators h.kind
  have hown := map_decoratorOutline_eq source (h.node.forall₂_childrenOf hc "decorator")
    fun _ => kind_of_mem_childrenOf
  simp only [classOutline, h.node.fieldText_eq hc, List.map_append, hexported, hown]

theorem forall₂_classLosesDecorators (h : Commented t u) :
    List.Forall₂ ClassLosesDecorators (classOutlines source t) (classOutlines source u) := by
  rw [classOutlines_eq, classOutlines_eq]
  refine List.rel_map ?_ (forall₂_classes h)
  rintro d e ⟨hde, hc⟩
  have hmembers := inserted_members hde.node hc
  rw [classOutline_eq hde hc]
  exact ⟨rfl, rfl, forall₂_losesDecorators hmembers [] .nil nofun⟩

theorem classOutline_eq_iff (h : Redeclared d e) (hc : takesComments d.1.kind = false) :
    classOutline source e = classOutline source d ↔ ¬ Parted source (members d.1) (members e.1) := by
  rw [classOutline_eq h hc, ← methodOutlines_eq_iff (inserted_members h.node hc)]
  simp [classOutline]

theorem classOutlines_eq_iff (h : Commented t u) : classOutlines source u = classOutlines source t ↔
    ∀ p ∈ t.classMembers.zip u.classMembers, ¬ Parted source p.1 p.2 := by
  rw [classOutlines_eq, classOutlines_eq, classMembers, classMembers]
  have hclasses := forall₂_classes h
  generalize (t.declarations.filter fun (node, _) =>
    node.kind = "class_declaration" || node.kind = "abstract_class_declaration") = ds at hclasses
  generalize (u.declarations.filter fun (node, _) =>
    node.kind = "class_declaration" || node.kind = "abstract_class_declaration") = es at hclasses
  induction hclasses with
  | nil => simp
  | @cons d e ds es hde _ ih =>
    simp only [List.map_cons, List.cons.injEq, List.zip_cons_cons, List.forall_mem_cons, ih,
      classOutline_eq_iff hde.1 hde.2]

/-- **What comments do to the outlines of a file.** Functions, interfaces and imports are as before.
Classes are as before but for decorators that their methods lose; none is lost unless a comment was
put between a method and a decorator before it, and then one is. -/
theorem outlines_commented (source : Bytes) (h : Commented t u) :
    functionOutlines source u = functionOutlines source t ∧
    interfaceOutlines source u = interfaceOutlines source t ∧
    importSpecifiers source u = importSpecifiers source t ∧
    List.Forall₂ ClassLosesDecorators (classOutlines source t) (classOutlines source u) ∧
    (classOutlines source u = classOutlines source t ↔
      ∀ p ∈ t.classMembers.zip u.classMembers, ¬ Parted source p.1 p.2) :=
  ⟨functionOutlines_eq h, interfaceOutlines_eq h, importSpecifiers_eq h,
    forall₂_classLosesDecorators h, classOutlines_eq_iff h⟩

/-- The source of a class with a decorator, a comment and a method. -/
def decoratedSource : Bytes := Utf8.encode "class A \x7b @B /**/ m() \x7b\x7d \x7d"

def someDecorator : Tree :=
  ⟨"decorator", true, none, 10, 12, [⟨"identifier", true, none, 11, 12, []⟩]⟩

def someComment : Tree := ⟨"comment", true, none, 13, 17, []⟩

def someMethod : Tree :=
  ⟨"method_definition", true, none, 18, 24, [⟨"property_identifier", true, some "name", 18, 19, []⟩,
    ⟨"formal_parameters", true, some "parameters", 19, 21, []⟩,
    ⟨"statement_block", true, some "body", 22, 24, []⟩]⟩

/-- A tree of the source, with these members of the class. -/
def decoratedClass (members : List Tree) : Tree :=
  ⟨"program", true, none, 0, 26, [⟨"class_declaration", true, none, 0, 26,
    [⟨"type_identifier", true, some "name", 6, 7, []⟩,
      ⟨"class_body", true, some "body", 8, 26, members⟩]⟩]⟩

theorem outlines_commented_decoratedClass :
    let before := decoratedClass [someDecorator, someMethod]
    let after := decoratedClass [someDecorator, someComment, someMethod]
    Commented before after ∧
      functionOutlines decoratedSource after = functionOutlines decoratedSource before ∧
      classOutlines decoratedSource after ≠ classOutlines decoratedSource before := by
  intro before after
  have hcomment : someComment.IsComment := ⟨rfl, rfl⟩
  have hmembers : Inserted Commented [someDecorator, someMethod]
      [someDecorator, someComment, someMethod] :=
    .keep (.refl _) (.comment hcomment (.keep (.refl _) .nil))
  have hcommented : Commented before after :=
    .within (.cons (.within (.cons (.refl _) (.cons (.among rfl hmembers) .nil))) .nil)
  have hmethod : IsMethod decoratedSource someMethod := ⟨rfl, by decide +kernel⟩
  have hparted : Parted decoratedSource (someDecorator :: ([] ++ [someMethod]))
      (someDecorator :: ([someComment] ++ [someMethod])) :=
    .here rfl (.refl _) nofun (.comment hcomment .nil) Nat.one_pos hmethod (.refl _) .nil
  obtain ⟨hfunctions, -, -, -, hclasses⟩ := outlines_commented decoratedSource hcommented
  refine ⟨hcommented, hfunctions, fun heq => ?_⟩
  exact hclasses.1 heq _ (List.mem_singleton.2 rfl) hparted

end SourceAtlas.Tree
