import Mathlib.Data.List.Forall2
import SourceAtlas.Tree

/-!
# Trees with more comments

Comments are put among the children of some nodes of a syntax tree: of the whole file, of the bodies
of classes and interfaces, and of lists of parameters and arguments. All other nodes stay, with the
octets that they cover.

* `Tree.IsComment`, `Tree.takesComments`: what is put where;
* `Tree.Inserted`: a list of nodes with comments put among them;
* `Tree.Commented`: a tree with more comments;
* `Tree.Inserted.filter`, `Tree.Inserted.forall₂_filter`: the nodes of some kind in both lists;
* `Tree.Commented.namedChildren`, `Tree.Commented.forall₂_namedOf`, `Tree.Commented.rel_child?`: what
  is found among the children in both trees;
* `Tree.Commented.refl`: a tree as it is.
-/

namespace SourceAtlas.Tree

/-! ## Comments among nodes -/

/-- A comment is a node of its own kind. -/
structure IsComment (c : Tree) : Prop where
  kind : c.kind = "comment"
  named : c.named = true

/-- Comments are put among the children of nodes of this kind. -/
def takesComments (kind : String) : Bool :=
  ["program", "class_body", "interface_body", "formal_parameters", "arguments"].contains kind

/-- The nodes of a list correspond to those of another one, which has comments more. -/
inductive Inserted (R : Tree → Tree → Prop) : List Tree → List Tree → Prop where
  | nil : Inserted R [] []
  | keep {t u : Tree} {ts us : List Tree} (ht : R t u) (hts : Inserted R ts us) :
    Inserted R (t :: ts) (u :: us)
  | comment {c : Tree} {ts us : List Tree} (hc : c.IsComment) (hts : Inserted R ts us) :
    Inserted R ts (c :: us)

/-- A tree with more comments. -/
inductive Commented : Tree → Tree → Prop where
  | among {kind : String} {named : Bool} {field : Option String} {start stop : Nat}
    {ts us : List Tree} (hk : takesComments kind = true) (h : Inserted Commented ts us) :
    Commented ⟨kind, named, field, start, stop, ts⟩ ⟨kind, named, field, start, stop, us⟩
  | within {kind : String} {named : Bool} {field : Option String} {start stop : Nat}
    {ts us : List Tree} (h : List.Forall₂ Commented ts us) :
    Commented ⟨kind, named, field, start, stop, ts⟩ ⟨kind, named, field, start, stop, us⟩

namespace Inserted

variable {R : Tree → Tree → Prop} {t : Tree} {ts us as bs : List Tree} {p : Tree → Bool}

theorem of_forall₂ (h : List.Forall₂ R ts us) : Inserted R ts us := by
  induction h with
  | nil => exact .nil
  | cons ht _ ih => exact .keep ht ih

theorem length_le (h : Inserted R ts us) : ts.length ≤ us.length := by
  induction h with
  | nil => exact Nat.le_refl 0
  | keep _ _ ih => simpa using ih
  | comment _ _ ih =>
    rw [List.length_cons]
    omega

/-- The nodes of some kind, if comments are of it. -/
theorem filter (hp : ∀ t u, R t u → p u = p t) (hc : ∀ c, IsComment c → p c = true)
    (h : Inserted R ts us) : Inserted R (ts.filter p) (us.filter p) := by
  induction h with
  | nil => exact .nil
  | @keep t u ts us ht _ ih =>
    rw [List.filter_cons, List.filter_cons, hp t u ht]
    split
    · exact .keep ht ih
    · exact ih
  | @comment c ts us hcomment _ ih =>
    rw [List.filter_cons, if_pos (hc c hcomment)]
    exact .comment hcomment ih

/-- The nodes of some kind, if comments are not of it. -/
theorem forall₂_filter (hp : ∀ t u, R t u → p u = p t) (hc : ∀ c, IsComment c → p c = false)
    (h : Inserted R ts us) :
    List.Forall₂ (fun t u => R t u ∧ p t = true) (ts.filter p) (us.filter p) := by
  induction h with
  | nil => exact .nil
  | @keep t u ts us ht _ ih =>
    rw [List.filter_cons, List.filter_cons, hp t u ht]
    split
    · exact .cons ⟨ht, ‹_›⟩ ih
    · exact ih
  | @comment c ts us hcomment _ ih =>
    rw [List.filter_cons, if_neg (by simp [hc c hcomment])]
    exact ih

/-- Where one of the nodes comes to stand. -/
theorem exists_of_append_cons (h : Inserted R (as ++ t :: bs) us) : ∃ as' u bs',
    us = as' ++ u :: bs' ∧ Inserted R as as' ∧ R t u ∧ Inserted R bs bs' := by
  generalize hts : as ++ t :: bs = ts at h
  induction h generalizing as with
  | nil => simp at hts
  | @keep t' u' ts us ht hrest ih =>
    cases as with
    | nil =>
      cases hts
      exact ⟨[], u', us, rfl, .nil, ht, hrest⟩
    | cons a as =>
      rw [List.cons_append, List.cons.injEq] at hts
      obtain ⟨rfl, hts⟩ := hts
      obtain ⟨as', u, bs', rfl, has, hu, hbs⟩ := ih hts
      exact ⟨u' :: as', u, bs', rfl, .keep ht has, hu, hbs⟩
  | @comment c ts us hc _ ih =>
    obtain ⟨as', u, bs', rfl, has, hu, hbs⟩ := ih hts
    exact ⟨c :: as', u, bs', rfl, .comment hc has, hu, hbs⟩

theorem append {cs ds : List Tree} (h : Inserted R ts us) (h' : Inserted R cs ds) :
    Inserted R (ts ++ cs) (us ++ ds) := by
  induction h with
  | nil => exact h'
  | keep ht _ ih => exact .keep ht ih
  | comment hc _ ih => exact .comment hc ih

end Inserted

/-- What is made of nodes that correspond. -/
theorem map_eq_of_forall₂ {α β γ : Type} {R : α → β → Prop} {f : α → γ} {g : β → γ} {xs : List α}
    {ys : List β} (h : List.Forall₂ R xs ys) (hfg : ∀ x y, R x y → g y = f x) :
    ys.map g = xs.map f := by
  induction h with
  | nil => rfl
  | cons hxy _ ih => rw [List.map_cons, List.map_cons, ih, hfg _ _ hxy]

theorem kind_of_mem_childrenOf {t c : Tree} {kind : String} (h : c ∈ t.childrenOf kind) :
    c.kind = kind :=
  of_decide_eq_true (List.mem_filter.1 h).2

/-! ## Trees with more comments -/

namespace Commented

variable {t u : Tree} {ts us : List Tree} {p : Tree → Bool}

theorem kind_eq (h : Commented t u) : u.kind = t.kind := by
  cases h <;> rfl

theorem named_eq (h : Commented t u) : u.named = t.named := by
  cases h <;> rfl

theorem field_eq (h : Commented t u) : u.field = t.field := by
  cases h <;> rfl

theorem text_eq (h : Commented t u) (source : Bytes) : u.text source = t.text source := by
  cases h <;> rfl

theorem children (h : Commented t u) : Inserted Commented t.children u.children := by
  cases h with
  | among _ h => exact h
  | within h => exact .of_forall₂ h

theorem namedChildren (h : Commented t u) : Inserted Commented t.namedChildren u.namedChildren :=
  h.children.filter (fun _ _ => named_eq) fun _ hc => hc.named

/-- The named children of some kind, if comments are not of it. -/
theorem forall₂_namedOf (h : Commented t u) (p : String → Bool) (hp : p "comment" = false) :
    List.Forall₂ (fun t u => Commented t u ∧ p t.kind = true)
      (t.namedChildren.filter fun c => p c.kind) (u.namedChildren.filter fun c => p c.kind) :=
  h.namedChildren.forall₂_filter (fun _ _ h' => by rw [h'.kind_eq]) fun c hc => by rw [hc.kind, hp]

/-- Nodes of other kinds have children as before. -/
theorem forall₂_children (h : Commented t u) (hk : takesComments t.kind = false) :
    List.Forall₂ Commented t.children u.children := by
  cases h with
  | among hk' _ => cases hk'.symm.trans hk
  | within h => exact h

theorem forall₂_filter (h : List.Forall₂ Commented ts us) (hp : ∀ t u, Commented t u → p u = p t) :
    List.Forall₂ Commented (ts.filter p) (us.filter p) :=
  List.rel_filter (fun t u htu => show p t = true ↔ p u = true by rw [hp t u htu]) h

theorem forall₂_namedChildren (h : Commented t u) (hk : takesComments t.kind = false) :
    List.Forall₂ Commented t.namedChildren u.namedChildren :=
  forall₂_filter (h.forall₂_children hk) fun _ _ => named_eq

theorem forall₂_childrenOf (h : Commented t u) (hk : takesComments t.kind = false)
    (kind : String) : List.Forall₂ Commented (t.childrenOf kind) (u.childrenOf kind) :=
  forall₂_filter (h.forall₂_children hk) fun _ _ h' => by rw [h'.kind_eq]

theorem rel_child? (h : Commented t u) (hk : takesComments t.kind = false) (name : String) :
    Option.Rel Commented (t.child? name) (u.child? name) := by
  have hchildren := h.forall₂_children hk
  unfold child?
  generalize t.children = ts at hchildren
  generalize u.children = us at hchildren
  induction hchildren with
  | nil => exact .none
  | @cons a b ts us hab _ ih =>
    rw [List.find?_cons, List.find?_cons, hab.field_eq]
    split
    · exact .some hab
    · exact ih

theorem fieldText_eq (h : Commented t u) (hk : takesComments t.kind = false) (source : Bytes)
    (name : String) : u.fieldText source name = t.fieldText source name := by
  have hchild := h.rel_child? hk name
  unfold fieldText
  generalize t.child? name = c at hchild
  generalize u.child? name = d at hchild
  cases hchild with
  | none => rfl
  | some hcd => exact hcd.text_eq source

theorem hasToken_eq (h : Commented t u) (hk : takesComments t.kind = false) (kind : String) :
    u.hasToken kind = t.hasToken kind := by
  have hchildren := h.forall₂_children hk
  unfold hasToken
  generalize t.children = ts at hchildren
  generalize u.children = us at hchildren
  induction hchildren with
  | nil => rfl
  | cons hab _ ih => rw [List.any_cons, List.any_cons, ih, hab.named_eq, hab.kind_eq]

mutual

/-- A tree as it is has no comment less. -/
theorem refl : ∀ t : Tree, Commented t t
  | ⟨_, _, _, _, _, ts⟩ => .within (forall₂_refl ts)

theorem forall₂_refl : ∀ ts : List Tree, List.Forall₂ Commented ts ts
  | [] => .nil
  | t :: ts => .cons (refl t) (forall₂_refl ts)

end

end Commented

end SourceAtlas.Tree
