import SourceAtlas.Outline.OfTree
import SourceAtlas.Proofs.Outline.Commented

/-!
# Methods among more comments

Parameters, types, decorators and module specifiers are shown as before when a tree has more
comments. Methods are, too, unless a comment was put between one of them and a decorator before it:
whatever is no decorator keeps the decorators before it from the method after it.

* `Tree.annotationText_eq`, `Tree.parameters_eq`, `Tree.decoratorOutline_eq`, `Tree.stringValue_eq`:
  parts of declarations;
* `Tree.IsMethod`, `Tree.methodOutline`: the methods that are shown, and their outlines;
* `Tree.Parted`: a comment was put between a decorator and its method;
* `Tree.methodOutlines_eq_or_parted`, `Tree.methodOutlines_ne_of_parted`: what follows if none was,
  and if one was;
* **`Tree.methodOutlines_eq_iff`**: exactly which comments change the methods of a class;
* `Tree.LosesDecorators`, `Tree.forall₂_losesDecorators`: what they change.
-/

namespace SourceAtlas.Tree

variable {source : Bytes} {t u : Tree}

/-! ## Parts of declarations -/

theorem annotationText_eq {a b : Option Tree} (h : Option.Rel Commented a b) :
    annotationText source b = annotationText source a := by
  cases h with
  | none => rfl
  | some hab => simp only [annotationText, hab.text_eq source]

theorem annotationText_child?_eq (h : Commented t u) (hk : takesComments t.kind = false)
    (name : String) : annotationText source (u.child? name) = annotationText source (t.child? name) :=
  annotationText_eq (h.rel_child? hk name)

/-- Nodes of one of two kinds take no comments if neither kind does. -/
theorem takesComments_of_or {a b kind : String} (ha : takesComments a = false)
    (hb : takesComments b = false) (h : (kind = a || kind = b) = true) :
    takesComments kind = false := by
  simp only [Bool.or_eq_true, decide_eq_true_eq] at h
  rcases h with rfl | rfl
  · exact ha
  · exact hb

theorem parameters_eq (h : Commented t u) (hk : takesComments t.kind = false) :
    parameters source u = parameters source t := by
  have hchild := h.rel_child? hk "parameters"
  unfold parameters
  generalize t.child? "parameters" = ps at hchild
  generalize u.child? "parameters" = qs at hchild
  cases hchild with
  | none => rfl
  | some hpq =>
    refine map_eq_of_forall₂ (hpq.forall₂_namedOf
      (fun k => k = "required_parameter" || k = "optional_parameter") rfl) ?_
    rintro p q ⟨hpq, hp⟩
    have hk := takesComments_of_or rfl rfl hp
    simp only [hpq.fieldText_eq hk, annotationText_child?_eq hpq hk]

theorem decoratorOutline_eq (h : Commented t u) (hk : takesComments t.kind = false) :
    decoratorOutline source u = decoratorOutline source t := by
  have hnamed := h.forall₂_namedChildren hk
  unfold decoratorOutline
  generalize t.namedChildren = ts at hnamed
  generalize u.namedChildren = us at hnamed
  cases hnamed with
  | nil => rfl
  | @cons a b _ _ hab _ =>
    dsimp only
    rw [hab.kind_eq, hab.text_eq source]
    by_cases hcall : a.kind = "call_expression"
    · have hk : takesComments a.kind = false := by
        rw [hcall]
        rfl
      have hchild := hab.rel_child? hk "arguments"
      rw [if_pos hcall, if_pos hcall, hab.fieldText_eq hk]
      generalize a.child? "arguments" = as at hchild
      generalize b.child? "arguments" = bs at hchild
      cases hchild with
      | none => rfl
      | some hargs =>
        rw [DecoratorOutline.mk.injEq]
        refine ⟨rfl, map_eq_of_forall₂ (hargs.forall₂_namedOf (fun k => k ≠ "comment") rfl) ?_⟩
        exact fun x y hxy => hxy.1.text_eq source
    · rw [if_neg hcall, if_neg hcall]

theorem stringValue_eq (h : Commented t u) : stringValue source u = stringValue source t := by
  have hfragments := h.forall₂_namedOf (fun k => k = "string_fragment") rfl
  unfold stringValue
  generalize t.namedChildren.filter (fun c => decide (c.kind = "string_fragment")) = ts at hfragments
  generalize u.namedChildren.filter (fun c => decide (c.kind = "string_fragment")) = us at hfragments
  have htexts := map_eq_of_forall₂ hfragments fun x y hxy => hxy.1.text_eq source
  cases hfragments with
  | nil => rw [h.text_eq source]
  | cons => simp only [List.flatMap_def, htexts]

/-! ## Methods -/

/-- A method with a body that is neither constructor nor accessor. -/
def IsMethod (source : Bytes) (m : Tree) : Prop :=
  m.kind = "method_definition" ∧ isPlainMethod source m = true

/-- The outline of a method that decorators stand before. -/
def methodOutline (source : Bytes) (pending : List Tree) (m : Tree) : MethodOutline :=
  { name := m.fieldText source "name"
    parameters := parameters source m
    returnType := annotationText source (m.child? "return_type")
    decorators := (pending ++ m.childrenOf "decorator").map (decoratorOutline source) }

variable {m m' : Tree} {ms ms' pending pending' : List Tree}

theorem methodOutlines_decorator (h : m.kind = "decorator") :
    methodOutlines source pending (m :: ms) = methodOutlines source (pending ++ [m]) ms := by
  rw [methodOutlines, if_pos h]

theorem methodOutlines_method (h : IsMethod source m) : methodOutlines source pending (m :: ms) =
    methodOutline source pending m :: methodOutlines source [] ms := by
  rw [methodOutlines, if_neg (by rw [h.1]; decide), if_pos (by simp [h.1, h.2])]
  rfl

theorem methodOutlines_other (hd : m.kind ≠ "decorator") (h : ¬ IsMethod source m) :
    methodOutlines source pending (m :: ms) = methodOutlines source [] ms := by
  rw [methodOutlines, if_neg hd, if_neg (by simpa [IsMethod] using h)]

theorem methodOutlines_comment (h : m.IsComment) :
    methodOutlines source pending (m :: ms) = methodOutlines source [] ms :=
  methodOutlines_other (by rw [h.kind]; decide) fun hm => by simpa [h.kind] using hm.1

theorem methodOutlines_decorators (h : ∀ d ∈ ms, d.kind = "decorator") :
    methodOutlines source pending (ms ++ ms') = methodOutlines source (pending ++ ms) ms' := by
  induction ms generalizing pending with
  | nil => simp
  | cons d ms ih =>
    obtain ⟨hd, hms⟩ := List.forall_mem_cons.1 h
    rw [List.cons_append, methodOutlines_decorator hd, ih hms, List.append_assoc]
    rfl

/-! ### What comments do to methods -/

/-- A comment was put between a decorator and the method that it stands before. -/
inductive Parted (source : Bytes) : List Tree → List Tree → Prop where
  | here {d d' m m' : Tree} {ds ds' ms ms' : List Tree} (hd : d.kind = "decorator")
    (hd' : Commented d d') (hds : ∀ d ∈ ds, d.kind = "decorator") (hds' : Inserted Commented ds ds')
    (hlength : ds.length < ds'.length) (hm : IsMethod source m) (hm' : Commented m m')
    (hms : Inserted Commented ms ms') : Parted source (d :: (ds ++ m :: ms)) (d' :: (ds' ++ m' :: ms'))
  | keep {m m' : Tree} {ms ms' : List Tree} (hm : Commented m m') (h : Parted source ms ms') :
    Parted source (m :: ms) (m' :: ms')
  | comment {c : Tree} {ms ms' : List Tree} (hc : c.IsComment) (h : Parted source ms ms') :
    Parted source ms (c :: ms')

theorem Parted.append {ds ds' : List Tree} (hds : List.Forall₂ Commented ds ds')
    (h : Parted source ms ms') : Parted source (ds ++ ms) (ds' ++ ms') := by
  induction hds with
  | nil => exact h
  | cons hd _ ih => exact .keep hd ih

theorem takesComments_of_decorator (h : m.kind = "decorator") : takesComments m.kind = false := by
  rw [h]
  rfl

theorem takesComments_of_method (h : m.kind = "method_definition") :
    takesComments m.kind = false := by
  rw [h]
  rfl

theorem isMethod_iff (h : Commented m m') : IsMethod source m' ↔ IsMethod source m := by
  unfold IsMethod
  rw [h.kind_eq]
  refine and_congr_right fun hk => ?_
  have hc := takesComments_of_method hk
  rw [isPlainMethod, isPlainMethod, h.fieldText_eq hc, h.hasToken_eq hc, h.hasToken_eq hc]

/-- Decorators are shown as before. -/
theorem map_decoratorOutline_eq (source : Bytes) {ds ds' : List Tree} (h : List.Forall₂ Commented ds ds')
    (hk : ∀ d ∈ ds, d.kind = "decorator") :
    ds'.map (decoratorOutline source) = ds.map (decoratorOutline source) := by
  induction h with
  | nil => rfl
  | @cons d d' ds ds' hd _ ih =>
    obtain ⟨hdk, hdsk⟩ := List.forall_mem_cons.1 hk
    rw [List.map_cons, List.map_cons, ih hdsk, decoratorOutline_eq hd (takesComments_of_decorator hdk)]

/-- A method is shown as before, but for the decorators that stand before it. -/
theorem methodOutline_eq (hm : Commented m m') (hk : m.kind = "method_definition") :
    methodOutline source pending m' = methodOutline source pending m := by
  have hc := takesComments_of_method hk
  have hown := map_decoratorOutline_eq source (hm.forall₂_childrenOf hc "decorator")
    fun _ => kind_of_mem_childrenOf
  rw [methodOutline, methodOutline, hm.fieldText_eq hc, parameters_eq hm hc,
    annotationText_child?_eq hm hc, List.map_append, List.map_append, hown]

theorem methodOutline_congr
    (h : pending'.map (decoratorOutline source) = pending.map (decoratorOutline source)) :
    methodOutline source pending' m = methodOutline source pending m := by
  rw [methodOutline, methodOutline, List.map_append, List.map_append, h]

/-- The decorators before the first other member stand before a method, or they count for nothing. -/
theorem methodOutlines_pending (source : Bytes) (pending ms : List Tree) :
    methodOutlines source pending ms = methodOutlines source [] ms ∨
      ∃ ds m others, ms = ds ++ m :: others ∧ (∀ d ∈ ds, d.kind = "decorator") ∧
        IsMethod source m := by
  induction ms generalizing pending with
  | nil => exact .inl rfl
  | cons m ms ih =>
    by_cases hd : m.kind = "decorator"
    · rw [methodOutlines_decorator hd, methodOutlines_decorator hd]
      rcases ih (pending ++ [m]) with h | ⟨ds, n, others, rfl, hds, hn⟩
      · rcases ih [m] with h' | ⟨ds, n, others, rfl, hds, hn⟩
        · exact .inl (h.trans h'.symm)
        · exact .inr ⟨m :: ds, n, others, rfl, List.forall_mem_cons.2 ⟨hd, hds⟩, hn⟩
      · exact .inr ⟨m :: ds, n, others, rfl, List.forall_mem_cons.2 ⟨hd, hds⟩, hn⟩
    · by_cases hm : IsMethod source m
      · exact .inr ⟨[], m, ms, rfl, nofun, hm⟩
      · rw [methodOutlines_other hd hm, methodOutlines_other hd hm]
        exact .inl rfl

/-- **Methods are as before** unless a comment was put between one of them and a decorator. -/
theorem methodOutlines_eq_or_parted (h : Inserted Commented ms ms')
    (hp : List.Forall₂ Commented pending pending') (hk : ∀ d ∈ pending, d.kind = "decorator") :
    methodOutlines source pending' ms' = methodOutlines source pending ms ∨
      Parted source (pending ++ ms) (pending' ++ ms') := by
  induction h generalizing pending pending' with
  | nil => exact .inl rfl
  | @keep m m' ms ms' hm hms ih =>
    by_cases hd : m.kind = "decorator"
    · have hd' : m'.kind = "decorator" := hm.kind_eq.trans hd
      rw [methodOutlines_decorator hd, methodOutlines_decorator hd']
      have hnext := ih (List.rel_append hp (.cons hm .nil)) (List.forall_mem_append.2
        ⟨hk, by simpa using hd⟩)
      simpa using hnext
    · have hd' : m'.kind ≠ "decorator" := hm.kind_eq.trans_ne hd
      by_cases hmethod : IsMethod source m
      · rw [methodOutlines_method hmethod, methodOutlines_method ((isMethod_iff hm).2 hmethod),
          methodOutline_eq hm hmethod.1, methodOutline_congr (map_decoratorOutline_eq source hp hk)]
        rcases ih .nil nofun with heq | hparted
        · exact .inl (congrArg _ heq)
        · exact .inr (.append hp (.keep hm hparted))
      · rw [methodOutlines_other hd hmethod, methodOutlines_other hd' (mt (isMethod_iff hm).1 hmethod)]
        rcases ih .nil nofun with heq | hparted
        · exact .inl heq
        · exact .inr (.append hp (.keep hm hparted))
  | @comment c ms ms' hc hms ih =>
    rw [methodOutlines_comment hc]
    rcases ih .nil nofun with heq | hparted
    · cases hp with
      | nil => exact .inl heq
      | @cons d d' ds ds' hd hds =>
        rcases methodOutlines_pending source (d :: ds) ms with hsame | ⟨ds₂, m, others, rfl, hds₂, hm⟩
        · exact .inl (heq.trans hsame.symm)
        · -- The comment stands after the decorator `d` and before the method `m`.
          obtain ⟨ds₂', m', others', rfl, hbefore, hm', hafter⟩ := hms.exists_of_append_cons
          obtain ⟨hdk, hdsk⟩ := List.forall_mem_cons.1 hk
          have hbetween : Inserted Commented (ds ++ ds₂) (ds' ++ c :: ds₂') :=
            (Inserted.of_forall₂ hds).append (.comment hc hbefore)
          have hlength : (ds ++ ds₂).length < (ds' ++ c :: ds₂').length := by
            have hle := hbefore.length_le
            rw [List.length_append, List.length_append, List.length_cons, hds.length_eq]
            omega
          right
          simpa using Parted.here hdk hd (List.forall_mem_append.2 ⟨hdsk, hds₂⟩) hbetween hlength hm
            hm' hafter
    · exact .inr (.append hp (.comment hc hparted))

/-- What is left of decorators among which comments were put. -/
theorem exists_kept {ds ds' : List Tree} (h : Inserted Commented ds ds')
    (hk : ∀ d ∈ ds, d.kind = "decorator") (pending others : List Tree) :
    ∃ kept, methodOutlines source pending (ds' ++ others) = methodOutlines source kept others ∧
      kept.length ≤ pending.length + ds.length ∧
      (ds.length < ds'.length → kept.length ≤ ds.length) := by
  induction h generalizing pending with
  | nil => exact ⟨pending, rfl, by simp, by simp⟩
  | @keep d d' ds ds' hd _ ih =>
    obtain ⟨hdk, hdsk⟩ := List.forall_mem_cons.1 hk
    obtain ⟨kept, heq, hle, hlt⟩ := ih hdsk (pending ++ [d'])
    refine ⟨kept, ?_, ?_, ?_⟩
    · rw [List.cons_append, methodOutlines_decorator (hd.kind_eq.trans hdk), heq]
    · simp only [List.length_append, List.length_cons, List.length_nil] at hle ⊢
      omega
    · simp only [List.length_cons]
      omega
  | @comment c ds ds' hc _ ih =>
    obtain ⟨kept, heq, hle, -⟩ := ih hk []
    rw [List.length_nil, Nat.zero_add] at hle
    refine ⟨kept, ?_, Nat.le_trans hle (Nat.le_add_left _ _), fun _ => hle⟩
    rw [List.cons_append, methodOutlines_comment hc, heq]

/-- **A method loses decorators** when a comment was put between it and one of them. -/
theorem methodOutlines_ne_of_parted (h : Parted source ms ms') (pending pending' : List Tree) :
    methodOutlines source pending' ms' ≠ methodOutlines source pending ms := by
  induction h generalizing pending pending' with
  | @here d d' m m' ds ds' ms ms' hd hd' hds hds' hlength hm hm' hms =>
    obtain ⟨kept, heq, -, hkept⟩ := exists_kept hds' hds (pending' ++ [d']) (m' :: ms')
    rw [methodOutlines_decorator hd, methodOutlines_decorator (hd'.kind_eq.trans hd), heq,
      methodOutlines_decorators hds, methodOutlines_method hm,
      methodOutlines_method ((isMethod_iff hm').2 hm), methodOutline_eq hm' hm.1]
    intro hcons
    have hdecorators := congrArg (fun o => o.decorators.length) (List.cons.inj hcons).1
    have hle := hkept hlength
    simp only [methodOutline, List.length_map, List.length_append, List.length_cons,
      List.length_nil] at hdecorators
    omega
  | @keep m m' ms ms' hm _ ih =>
    by_cases hd : m.kind = "decorator"
    · rw [methodOutlines_decorator hd, methodOutlines_decorator (hm.kind_eq.trans hd)]
      exact ih _ _
    · have hd' : m'.kind ≠ "decorator" := hm.kind_eq.trans_ne hd
      by_cases hmethod : IsMethod source m
      · rw [methodOutlines_method hmethod, methodOutlines_method ((isMethod_iff hm).2 hmethod)]
        exact fun hcons => ih [] [] (List.cons.inj hcons).2
      · rw [methodOutlines_other hd hmethod, methodOutlines_other hd' (mt (isMethod_iff hm).1 hmethod)]
        exact ih [] []
  | comment hc _ ih =>
    rw [methodOutlines_comment hc]
    exact ih pending []

theorem methodOutlines_eq_iff (h : Inserted Commented ms ms') :
    methodOutlines source [] ms' = methodOutlines source [] ms ↔ ¬ Parted source ms ms' := by
  constructor
  · exact fun heq hparted => methodOutlines_ne_of_parted hparted [] [] heq
  · exact (methodOutlines_eq_or_parted h .nil nofun).resolve_right

/-- A method has lost the first of its decorators, or none, and nothing else. -/
def LosesDecorators (before after : MethodOutline) : Prop :=
  ∃ lost, before = { after with decorators := lost ++ after.decorators }

/-- Methods lose decorators at most. -/
theorem forall₂_losesDecorators (h : Inserted Commented ms ms') (lost : List Tree) {kept : List Tree}
    (hp : List.Forall₂ Commented kept pending') (hk : ∀ d ∈ kept, d.kind = "decorator") :
    List.Forall₂ LosesDecorators (methodOutlines source (lost ++ kept) ms)
      (methodOutlines source pending' ms') := by
  induction h generalizing lost kept pending' with
  | nil => exact .nil
  | @keep m m' ms ms' hm hms ih =>
    by_cases hd : m.kind = "decorator"
    · rw [methodOutlines_decorator hd, methodOutlines_decorator (hm.kind_eq.trans hd),
        List.append_assoc]
      exact ih lost (List.rel_append hp (.cons hm .nil))
        (List.forall_mem_append.2 ⟨hk, by simpa using hd⟩)
    · have hd' : m'.kind ≠ "decorator" := hm.kind_eq.trans_ne hd
      have hothers : List.Forall₂ LosesDecorators (methodOutlines source [] ms)
          (methodOutlines source [] ms') := ih [] .nil nofun
      by_cases hmethod : IsMethod source m
      · rw [methodOutlines_method hmethod, methodOutlines_method ((isMethod_iff hm).2 hmethod),
          methodOutline_eq hm hmethod.1, methodOutline_congr (map_decoratorOutline_eq source hp hk)]
        refine .cons ⟨lost.map (decoratorOutline source), ?_⟩ hothers
        simp only [methodOutline, List.map_append, List.append_assoc]
      · rw [methodOutlines_other hd hmethod, methodOutlines_other hd' (mt (isMethod_iff hm).1 hmethod)]
        exact hothers
  | @comment c ms ms' hc hms ih =>
    rw [methodOutlines_comment hc]
    have hnext := ih (lost ++ kept) .nil nofun
    rwa [List.append_nil] at hnext

end SourceAtlas.Tree
