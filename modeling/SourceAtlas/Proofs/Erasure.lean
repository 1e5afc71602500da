import Mathlib.Data.List.Perm.Basic
import Mathlib.Order.Nat
import SourceAtlas.Erasure

/-!
# What erasure keeps

The ranges of a tree whose nodes lie in order are apart from each other, and to cut them out leaves
what a recursion over the tree keeps.

* `Tree.IsOrdered`: nodes lie within the node around them, one after the other;
* `Erasure.keep`: what is kept of a node;
* `Erasure.uncut`: the octets whose places are outside of some ranges; `Erasure.cut_eq_uncut`: cuts
  of ranges that are apart leave these;
* `Erasure.collect_append`: the stack is worked off node by node;
* `Erasure.Within`, `Erasure.LeftOut`: the nodes of a tree, and the range that one of them gives;
* **`Erasure.cut_ranges`**: the ranges are apart, and what is left is what is kept.
-/

namespace SourceAtlas

/-- Each node lies within the node around it, and siblings lie one after the other. A node may be
empty. -/
inductive Tree.IsOrdered : Tree → Prop where
  | node {t : Tree} : t.start ≤ t.stop → (∀ c ∈ t.children, t.start ≤ c.start ∧ c.stop ≤ t.stop) →
      t.children.Pairwise (fun c d => c.stop ≤ d.start) → (∀ c ∈ t.children, c.IsOrdered) →
      t.IsOrdered

/-- A node without children. -/
theorem Tree.IsOrdered.leaf {t : Tree} (h : t.start ≤ t.stop) (hc : t.children = []) :
    t.IsOrdered :=
  .node h (by simp [hc]) (by simp [hc]) (by simp [hc])

theorem Tree.IsOrdered.start_le_stop {t : Tree} (h : t.IsOrdered) : t.start ≤ t.stop := by
  cases h
  assumption

namespace Erasure

/-! ## What is kept of a node -/

/-- The octets from place `a` up to place `b`. -/
def slice (source : Bytes) (a b : Nat) : Bytes := (source.take b).drop a

mutual

/-- What is kept of a node, `parent` being the kind of the node around it: nothing of an erased
node, of an unwrapped one what precedes its first named child and what is kept of that child, and of
all others the octets with each child replaced by what is kept of it. -/
def keep (source : Bytes) (parent : Option String) : Tree → Bytes
  | ⟨kind, named, field, start, stop, children⟩ =>
    let t : Tree := ⟨kind, named, field, start, stop, children⟩
    if isErased parent t then []
    else if isUnwrapped t && children.any (fun c => c.named) then keepInner source kind start children
    else keepChildren source kind stop start children

/-- What is kept of a node from place `a` on, `children` being the children from there on. -/
def keepChildren (source : Bytes) (kind : String) (stop a : Nat) : List Tree → Bytes
  | [] => slice source a stop
  | c :: cs => slice source a c.start ++ (keep source (some kind) c ++
      keepChildren source kind stop c.stop cs)

/-- What precedes the first named child and what is kept of it. -/
def keepInner (source : Bytes) (kind : String) (start : Nat) : List Tree → Bytes
  | [] => []
  | c :: cs =>
    if c.named then slice source start c.start ++ keep source (some kind) c
    else keepInner source kind start cs

end

variable {source : Bytes} {parent : Option String} {t inner : Tree} {rs rs' : List (Nat × Nat)}
  {a b m : Nat}

theorem keepInner_eq (kind : String) (start : Nat) {cs : List Tree}
    (h : (cs.filter fun c => c.named).head? = some inner) :
    keepInner source kind start cs =
      slice source start inner.start ++ keep source (some kind) inner := by
  induction cs with
  | nil => cases h
  | cons c cs ih =>
    rw [keepInner]
    cases hc : c.named with
    | true =>
      rw [List.filter_cons_of_pos hc, List.head?_cons, Option.some.injEq] at h
      rw [if_pos rfl, h]
    | false =>
      rw [List.filter_cons_of_neg (by simp [hc])] at h
      rw [if_neg Bool.false_ne_true, ih h]

theorem keep_of_isErased (h : isErased parent t = true) : keep source parent t = [] := by
  cases t
  rw [keep, if_pos h]

theorem keep_of_inner? (h : isErased parent t = false) (hi : inner? t = some inner) :
    keep source parent t =
      slice source t.start inner.start ++ keep source (some t.kind) inner := by
  obtain ⟨kind, named, field, start, stop, children⟩ := t
  unfold inner? at hi
  split at hi
  · rename_i hu
    have hany : children.any (fun c => c.named) = true :=
      List.any_eq_true.2 ⟨inner, List.mem_filter.1 (List.mem_of_head? hi)⟩
    rw [keep, if_neg (by simp [h]), if_pos (by rw [hu, hany]; rfl), keepInner_eq kind start hi]
  · cases hi

theorem keep_of_children (h : isErased parent t = false) (hi : inner? t = none) :
    keep source parent t = keepChildren source t.kind t.stop t.start t.children := by
  obtain ⟨kind, named, field, start, stop, children⟩ := t
  rw [keep, if_neg (by simp [h]), if_neg]
  intro hu
  rw [Bool.and_eq_true, List.any_eq_true] at hu
  obtain ⟨hu, c, hc, hn⟩ := hu
  have hmem : c ∈ Tree.namedChildren ⟨kind, named, field, start, stop, children⟩ :=
    List.mem_filter.2 ⟨hc, hn⟩
  rw [inner?, if_pos hu, List.head?_eq_none_iff] at hi
  rw [hi] at hmem
  cases hmem

/-! ## The octets outside of ranges -/

/-- Two ranges of which one ends before the other starts. -/
def Apart (r s : Nat × Nat) : Prop := r.2 ≤ s.1 ∨ s.2 ≤ r.1

theorem Apart.symm {r s : Nat × Nat} (h : Apart r s) : Apart s r := Or.symm h

/-- The place `i` is in none of the ranges. -/
def isOutside (rs : List (Nat × Nat)) (i : Nat) : Bool := rs.all fun r => i < r.1 || r.2 ≤ i

/-- The octets from place `a` up to place `b` whose places are outside of the ranges. -/
def uncut (source : Bytes) (rs : List (Nat × Nat)) (a b : Nat) : Bytes :=
  (List.range' a (b - a)).filterMap fun i => if isOutside rs i then source[i]? else none

theorem isOutside_append (i : Nat) :
    isOutside (rs ++ rs') i = (isOutside rs i && isOutside rs' i) := List.all_append

theorem isOutside_of_perm (h : rs.Perm rs') (i : Nat) : isOutside rs i = isOutside rs' i :=
  h.all_eq

/-- What is left depends on the ranges at these places alone. -/
theorem uncut_congr {rs rs' : List (Nat × Nat)}
    (h : ∀ i, a ≤ i → i < b → isOutside rs i = isOutside rs' i) :
    uncut source rs a b = uncut source rs' a b := by
  refine List.filterMap_congr fun i hi => ?_
  rw [List.mem_range'_1] at hi
  rw [h i hi.1 (by omega)]

theorem uncut_append (ha : a ≤ m) (hb : m ≤ b) :
    uncut source rs a b = uncut source rs a m ++ uncut source rs m b := by
  have hsplit : b - a = (m - a) + (b - m) := by omega
  have hm : a + 1 * (m - a) = m := by omega
  rw [uncut, uncut, uncut, ← List.filterMap_append, hsplit, ← List.range'_append, hm]

/-- Ranges elsewhere do not matter. -/
theorem isOutside_of_elsewhere (h : ∀ r ∈ rs, r.2 ≤ a ∨ b ≤ r.1) {i : Nat} (ha : a ≤ i)
    (hb : i < b) : isOutside rs i = true := by
  refine List.all_eq_true.2 fun r hr => ?_
  rw [Bool.or_eq_true, decide_eq_true_iff, decide_eq_true_iff]
  rcases h r hr with h | h
  · exact .inr (Nat.le_trans h ha)
  · exact .inl (Nat.lt_of_lt_of_le hb h)

theorem filterMap_range' (source : Bytes) (a n : Nat) :
    (List.range' a n).filterMap (fun i => source[i]?) = (source.drop a).take n := by
  induction n generalizing a with
  | zero => rw [List.take_zero]; rfl
  | succ n ih =>
    rw [List.range'_succ, List.filterMap_cons, ih]
    rcases Nat.lt_or_ge a source.length with h | h
    · rw [List.getElem?_eq_getElem h, List.drop_eq_getElem_cons h, List.take_succ_cons]
    · rw [List.getElem?_eq_none h, List.drop_eq_nil_of_le h, List.drop_eq_nil_of_le (by omega)]
      simp

theorem uncut_of_elsewhere (h : ∀ r ∈ rs, r.2 ≤ a ∨ b ≤ r.1) :
    uncut source rs a b = slice source a b := by
  have hall : ∀ i ∈ List.range' a (b - a),
      (if isOutside rs i then source[i]? else none) = source[i]? := by
    intro i hi
    rw [List.mem_range'_1] at hi
    rw [isOutside_of_elsewhere h hi.1 (by omega), if_pos rfl]
  rw [uncut, List.filterMap_congr hall, slice]
  rw [List.drop_take]
  exact filterMap_range' source a (b - a)

theorem uncut_of_mem {r : Nat × Nat} (h : r ∈ rs) : uncut source rs r.1 r.2 = [] := by
  refine List.filterMap_eq_nil_iff.2 fun i hi => if_neg fun ho => ?_
  rw [List.mem_range'_1] at hi
  have := List.all_eq_true.1 ho r h
  rw [Bool.or_eq_true, decide_eq_true_iff, decide_eq_true_iff] at this
  omega

theorem uncut_take : uncut (source.take b) rs a b = uncut source rs a b := by
  refine List.filterMap_congr fun i hi => ?_
  rw [List.mem_range'_1] at hi
  rw [List.getElem?_take_of_lt (by omega)]

/-! ## Cuts -/

theorem cutOne_append {r : Nat × Nat} {tail : Bytes} (hr : r.1 ≤ r.2) (hb : r.2 ≤ source.length) :
    cutOne (source ++ tail) r = cutOne source r ++ tail := by
  rw [cutOne, cutOne, Nat.max_eq_right hr, List.take_append_of_le_length (hr.trans hb),
    List.drop_append_of_le_length hb, List.append_assoc]

/-- Cuts from the last one on leave what follows them. -/
theorem foldl_cutOne_append {tail : Bytes} (hd : rs.Pairwise fun r s => s.2 ≤ r.1)
    (hr : ∀ r ∈ rs, r.1 ≤ r.2 ∧ r.2 ≤ source.length) :
    rs.foldl cutOne (source ++ tail) = rs.foldl cutOne source ++ tail := by
  induction rs generalizing source with
  | nil => rfl
  | cons r rs ih =>
    obtain ⟨hfirst, hrest⟩ := List.pairwise_cons.1 hd
    obtain ⟨⟨h₁, h₂⟩, hr⟩ := List.forall_mem_cons.1 hr
    rw [List.foldl_cons, List.foldl_cons, cutOne_append h₁ h₂]
    refine ih hrest fun s hs => ⟨(hr s hs).1, (hfirst s hs).trans ?_⟩
    rw [cutOne, List.length_append, List.length_take_of_le (h₁.trans h₂)]
    exact Nat.le_add_right _ _

/-- Cuts from the last one on leave the octets outside. -/
theorem foldl_cutOne (hd : rs.Pairwise fun r s => s.2 ≤ r.1)
    (hr : ∀ r ∈ rs, r.1 ≤ r.2 ∧ r.2 ≤ source.length) :
    rs.foldl cutOne source = uncut source rs 0 source.length := by
  induction rs generalizing source with
  | nil =>
    rw [uncut_of_elsewhere (by simp), slice, List.take_length]
    rfl
  | cons r rs ih =>
    obtain ⟨hfirst, hrest⟩ := List.pairwise_cons.1 hd
    obtain ⟨⟨h₁, h₂⟩, hr⟩ := List.forall_mem_cons.1 hr
    have hlen : (source.take r.1).length = r.1 := List.length_take_of_le (h₁.trans h₂)
    have hbefore : ∀ s ∈ rs, s.1 ≤ s.2 ∧ s.2 ≤ (source.take r.1).length :=
      fun s hs => ⟨(hr s hs).1, hlen.symm ▸ hfirst s hs⟩
    have hleft : uncut source (r :: rs) 0 r.1 = uncut source rs 0 r.1 := by
      refine uncut_congr fun i _ hi => ?_
      rw [isOutside, List.all_cons, decide_eq_true hi, Bool.true_or, Bool.true_and]
      rfl
    have hright : uncut source (r :: rs) r.2 source.length = source.drop r.2 := by
      rw [uncut_of_elsewhere, slice, List.take_length]
      intro s hs
      rcases List.mem_cons.1 hs with rfl | hs
      · exact .inl le_rfl
      · exact .inl ((hfirst s hs).trans h₁)
    calc (r :: rs).foldl cutOne source
        = rs.foldl cutOne (source.take r.1 ++ source.drop r.2) := by
          rw [List.foldl_cons, cutOne, Nat.max_eq_right h₁]
      _ = uncut source rs 0 r.1 ++ source.drop r.2 := by
          rw [foldl_cutOne_append hrest hbefore, ih hrest hbefore, hlen, uncut_take]
      _ = uncut source (r :: rs) 0 source.length := by
          rw [uncut_append (Nat.zero_le r.1) (h₁.trans h₂), uncut_append h₁ h₂, hleft, hright,
            uncut_of_mem List.mem_cons_self, List.nil_append]

/-- **Ranges that are apart are cut out**: the octets outside are left, in their order. -/
theorem cut_eq_uncut (hd : rs.Pairwise Apart) (hr : ∀ r ∈ rs, r.1 ≤ r.2 ∧ r.2 ≤ source.length) :
    cut source rs = uncut source rs 0 source.length := by
  have hperm : (rs.mergeSort cutsBefore).Perm rs := List.mergeSort_perm rs cutsBefore
  have hvalid : ∀ r ∈ rs.mergeSort cutsBefore, r.1 ≤ r.2 ∧ r.2 ≤ source.length :=
    fun r h => hr r (hperm.mem_iff.1 h)
  have hsorted : (rs.mergeSort cutsBefore).Pairwise fun r s => cutsBefore r s = true := by
    refine List.pairwise_mergeSort (fun r s t h h' => ?_) (fun r s => ?_) rs
    · simp only [cutsBefore, Bool.or_eq_true, Bool.and_eq_true, decide_eq_true_iff] at h h' ⊢
      omega
    · simp only [cutsBefore, Bool.or_eq_true, Bool.and_eq_true, decide_eq_true_iff]
      omega
  have hdown : (rs.mergeSort cutsBefore).Pairwise fun r s => s.2 ≤ r.1 := by
    have hapart := (hperm.pairwise_iff Apart.symm).2 hd
    refine (hsorted.and hapart).imp_of_mem fun {r s} hrm hsm h => ?_
    simp only [cutsBefore, Bool.or_eq_true, Bool.and_eq_true, decide_eq_true_iff, Apart] at h
    have := hvalid r hrm
    omega
  rw [cut, foldl_cutOne hdown hvalid]
  exact uncut_congr fun i _ _ => isOutside_of_perm hperm i

/-! ## The stack -/

/-- **The stack is worked off node by node**: a node's children are done before the next node. -/
theorem collect_append (xs ys : List (Option String × Tree)) :
    collect (xs ++ ys) = collect xs ++ collect ys := by
  fun_induction collect xs with
  | case1 => rfl
  | case2 parent t rest h ih => rw [List.cons_append, collect, if_pos h, ih, List.cons_append]
  | case3 parent t rest h inner hi ih =>
    rw [List.cons_append, collect, if_neg h]
    split
    · rename_i inner' hi'
      obtain rfl : inner = inner' := Option.some.inj (hi.symm.trans hi')
      rw [← List.cons_append, ih, List.cons_append]
    · rename_i hi'
      cases hi.symm.trans hi'
  | case4 parent t rest h hi ih =>
    rw [List.cons_append, collect, if_neg h]
    split
    · rename_i inner' hi'
      cases hi.symm.trans hi'
    · rw [← List.append_assoc, ih]

theorem collect_eq_flatMap (stack : List (Option String × Tree)) :
    collect stack = stack.flatMap fun n => collect [n] := by
  induction stack with
  | nil => rw [collect]; rfl
  | cons n rest ih => rw [List.flatMap_cons, ← ih, ← collect_append]; rfl

theorem collect_of_isErased (h : isErased parent t = true) :
    collect [(parent, t)] = [(t.start, t.stop)] := by
  rw [collect, if_pos h, collect]

theorem collect_of_inner? (h : isErased parent t = false) (hi : inner? t = some inner) :
    collect [(parent, t)] = (inner.stop, t.stop) :: collect [(some t.kind, inner)] := by
  rw [collect, if_neg (by simp [h])]
  split
  · rename_i inner' hi'
    obtain rfl : inner = inner' := Option.some.inj (hi.symm.trans hi')
    rfl
  · rename_i hi'
    cases hi.symm.trans hi'

/-- The ranges of the children of a node. -/
def childRanges (kind : String) (cs : List Tree) : List (Nat × Nat) :=
  cs.flatMap fun c => collect [(some kind, c)]

theorem collect_of_children (h : isErased parent t = false) (hi : inner? t = none) :
    (collect [(parent, t)]).Perm (childRanges t.kind t.children) := by
  rw [collect, if_neg (by simp [h])]
  split
  · rename_i inner' hi'
    cases hi.symm.trans hi'
  · rw [List.append_nil, collect_eq_flatMap, childNodes, List.flatMap_map]
    exact (List.reverse_perm t.children).flatMap_right _

/-! ## Nodes in order -/

/-- The ranges of a node lie within it and are apart, and what is left of it is what is kept. -/
structure Fits (source : Bytes) (parent : Option String) (t : Tree) : Prop where
  within : ∀ r ∈ collect [(parent, t)], t.start ≤ r.1 ∧ r.1 ≤ r.2 ∧ r.2 ≤ t.stop
  apart : (collect [(parent, t)]).Pairwise Apart
  keeps : uncut source (collect [(parent, t)]) t.start t.stop = keep source parent t

section Children

variable {kind : String} {cs : List Tree} (hf : ∀ c ∈ cs, Fits source (some kind) c)
  (hp : cs.Pairwise fun c d => c.stop ≤ d.start)

include hf in
theorem mem_childRanges {r : Nat × Nat} (h : r ∈ childRanges kind cs) :
    ∃ c ∈ cs, c.start ≤ r.1 ∧ r.1 ≤ r.2 ∧ r.2 ≤ c.stop := by
  obtain ⟨c, hc, hr⟩ := List.mem_flatMap.1 h
  exact ⟨c, hc, (hf c hc).within r hr⟩

include hf hp in
theorem pairwise_childRanges : (childRanges kind cs).Pairwise Apart := by
  refine List.pairwise_flatMap.2 ⟨fun c hc => (hf c hc).apart, hp.imp_of_mem ?_⟩
  intro c d hc hd hle r hr s hs
  have h₁ := (hf c hc).within r hr
  have h₂ := (hf d hd).within s hs
  exact .inl (by omega)

include hf hp in
/-- What is left of the children and of the octets around them. -/
theorem uncut_childRanges (ho : ∀ c ∈ cs, c.start ≤ c.stop)
    (hb : ∀ c ∈ cs, a ≤ c.start ∧ c.stop ≤ b) (hab : a ≤ b) :
    uncut source (childRanges kind cs) a b = keepChildren source kind b a cs := by
  induction cs generalizing a with
  | nil => rw [keepChildren, childRanges, List.flatMap_nil, uncut_of_elsewhere (by simp)]
  | cons c cs ih =>
    obtain ⟨hfc, hf⟩ := List.forall_mem_cons.1 hf
    obtain ⟨hpc, hp⟩ := List.pairwise_cons.1 hp
    obtain ⟨hoc, ho⟩ := List.forall_mem_cons.1 ho
    obtain ⟨⟨hac, hcb⟩, hb⟩ := List.forall_mem_cons.1 hb
    have hsplit : childRanges kind (c :: cs) = collect [(some kind, c)] ++ childRanges kind cs :=
      List.flatMap_cons
    have hlater : ∀ r ∈ childRanges kind cs, c.stop ≤ r.1 := by
      intro r hr
      obtain ⟨d, hd, hdr, -⟩ := mem_childRanges hf hr
      exact (hpc d hd).trans hdr
    have hbefore : uncut source (childRanges kind (c :: cs)) a c.start = slice source a c.start := by
      refine uncut_of_elsewhere fun r hr => .inr ?_
      rcases List.mem_append.1 (hsplit ▸ hr) with hr | hr
      · exact (hfc.within r hr).1
      · exact hoc.trans (hlater r hr)
    have hinside : uncut source (childRanges kind (c :: cs)) c.start c.stop =
        keep source (some kind) c := by
      rw [← hfc.keeps]
      refine uncut_congr fun i hi hi' => ?_
      rw [hsplit, isOutside_append, isOutside_of_elsewhere (fun r hr => .inr (hlater r hr)) hi hi',
        Bool.and_true]
    have hafter : uncut source (childRanges kind (c :: cs)) c.stop b =
        uncut source (childRanges kind cs) c.stop b := by
      refine uncut_congr fun i hi hi' => ?_
      rw [hsplit, isOutside_append,
        isOutside_of_elsewhere (fun r hr => .inl (hfc.within r hr).2.2) hi hi', Bool.true_and]
    rw [keepChildren, uncut_append hac (hoc.trans hcb), uncut_append hoc hcb, hbefore, hinside,
      hafter, ih hf hp ho (fun d hd => ⟨hpc d hd, (hb d hd).2⟩) hcb]

end Children

/-- **A node in order fits**, whatever is around it. -/
theorem fits_of_isOrdered (h : t.IsOrdered) (parent : Option String) : Fits source parent t := by
  induction h generalizing parent with
  | @node t hle hin hp ho ih =>
    have hstop : ∀ c ∈ t.children, c.start ≤ c.stop := fun c hc => (ho c hc).start_le_stop
    cases he : isErased parent t with
    | true =>
      have hr := collect_of_isErased he
      refine ⟨?_, ?_, ?_⟩
      · rw [hr]
        simpa using hle
      · rw [hr]
        exact List.pairwise_singleton _ _
      · rw [hr, keep_of_isErased he]
        exact uncut_of_mem (r := (t.start, t.stop)) List.mem_cons_self
    | false =>
      cases hi : inner? t with
      | some inner =>
        have hmem := mem_of_inner? hi
        obtain ⟨hstart, hend⟩ := hin inner hmem
        have hoi := hstop inner hmem
        have hfit := ih inner hmem (some t.kind)
        have hr := collect_of_inner? he hi
        refine ⟨?_, ?_, ?_⟩
        · rw [hr]
          refine List.forall_mem_cons.2 ⟨⟨hstart.trans hoi, hend, le_rfl⟩, fun r hr => ?_⟩
          obtain ⟨h₁, h₂, h₃⟩ := hfit.within r hr
          exact ⟨hstart.trans h₁, h₂, h₃.trans hend⟩
        · rw [hr]
          exact List.pairwise_cons.2 ⟨fun r hr => .inr (hfit.within r hr).2.2, hfit.apart⟩
        · have hbefore : uncut source (collect [(parent, t)]) t.start inner.start =
              slice source t.start inner.start := by
            rw [hr]
            refine uncut_of_elsewhere (List.forall_mem_cons.2 ⟨.inr hoi, fun r hr => ?_⟩)
            exact .inr (hfit.within r hr).1
          have hinside : uncut source (collect [(parent, t)]) inner.start inner.stop =
              keep source (some t.kind) inner := by
            rw [← hfit.keeps, hr]
            refine uncut_congr fun i _ hi => ?_
            rw [isOutside, List.all_cons, decide_eq_true hi, Bool.true_or, Bool.true_and]
            rfl
          have htail : uncut source (collect [(parent, t)]) inner.stop t.stop = [] := by
            rw [hr]
            exact uncut_of_mem (r := (inner.stop, t.stop)) List.mem_cons_self
          rw [keep_of_inner? he hi, uncut_append hstart (hoi.trans hend), uncut_append hoi hend,
            hbefore, hinside, htail, List.append_nil]
      | none =>
        have hfit : ∀ c ∈ t.children, Fits source (some t.kind) c := fun c hc => ih c hc _
        have hr := collect_of_children he hi
        refine ⟨fun r h => ?_, ?_, ?_⟩
        · obtain ⟨c, hc, h₁, h₂, h₃⟩ := mem_childRanges hfit (hr.mem_iff.1 h)
          exact ⟨(hin c hc).1.trans h₁, h₂, h₃.trans (hin c hc).2⟩
        · exact (hr.pairwise_iff Apart.symm).2 (pairwise_childRanges hfit hp)
        · rw [keep_of_children he hi, ← uncut_childRanges hfit hp hstop hin hle]
          exact uncut_congr fun i _ _ => isOutside_of_perm hr i

/-! ## Where the ranges come from -/

/-- The nodes of a tree, each with the kind of the node around it. -/
inductive Within (root : Option String × Tree) : Option String × Tree → Prop where
  | root : Within root root
  | child {parent : Option String} {t c : Tree} : Within root (parent, t) → c ∈ t.children →
      Within root (some t.kind, c)

/-- The range that a node gives: all of it where it is erased, and what follows its first named child
where it is unwrapped. -/
inductive LeftOut : Option String × Tree → Nat × Nat → Prop where
  | erased {parent : Option String} {t : Tree} : isErased parent t = true →
      LeftOut (parent, t) (t.start, t.stop)
  | tail {parent : Option String} {t inner : Tree} : isErased parent t = false →
      inner? t = some inner → LeftOut (parent, t) (inner.stop, t.stop)

theorem Within.trans {n m k : Option String × Tree} (h : Within n m) (h' : Within m k) :
    Within n k := by
  induction h' with
  | root => exact h
  | child _ hc ih => exact ih.child hc

theorem exists_leftOut {stack : List (Option String × Tree)} {r : Nat × Nat}
    (h : r ∈ collect stack) : ∃ n ∈ stack, ∃ m, Within n m ∧ LeftOut m r := by
  fun_induction collect stack with
  | case1 => cases h
  | case2 parent t rest he ih =>
    rcases List.mem_cons.1 h with rfl | h
    · exact ⟨_, List.mem_cons_self, _, .root, .erased he⟩
    · obtain ⟨n, hn, hm⟩ := ih h
      exact ⟨n, List.mem_cons_of_mem _ hn, hm⟩
  | case3 parent t rest he inner hi ih =>
    rcases List.mem_cons.1 h with rfl | h
    · exact ⟨_, List.mem_cons_self, _, .root, .tail (by simpa using he) hi⟩
    · obtain ⟨n, hn, m, hm, hr⟩ := ih h
      rcases List.mem_cons.1 hn with rfl | hn
      · exact ⟨_, List.mem_cons_self, m, (Within.root.child (mem_of_inner? hi)).trans hm, hr⟩
      · exact ⟨n, List.mem_cons_of_mem _ hn, m, hm, hr⟩
  | case4 parent t rest he hi ih =>
    obtain ⟨n, hn, m, hm, hr⟩ := ih h
    rcases List.mem_append.1 hn with hn | hn
    · obtain ⟨c, hc, rfl⟩ := List.mem_map.1 hn
      exact ⟨_, List.mem_cons_self, m, (Within.root.child (List.mem_reverse.1 hc)).trans hm, hr⟩
    · exact ⟨n, List.mem_cons_of_mem _ hn, m, hm, hr⟩

/-! ## The source of a tree -/

/-- **What erasure leaves.** The ranges of a tree in order are apart from each other, and each of
them is an erased node or what follows the first named child of an unwrapped one. To cut them out
leaves the octets outside of them, in their order, which are what is kept of the tree between what
stands before and after it. -/
theorem cut_ranges {root : Tree} (h : root.IsOrdered) (hs : root.stop ≤ source.length) :
    (ranges root).Pairwise Apart ∧
      cut source (ranges root) =
        source.take root.start ++ (keep source none root ++ source.drop root.stop) ∧
      cut source (ranges root) = uncut source (ranges root) 0 source.length ∧
      ∀ r ∈ ranges root, ∃ n, Within (none, root) n ∧ LeftOut n r := by
  have hfit : Fits source none root := fits_of_isOrdered h none
  have hcut : cut source (ranges root) = uncut source (ranges root) 0 source.length :=
    cut_eq_uncut hfit.apart fun r hr =>
      ⟨(hfit.within r hr).2.1, (hfit.within r hr).2.2.trans hs⟩
  have hbefore : uncut source (ranges root) 0 root.start = source.take root.start :=
    uncut_of_elsewhere fun r hr => .inr (hfit.within r hr).1
  have hafter : uncut source (ranges root) root.stop source.length = source.drop root.stop := by
    have helse : ∀ r ∈ ranges root, r.2 ≤ root.stop ∨ source.length ≤ r.1 :=
      fun r hr => .inl (hfit.within r hr).2.2
    rw [uncut_of_elsewhere helse, slice, List.take_length]
  have hkeeps : uncut source (ranges root) root.start root.stop = keep source none root :=
    hfit.keeps
  refine ⟨hfit.apart, ?_, hcut, fun r hr => ?_⟩
  · rw [hcut, uncut_append (Nat.zero_le _) (h.start_le_stop.trans hs),
      uncut_append h.start_le_stop hs, hbefore, hkeeps, hafter]
  · obtain ⟨n, hn, hm⟩ := exists_leftOut hr
    rw [List.mem_singleton] at hn
    exact hn ▸ hm

/-- A comment, and casts one inside the other whose ends touch, before an empty node. -/
theorem cut_ranges_casts :
    let source := Utf8.encode "/*c*/ x as A as B;"
    let inner : Tree := ⟨"as_expression", true, none, 6, 12,
      [⟨"identifier", true, none, 6, 7, []⟩, ⟨"as", false, none, 8, 10, []⟩,
        ⟨"type_identifier", true, none, 11, 12, []⟩]⟩
    let outer : Tree := ⟨"as_expression", true, none, 6, 17,
      [inner, ⟨"as", false, none, 13, 15, []⟩, ⟨"type_identifier", true, none, 16, 17, []⟩]⟩
    let root : Tree := ⟨"program", true, none, 0, 18,
      [⟨"comment", true, none, 0, 5, []⟩, outer, ⟨";", false, none, 17, 18, []⟩,
        ⟨"comment", true, none, 18, 18, []⟩]⟩
    root.IsOrdered ∧ root.stop ≤ source.length ∧
      cut source (ranges root) = Utf8.encode " x;" := by
  intro source inner outer root
  have hinner : inner.IsOrdered := .node (by decide) (by decide) (by decide) (by
    simp only [inner, List.forall_mem_cons]
    exact ⟨.leaf (by decide) rfl, .leaf (by decide) rfl, .leaf (by decide) rfl, by simp⟩)
  have houter : outer.IsOrdered := .node (by decide) (by decide) (by decide) (by
    simp only [outer, List.forall_mem_cons]
    exact ⟨hinner, .leaf (by decide) rfl, .leaf (by decide) rfl, by simp⟩)
  have hroot : root.IsOrdered := .node (by decide) (by decide) (by decide) (by
    simp only [root, List.forall_mem_cons]
    exact ⟨.leaf (by decide) rfl, houter, .leaf (by decide) rfl, .leaf (by decide) rfl, by simp⟩)
  have hs : root.stop ≤ source.length := by decide
  obtain ⟨-, hcut, -⟩ := cut_ranges hroot hs
  exact ⟨hroot, hs, hcut.trans (by rfl)⟩

end Erasure

end SourceAtlas
