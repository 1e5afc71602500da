import SourceAtlas.Proofs.Json.Grammar
import SourceAtlas.Proofs.Json.Strings
import SourceAtlas.Proofs.Members

/-!
# What is read back

What is read from the written form of a value: the value itself, with adjacent halves of surrogate
pairs joined in its texts and keys. Keys that become equal by this are merged.

* `Json.reread`: the value that is read back;
* `Json.Settled`, `Json.reread_of_settled`, `Json.reread_reread`: a value that was read stays the same;
* `Json.Distinct`, **`Json.indentedAt_reread`**: where no two keys of an object are written alike, the
  value that is read back is written alike.
-/

namespace SourceAtlas.Json

/-! ## Induction -/

/-- Induction over a value, through the lists and objects in it. -/
@[elab_as_elim]
theorem induction {P : Json → Prop} (null : P .null) (bool : ∀ b, P (.bool b)) (int : ∀ n, P (.int n))
    (float : ∀ x, P (.float x)) (text : ∀ t, P (.text t))
    (list : ∀ vs : List Json, (∀ v ∈ vs, P v) → P (.list vs))
    (object : ∀ ms : List (Text × Json), (∀ m ∈ ms, P m.2) → P (.object ms)) (v : Json) : P v := by
  match v with
  | .null => exact null
  | .bool b => exact bool b
  | .int n => exact int n
  | .float x => exact float x
  | .text t => exact text t
  | .list vs =>
    refine list vs fun v hv => ?_
    have := List.sizeOf_lt_of_mem hv
    exact induction null bool int float text list object v
  | .object ms =>
    refine object ms fun m hm => ?_
    have := List.sizeOf_lt_of_mem hm
    exact induction null bool int float text list object m.2
termination_by v
decreasing_by
  · simp only [Json.list.sizeOf_spec]
    omega
  · cases m
    simp only [Json.object.sizeOf_spec, Prod.mk.sizeOf_spec] at *
    omega

/-! ## What is read back -/

mutual

/-- The value that is read from the written form of a value. -/
def reread : Json → Json
  | text t => text t.joinPairs
  | list items => list (rereadItems items)
  | object members => ofMembers (rereadMembers members)
  | v => v

def rereadItems : List Json → List Json
  | [] => []
  | v :: vs => reread v :: rereadItems vs

def rereadMembers : List (Text × Json) → List (Text × Json)
  | [] => []
  | (k, v) :: ms => (k.joinPairs, reread v) :: rereadMembers ms

end

theorem rereadItems_eq_map (vs : List Json) : rereadItems vs = vs.map reread := by
  induction vs with
  | nil => rw [rereadItems]; rfl
  | cons v vs ih => rw [rereadItems, ih]; rfl

/-- A member as it is read back. -/
def rereadMember (m : Text × Json) : Text × Json := (m.1.joinPairs, m.2.reread)

theorem rereadMembers_eq_map (ms : List (Text × Json)) : rereadMembers ms = ms.map rereadMember := by
  induction ms with
  | nil => rw [rereadMembers]; rfl
  | cons m ms ih => rw [rereadMembers, ih]; rfl

@[simp]
theorem reread_text (t : Text) : reread (.text t) = .text t.joinPairs := by rw [reread]

@[simp]
theorem reread_list (vs : List Json) : reread (.list vs) = .list (vs.map reread) := by
  rw [reread, rereadItems_eq_map]

@[simp]
theorem reread_object (ms : List (Text × Json)) :
    reread (.object ms) = .object (mergeMembers (ms.map rereadMember)) := by
  rw [reread, rereadMembers_eq_map, ofMembers]

/-! ## Values that were read -/

/-- No text of the value has a pair to be joined, and no key is there twice. -/
inductive Settled : Json → Prop where
  | null : Settled .null
  | bool (b : Bool) : Settled (.bool b)
  | int (n : Int) : Settled (.int n)
  | float (x : Binary64) : Settled (.float x)
  | text (t : Text) : t.HasNoPair → Settled (.text t)
  | list (vs : List Json) : (∀ v ∈ vs, Settled v) → Settled (.list vs)
  | object (ms : List (Text × Json)) : (ms.map Prod.fst).Nodup → (∀ m ∈ ms, m.1.HasNoPair) →
      (∀ m ∈ ms, Settled m.2) → Settled (.object ms)

theorem settled_reread (v : Json) : Settled (reread v) := by
  induction v using induction with
  | null => exact .null
  | bool b => exact .bool b
  | int n => exact .int n
  | float x => exact .float x
  | text t =>
    rw [reread_text]
    exact .text _ (Text.hasNoPair_joinPairs t)
  | list vs ih =>
    rw [reread_list]
    refine .list _ fun w hw => ?_
    obtain ⟨v, hv, rfl⟩ := List.mem_map.1 hw
    exact ih v hv
  | object ms ih =>
    rw [reread_object]
    have hmem : ∀ k ∈ mergeMembers (ms.map rereadMember), ∃ m ∈ ms, rereadMember m = k :=
      fun k hk => List.mem_map.1 (mem_of_mem_mergeMembers hk)
    refine .object _ (nodup_mergeMembers _) (fun k hk => ?_) (fun k hk => ?_)
    · obtain ⟨m, -, rfl⟩ := hmem k hk
      exact Text.hasNoPair_joinPairs m.1
    · obtain ⟨m, hm, rfl⟩ := hmem k hk
      exact ih m hm

theorem reread_of_settled {v : Json} (h : Settled v) : reread v = v := by
  induction h with
  | null => rw [reread] <;> simp
  | bool b => rw [reread] <;> simp
  | int n => rw [reread] <;> simp
  | float x => rw [reread] <;> simp
  | text t ht => rw [reread_text, Text.joinPairs_of_hasNoPair ht]
  | list vs _ ih => rw [reread_list, List.map_congr_left ih, List.map_id']
  | object ms hn hk _ ih =>
    have hmap : ms.map rereadMember = ms := by
      refine (List.map_congr_left fun m hm => ?_).trans (List.map_id' ms)
      exact Prod.ext (Text.joinPairs_of_hasNoPair (hk m hm)) (ih m hm)
    rw [reread_object, hmap, mergeMembers_of_nodup hn]

/-- **A value that was read back is read back as it is.** -/
theorem reread_reread (v : Json) : (reread v).reread = reread v :=
  reread_of_settled (settled_reread v)

/-! ## Values that are written -/

theorem areWritable_iff {vs : List Json} :
    areWritable vs = true ↔ ∀ v ∈ vs, v.isWritable = true := by
  induction vs with
  | nil => simp [areWritable]
  | cons v vs ih => simp [areWritable, ih]

theorem membersWritable_iff {ms : List (Text × Json)} :
    membersWritable ms = true ↔ ∀ m ∈ ms, m.2.isWritable = true := by
  induction ms with
  | nil => simp [membersWritable]
  | cons m ms ih => simp [membersWritable, ih]

/-! ## The written form -/

theorem writeText_eq (t : Text) : writeText t =
    Point.ofChar '"' :: (t.flatMap writePoint ++ [Point.ofChar '"']) := rfl

theorem writeText_joinPairs (t : Text) : writeText t.joinPairs = writeText t := by
  rw [writeText_eq, writeText_eq, Reader.flatMap_writePoint_joinPairs]

theorem indentedItems_eq (depth : Nat) (vs : List Json) :
    indentedItems depth vs =
      Text.joinWith "," (vs.map fun v => newline depth ++ indentedAt depth v) := by
  match vs with
  | [] => rw [indentedItems]; rfl
  | [v] => rw [indentedItems]; rfl
  | v :: w :: vs =>
    rw [indentedItems, indentedItems_eq depth (w :: vs)]
    · rfl
    · simp

/-- A member as it is written. -/
def indentedMember (depth : Nat) (m : Text × Json) : Text :=
  newline depth ++ writeText m.1 ++ ": " ++ indentedAt depth m.2

theorem indentedMembers_eq (depth : Nat) (ms : List (Text × Json)) :
    indentedMembers depth ms = Text.joinWith "," (ms.map (indentedMember depth)) := by
  match ms with
  | [] => rw [indentedMembers]; rfl
  | [m] => rw [indentedMembers]; rfl
  | m :: k :: ms =>
    rw [indentedMembers, indentedMembers_eq depth (k :: ms)]
    · rfl
    · simp

theorem indentedAt_list (depth : Nat) (vs : List Json) :
    indentedAt depth (.list vs) = Point.ofChar '[' ::
      (indentedItems (depth + 1) vs ++ ((if vs = [] then [] else newline depth) ++ [Point.ofChar ']'])) := by
  cases vs with
  | nil => rw [indentedAt, indentedItems]; rfl
  | cons v vs => rw [indentedAt, List.append_assoc]; rfl

theorem indentedAt_object (depth : Nat) (ms : List (Text × Json)) :
    indentedAt depth (.object ms) = Point.ofChar '{' ::
      (indentedMembers (depth + 1) ms ++
        ((if ms = [] then [] else newline depth) ++ [Point.ofChar '}'])) := by
  cases ms with
  | nil => rw [indentedAt, indentedMembers]; rfl
  | cons m ms => rw [indentedAt, List.append_assoc]; rfl

/-! ## Keys that are written apart -/

/-- No two keys of an object are written alike. -/
inductive Distinct : Json → Prop where
  | null : Distinct .null
  | bool (b : Bool) : Distinct (.bool b)
  | int (n : Int) : Distinct (.int n)
  | float (x : Binary64) : Distinct (.float x)
  | text (t : Text) : Distinct (.text t)
  | list (vs : List Json) : (∀ v ∈ vs, Distinct v) → Distinct (.list vs)
  | object (ms : List (Text × Json)) : (ms.map fun m => writeText m.1).Nodup →
      (∀ m ∈ ms, Distinct m.2) → Distinct (.object ms)

/-- Keys that are written apart are read back apart. -/
theorem nodup_joinPairs {ms : List (Text × Json)} (h : (ms.map fun m => writeText m.1).Nodup) :
    ((ms.map rereadMember).map Prod.fst).Nodup := by
  rw [List.map_map]
  refine List.Nodup.of_map writeText ?_
  rw [List.map_map]
  have : (writeText ∘ Prod.fst ∘ rereadMember) = fun m : Text × Json => writeText m.1 := by
    funext m
    exact writeText_joinPairs m.1
  rwa [this]

/-- **The value that is read back is written alike** where keys are written apart. -/
theorem indentedAt_reread {v : Json} (h : Distinct v) (depth : Nat) :
    indentedAt depth (reread v) = indentedAt depth v := by
  induction h generalizing depth with
  | null => rw [reread] <;> simp
  | bool b => rw [reread] <;> simp
  | int n => rw [reread] <;> simp
  | float x => rw [reread] <;> simp
  | text t => rw [reread_text, indentedAt, indentedAt, writeText_joinPairs]
  | list vs _ ih =>
    rw [reread_list, indentedAt_list, indentedAt_list, indentedItems_eq, indentedItems_eq,
      List.map_map]
    simp only [List.map_eq_nil_iff]
    congr 3
    apply List.map_congr_left
    intro v hv
    rw [Function.comp_apply, ih v hv]
  | object ms hn _ ih =>
    rw [reread_object, mergeMembers_of_nodup (nodup_joinPairs hn), indentedAt_object,
      indentedAt_object, indentedMembers_eq, indentedMembers_eq, List.map_map]
    simp only [List.map_eq_nil_iff]
    congr 3
    apply List.map_congr_left
    intro m hm
    rw [Function.comp_apply, rereadMember, indentedMember, indentedMember, writeText_joinPairs,
      ih m hm]

end SourceAtlas.Json
