import Mathlib.Data.List.Nodup
import Mathlib.Data.List.Perm.Subperm
import SourceAtlas.Json.Basic

/-!
# Members of objects

What insertion does to the members of an object, and the members that a partial function on keys
gives for a list of keys.

* `Json.member?_insertMember`: insertion changes one member;
* `Json.entries`: the members that a partial function gives, in the order of the keys;
* **`Json.insertAll_entries`**: entries inserted one after the other are the entries of the distinct
  keys, in the order of their first occurrence.
-/

namespace SourceAtlas.Json

variable {α : Type} {k key : Text} {v : α} {ms : List (Text × α)}

/-! ## One member -/

@[simp]
theorem member?_nil : member? k ([] : List (Text × α)) = none := rfl

theorem member?_cons (m : Text × α) :
    member? k (m :: ms) = if m.1 = k then some m.2 else member? k ms := by
  unfold member?
  rw [List.find?_cons]
  by_cases h : m.1 = k <;> simp [h]

theorem member?_eq_none_iff : member? k ms = none ↔ k ∉ ms.map Prod.fst := by
  induction ms with
  | nil => simp
  | cons m ms ih =>
    rw [member?_cons]
    by_cases h : m.1 = k
    · simp [h]
    · rw [if_neg h, ih, List.map_cons, List.mem_cons, not_or]
      exact ⟨fun hk => ⟨fun e => h e.symm, hk⟩, And.right⟩

theorem member?_append (ms ns : List (Text × α)) :
    member? k (ms ++ ns) = (member? k ms).or (member? k ns) := by
  induction ms with
  | nil => rfl
  | cons m ms ih =>
    rw [List.cons_append, member?_cons, member?_cons, ih]
    by_cases h : m.1 = k <;> simp [h]

theorem member?_insertMember :
    member? k (insertMember key v ms) = if key = k then some v else member? k ms := by
  induction ms with
  | nil => rw [insertMember, member?_cons]
  | cons m ms ih =>
    rw [insertMember]
    split
    · rename_i h
      rw [member?_cons, member?_cons, ← h]
      by_cases hk : m.1 = k <;> simp [hk]
    · rename_i h
      rw [member?_cons, member?_cons, ih]
      by_cases hk : m.1 = k
      · rw [if_pos hk, if_neg (fun e => h (hk.trans e.symm)), if_pos hk]
      · rw [if_neg hk, if_neg hk]

theorem insertMember_of_not_mem (h : key ∉ ms.map Prod.fst) :
    insertMember key v ms = ms ++ [(key, v)] := by
  induction ms with
  | nil => rfl
  | cons m ms ih =>
    rw [List.map_cons, List.mem_cons, not_or] at h
    rw [insertMember, if_neg (Ne.symm h.1), ih h.2, List.cons_append]

theorem mem_keys_insertMember :
    k ∈ (insertMember key v ms).map Prod.fst ↔ k ∈ ms.map Prod.fst ∨ k = key := by
  rw [← not_iff_not, not_or, ← member?_eq_none_iff, ← member?_eq_none_iff, member?_insertMember]
  by_cases h : key = k
  · simp [h]
  · simp [h, Ne.symm h]

/-- A member that is there already is kept where it is. -/
theorem insertMember_of_member? (h : member? key ms = some v) : insertMember key v ms = ms := by
  induction ms with
  | nil => cases h
  | cons m ms ih =>
    rw [member?_cons] at h
    rw [insertMember]
    by_cases hm : m.1 = key
    · rw [if_pos hm] at h ⊢
      cases h
      rfl
    · rw [if_neg hm] at h ⊢
      rw [ih h]

/-! ## Distinct keys -/

theorem eraseDups_filter {β : Type} [BEq β] [LawfulBEq β] (p : β → Bool) (l : List β) :
    (l.filter p).eraseDups = l.eraseDups.filter p := by
  match l with
  | [] => rfl
  | a :: l =>
    have ih := eraseDups_filter p (l.filter fun b => !b == a)
    rw [List.eraseDups_cons]
    by_cases h : p a
    · rw [List.filter_cons_of_pos h, List.eraseDups_cons, List.filter_cons_of_pos h, ← ih,
        List.filter_filter, List.filter_filter]
      simp only [Bool.and_comm]
    · rw [List.filter_cons_of_neg h, List.filter_cons_of_neg h, ← ih, List.filter_filter]
      congr 1
      apply List.filter_congr
      intro b _
      by_cases hb : b = a
      · simp [hb, h]
      · simp [hb]
termination_by l.length
decreasing_by exact Nat.lt_succ_of_le (List.length_filter_le ..)

theorem eraseDups_of_nodup {β : Type} [BEq β] [LawfulBEq β] {l : List β} (h : l.Nodup) :
    l.eraseDups = l := by
  induction l with
  | nil => rfl
  | cons a l ih =>
    rw [List.nodup_cons] at h
    rw [List.eraseDups_cons, List.filter_eq_self.2, ih h.2]
    intro b hb
    have : b ≠ a := fun e => h.1 (e ▸ hb)
    simp [this]

theorem nodup_eraseDups {β : Type} [BEq β] [LawfulBEq β] (l : List β) : l.eraseDups.Nodup := by
  match l with
  | [] => exact List.nodup_nil
  | a :: l =>
    rw [List.eraseDups_cons, List.nodup_cons, List.mem_eraseDups]
    exact ⟨by simp, nodup_eraseDups (l.filter fun b => !b == a)⟩
termination_by l.length
decreasing_by exact Nat.lt_succ_of_le (List.length_filter_le ..)

/-- Nothing is left out of distinct values, and of no others. -/
theorem length_eraseDups_eq_iff {β : Type} [BEq β] [LawfulBEq β] {l : List β} :
    l.eraseDups.length = l.length ↔ l.Nodup := by
  refine ⟨fun h => ?_, fun h => by rw [eraseDups_of_nodup h]⟩
  have hsub : l.eraseDups.Subperm l := (nodup_eraseDups l).subperm fun _ => List.mem_eraseDups.1
  exact (hsub.perm_of_length_le (Nat.le_of_eq h.symm)).nodup_iff.1 (nodup_eraseDups l)

theorem eraseDups_append_eraseDups {β : Type} [BEq β] [LawfulBEq β] (xs ys : List β) :
    (xs ++ ys.eraseDups).eraseDups = (xs ++ ys).eraseDups := by
  rw [List.eraseDups_append, List.eraseDups_append, List.removeAll, List.removeAll, eraseDups_filter,
    eraseDups_filter, eraseDups_of_nodup (nodup_eraseDups ys)]

/-! ## Entries -/

/-- The members that a partial function on keys gives, in the order of the keys. -/
def entries (g : Text → Option α) (keys : List Text) : List (Text × α) :=
  keys.filterMap fun k => (g k).map fun v => (k, v)

/-- The members with more members, inserted one after the other. -/
def insertAll (ms new : List (Text × α)) : List (Text × α) :=
  new.foldl (fun ms m => insertMember m.1 m.2 ms) ms

/-- Members with new and distinct keys are put at the end. -/
theorem insertAll_of_nodup {new : List (Text × α)} (hn : (new.map Prod.fst).Nodup)
    (hd : ∀ m ∈ new, m.1 ∉ ms.map Prod.fst) : insertAll ms new = ms ++ new := by
  induction new generalizing ms with
  | nil => exact (List.append_nil ms).symm
  | cons m new ih =>
    rw [List.map_cons, List.nodup_cons] at hn
    have hm := insertMember_of_not_mem (v := m.2) (hd m List.mem_cons_self)
    have := @ih (ms ++ [m]) hn.2 fun k hk => by
      rw [List.map_append, List.mem_append, not_or]
      refine ⟨hd k (List.mem_cons_of_mem m hk), fun h => hn.1 ?_⟩
      rw [List.map_singleton, List.mem_singleton] at h
      exact h ▸ List.mem_map_of_mem hk
    rw [List.append_assoc, List.singleton_append, ← hm] at this
    exact this

theorem mergeMembers_of_nodup {new : List (Text × α)} (hn : (new.map Prod.fst).Nodup) :
    mergeMembers new = new :=
  insertAll_of_nodup hn (by simp)

theorem nodup_insertMember (h : (ms.map Prod.fst).Nodup) :
    ((insertMember key v ms).map Prod.fst).Nodup := by
  induction ms with
  | nil => exact List.nodup_singleton key
  | cons m ms ih =>
    rw [List.map_cons, List.nodup_cons] at h
    rw [insertMember]
    split
    · exact List.nodup_cons.2 h
    · rename_i hm
      refine List.nodup_cons.2 ⟨fun hk => ?_, ih h.2⟩
      rcases mem_keys_insertMember.1 hk with hk | hk
      · exact h.1 hk
      · exact hm hk

theorem nodup_mergeMembers (new : List (Text × α)) : ((mergeMembers new).map Prod.fst).Nodup := by
  have h : ∀ ms : List (Text × α), (ms.map Prod.fst).Nodup →
      ((insertAll ms new).map Prod.fst).Nodup := by
    induction new with
    | nil => exact fun ms hms => hms
    | cons m new ih => exact fun ms hms => ih _ (nodup_insertMember hms)
  exact h [] List.nodup_nil

theorem mem_insertMember {m : Text × α} (h : m ∈ insertMember key v ms) :
    m ∈ ms ∨ m.2 = v ∧ m.1 = key := by
  induction ms with
  | nil =>
    rw [insertMember, List.mem_singleton] at h
    rw [h]
    exact .inr ⟨rfl, rfl⟩
  | cons k ms ih =>
    rw [insertMember] at h
    split at h
    · rename_i hk
      rcases List.mem_cons.1 h with rfl | h
      · exact .inr ⟨rfl, hk⟩
      · exact .inl (List.mem_cons_of_mem k h)
    · rcases List.mem_cons.1 h with rfl | h
      · exact .inl List.mem_cons_self
      · exact (ih h).imp_left (List.mem_cons_of_mem k)

theorem mem_insertAll {m : Text × α} {new : List (Text × α)} (h : m ∈ insertAll ms new) :
    m ∈ ms ∨ m ∈ new := by
  induction new generalizing ms with
  | nil => exact .inl h
  | cons k new ih =>
    rcases ih h with hm | hm
    · rcases mem_insertMember hm with hm | ⟨h₂, h₁⟩
      · exact .inl hm
      · exact .inr (List.mem_cons.2 (.inl (Prod.ext h₁ h₂)))
    · exact .inr (List.mem_cons_of_mem k hm)

theorem mem_of_mem_mergeMembers {m : Text × α} {new : List (Text × α)} (h : m ∈ mergeMembers new) :
    m ∈ new :=
  (mem_insertAll h).resolve_left (by simp)

theorem mem_keys_insertAll {new : List (Text × α)} :
    k ∈ (insertAll ms new).map Prod.fst ↔ k ∈ ms.map Prod.fst ∨ k ∈ new.map Prod.fst := by
  induction new generalizing ms with
  | nil => simp [insertAll]
  | cons m new ih =>
    have h := @ih (insertMember m.1 m.2 ms)
    rw [mem_keys_insertMember, or_assoc] at h
    rw [List.map_cons, List.mem_cons]
    exact h

theorem member?_insertAll_of_not_mem {new : List (Text × α)} (h : k ∉ new.map Prod.fst) :
    member? k (insertAll ms new) = member? k ms := by
  induction new generalizing ms with
  | nil => rfl
  | cons m new ih =>
    rw [List.map_cons, List.mem_cons, not_or] at h
    have hm := @ih (insertMember m.1 m.2 ms) h.2
    rw [member?_insertMember, if_neg (Ne.symm h.1)] at hm
    exact hm

variable {g : Text → Option α}

theorem entries_cons_none {ks : List Text} (h : g k = none) : entries g (k :: ks) = entries g ks := by
  rw [entries, List.filterMap_cons_none (by rw [h]; rfl)]
  rfl

theorem entries_cons_some {ks : List Text} (h : g k = some v) :
    entries g (k :: ks) = (k, v) :: entries g ks := by
  rw [entries, List.filterMap_cons_some (by rw [h]; rfl)]
  rfl

theorem entries_append (g : Text → Option α) (xs ys : List Text) :
    entries g (xs ++ ys) = entries g xs ++ entries g ys := List.filterMap_append

theorem map_fst_entries (g : Text → Option α) (ks : List Text) :
    (entries g ks).map Prod.fst = ks.filter fun k => (g k).isSome := by
  induction ks with
  | nil => rfl
  | cons k ks ih =>
    cases h : g k with
    | none => rw [entries_cons_none h, List.filter_cons_of_neg (by simp [h]), ih]
    | some v => rw [entries_cons_some h, List.filter_cons_of_pos (by simp [h]), List.map_cons, ih]

theorem length_entries (g : Text → Option α) (ks : List Text) :
    (entries g ks).length = (ks.filter fun k => (g k).isSome).length := by
  rw [← map_fst_entries, List.length_map]

theorem mem_keys_entries {ks : List Text} :
    k ∈ (entries g ks).map Prod.fst ↔ k ∈ ks ∧ (g k).isSome := by
  rw [map_fst_entries, List.mem_filter]

theorem member?_entries_of_mem {ks : List Text} (h : k ∈ ks) : member? k (entries g ks) = g k := by
  induction ks with
  | nil => cases h
  | cons l ks ih =>
    cases hg : g l with
    | none =>
      rw [entries_cons_none hg]
      rcases List.mem_cons.1 h with rfl | h
      · rw [hg, member?_eq_none_iff]
        exact fun hk => by simpa [hg] using (mem_keys_entries.1 hk).2
      · exact ih h
    | some v =>
      rw [entries_cons_some hg, member?_cons]
      by_cases hl : l = k
      · rw [if_pos hl, ← hl, hg]
      · rw [if_neg hl]
        exact ih ((List.mem_cons.1 h).resolve_left (Ne.symm hl))

theorem entries_filter_isSome (ks : List Text) :
    entries g (ks.filter fun k => (g k).isSome) = entries g ks := by
  induction ks with
  | nil => rfl
  | cons k ks ih =>
    cases h : g k with
    | none => rw [List.filter_cons_of_neg (by simp [h]), ih, entries_cons_none h]
    | some v => rw [List.filter_cons_of_pos (by simp [h]), entries_cons_some h, ih,
        entries_cons_some h]

/-- One more key. -/
theorem insertMember_entries {base : List (Text × α)} {done : List Text}
    (hb : k ∉ base.map Prod.fst) (hv : g k = some v) :
    insertMember k v (base ++ entries g done.eraseDups) =
      base ++ entries g (done ++ [k]).eraseDups := by
  rw [List.eraseDups_append]
  by_cases hk : k ∈ done
  · have hr : [k].removeAll done = [] := by simp [List.removeAll, hk]
    rw [hr, List.eraseDups_nil, List.append_nil]
    refine insertMember_of_member? ?_
    rw [member?_append, member?_eq_none_iff.2 hb, Option.none_or,
      member?_entries_of_mem (List.mem_eraseDups.2 hk), hv]
  · have hr : [k].removeAll done = [k] := by simp [List.removeAll, hk]
    rw [hr, eraseDups_of_nodup (List.nodup_singleton k), entries_append, entries_cons_some hv,
      ← List.append_assoc]
    refine insertMember_of_not_mem ?_
    rw [List.map_append, List.mem_append, not_or]
    exact ⟨hb, fun h => hk (List.mem_eraseDups.1 (mem_keys_entries.1 h).1)⟩

theorem entries_eraseDups_skip {done : List Text} (h : g k = none) :
    entries g (done ++ [k]).eraseDups = entries g done.eraseDups := by
  have hk : [k].filter (fun k => (g k).isSome) = [] := by simp [h]
  rw [← entries_filter_isSome, ← eraseDups_filter, List.filter_append, hk, List.append_nil,
    eraseDups_filter, entries_filter_isSome]

/-- **Entries inserted one after the other** are the entries of the distinct keys. -/
theorem insertAll_entries {base : List (Text × α)} (done ks : List Text)
    (hb : ∀ k ∈ ks, k ∉ base.map Prod.fst) :
    insertAll (base ++ entries g done.eraseDups) (entries g ks) =
      base ++ entries g (done ++ ks).eraseDups := by
  induction ks generalizing done with
  | nil => rw [List.append_nil]; rfl
  | cons k ks ih =>
    have hks := ih (done ++ [k]) fun l hl => hb l (List.mem_cons_of_mem k hl)
    rw [List.append_assoc, List.singleton_append] at hks
    rw [← hks]
    cases hv : g k with
    | none => rw [entries_eraseDups_skip hv, entries_cons_none hv]
    | some v =>
      rw [← insertMember_entries (hb k List.mem_cons_self) hv, entries_cons_some hv]
      rfl

/-- Entries of a list of keys in which some have come already: those that have come, and those that
have not or that gave nothing. -/
theorem entries_eraseDups_append (done rest : List Text) :
    entries g (done ++ rest).eraseDups = entries g done.eraseDups ++
      entries g (((done ++ rest).filter fun k => !(decide (k ∈ done) && (g k).isSome)).eraseDups) := by
  have hdone : (done.filter fun k => !(decide (k ∈ done) && (g k).isSome) && (g k).isSome) = [] := by
    rw [List.filter_eq_nil_iff]
    intro k hk
    simp only [hk, decide_true, Bool.true_and]
    cases (g k).isSome <;> simp
  have hrest : (rest.removeAll done).filter (fun k => (g k).isSome) =
      rest.filter fun k => !(decide (k ∈ done) && (g k).isSome) && (g k).isSome := by
    rw [List.removeAll, List.filter_filter]
    apply List.filter_congr
    intro k _
    cases (g k).isSome <;> simp
  rw [List.eraseDups_append, entries_append, ← entries_filter_isSome (rest.removeAll done).eraseDups,
    ← eraseDups_filter, hrest, ← entries_filter_isSome (List.eraseDups (List.filter _ (done ++ rest))),
    ← eraseDups_filter, List.filter_filter, List.filter_append]
  simp only [Bool.and_comm] at hdone ⊢
  rw [hdone, List.nil_append]

theorem mergeMembers_entries (ks : List Text) :
    mergeMembers (entries g ks) = entries g ks.eraseDups := by
  have h := @insertAll_entries α g [] [] ks (by simp)
  exact h

end SourceAtlas.Json
