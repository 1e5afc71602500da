import Mathlib.Data.List.Nodup
import SourceAtlas.Tier

/-!
# The tier of a prompt

A prompt goes to the cheapest tier that covers its count of tokens, whatever the order in which the
tiers are given. Tiers of one budget keep that order, so that ties are settled by it.

* `TierTable.ofList_eq_ok`: the lists that make a table, and its tiers;
* `TierTable.find?_tiers`, `TierTable.find?_reverse_tiers`: the first and the last tier of a budget
  are those of the list;
* `TierTable.select_of_covers`, `TierTable.select_of_exceeds`: the two cases of a selection;
* `TierTable.select_mono`, `TierTable.tiers_eq_of_perm`: larger counts, and other orders;
* **`TierTable.select_cheapest`**: which tier is selected.
-/

namespace SourceAtlas

namespace Tier

theorem le_iff {a b : Tier} : le a b = true ↔ a.maxTokens ≤ b.maxTokens := by
  rw [le, decide_eq_true_iff]

theorem le_trans (a b c : Tier) (hab : le a b = true) (hbc : le b c = true) : le a c = true := by
  rw [le_iff] at *
  omega

theorem le_total (a b : Tier) : (le a b || le b a) = true := by
  rw [Bool.or_eq_true, le_iff, le_iff]
  omega

end Tier

namespace TierTable

variable {ts us : List Tier} {t : Tier} {table other : TierTable} {count larger : Int}

/-! ## The tiers of a table -/

/-- **The lists that make a table**: at least one tier, and all budgets positive. -/
theorem ofList_eq_ok : ofList ts = .ok table ↔
    ts ≠ [] ∧ (∀ t ∈ ts, 0 < t.maxTokens) ∧ table.tiers = ts.mergeSort Tier.le := by
  have hpos : (ts.find? fun t => decide (t.maxTokens ≤ 0)) = none ↔ ∀ t ∈ ts, 0 < t.maxTokens := by
    rw [List.find?_eq_none]
    exact forall₂_congr fun t _ => by rw [decide_eq_true_iff, Int.not_le]
  by_cases hne : ts = []
  · rw [ofList, dif_pos hne]
    exact ⟨fun h => (nomatch h), fun h => absurd hne h.1⟩
  · rw [ofList, dif_neg hne, ← hpos]
    split
    · rename_i t hsome
      rw [hsome]
      exact ⟨fun h => (nomatch h), fun h => (nomatch h.2.1)⟩
    · rename_i hnone
      rw [Except.ok.injEq]
      constructor
      · rintro rfl
        exact ⟨hne, hnone, rfl⟩
      · rintro ⟨-, -, htiers⟩
        cases table
        cases htiers
        rfl

/-- Tiers make a table if there is one and all budgets are positive. -/
theorem exists_ofList (hne : ts ≠ []) (hpos : ∀ t ∈ ts, 0 < t.maxTokens) :
    ∃ table, ofList ts = .ok table := by
  have hperm := List.mergeSort_perm ts Tier.le
  have hsorted : ts.mergeSort Tier.le ≠ [] := fun h => hne (h ▸ hperm).nil_eq.symm
  exact ⟨⟨_, hsorted, fun t ht => hpos t (hperm.mem_iff.1 ht), sorted_mergeSort ts⟩,
    ofList_eq_ok.2 ⟨hne, hpos, rfl⟩⟩

theorem perm_tiers (h : ofList ts = .ok table) : table.tiers.Perm ts := by
  rw [(ofList_eq_ok.1 h).2.2]
  exact List.mergeSort_perm ts Tier.le

/-- **Tiers of one budget keep their order.** -/
theorem filter_tiers (h : ofList ts = .ok table) (budget : Int) :
    (table.tiers.filter fun t => t.maxTokens = budget) =
      ts.filter fun t => t.maxTokens = budget := by
  have hsame : (ts.filter fun t => t.maxTokens = budget).Pairwise fun a b => Tier.le a b = true := by
    refine List.pairwise_of_forall_mem_list fun a ha b hb => ?_
    have ha := List.of_mem_filter ha
    have hb := List.of_mem_filter hb
    rw [decide_eq_true_iff] at ha hb
    rw [Tier.le_iff]
    omega
  have hsub : (ts.filter fun t => t.maxTokens = budget).Sublist table.tiers := by
    rw [(ofList_eq_ok.1 h).2.2]
    exact List.sublist_mergeSort Tier.le_trans Tier.le_total hsame List.filter_sublist
  -- A sublist that is as long as the whole is the whole.
  have hfilter := hsub.filter fun t => decide (t.maxTokens = budget)
  rw [List.filter_filter] at hfilter
  simp only [Bool.and_self] at hfilter
  exact (hfilter.eq_of_length ((perm_tiers h).symm.filter _).length_eq).symm

/-- The first tier of a budget is the one of the list. -/
theorem find?_tiers (h : ofList ts = .ok table) (budget : Int) :
    (table.tiers.find? fun t => t.maxTokens = budget) = ts.find? fun t => t.maxTokens = budget := by
  rw [← List.head?_filter, filter_tiers h, List.head?_filter]

/-- The last tier of a budget is the one of the list. -/
theorem find?_reverse_tiers (h : ofList ts = .ok table) (budget : Int) :
    (table.tiers.reverse.find? fun t => t.maxTokens = budget) =
      ts.reverse.find? fun t => t.maxTokens = budget := by
  rw [← List.head?_filter, List.filter_reverse, filter_tiers h, ← List.filter_reverse,
    List.head?_filter]

/-! ## Selections -/

theorem largest_mem (table : TierTable) : table.largest ∈ table.tiers :=
  List.getLast_mem table.nonempty

theorem le_largest (ht : t ∈ table.tiers) : t.maxTokens ≤ table.largest.maxTokens := by
  have hsorted := table.sorted
  rw [← List.dropLast_concat_getLast table.nonempty, List.pairwise_append] at hsorted
  rw [← List.dropLast_concat_getLast table.nonempty, List.mem_append, List.mem_singleton] at ht
  rcases ht with ht | rfl
  · exact hsorted.2.2 t ht _ (List.mem_singleton_self _)
  · exact Int.le_refl _

/-- The largest tier is the last one of its budget. -/
theorem find?_reverse_largest (table : TierTable) :
    (table.tiers.reverse.find? fun t => t.maxTokens = table.largest.maxTokens) =
      some table.largest := by
  have hrev : table.tiers.reverse = table.largest :: table.tiers.dropLast.reverse := by
    conv_lhs => rw [← List.dropLast_concat_getLast table.nonempty, List.reverse_concat]
    rfl
  rw [hrev, List.find?_cons_of_pos (by simp)]

/-- **A count that is covered** goes to the first of the tiers of the smallest budget covering it. -/
theorem select_of_covers (ht : t ∈ table.tiers) (hc : count ≤ t.maxTokens) :
    table.select count ∈ table.tiers ∧ count ≤ (table.select count).maxTokens ∧
      (∀ t ∈ table.tiers, count ≤ t.maxTokens → (table.select count).maxTokens ≤ t.maxTokens) ∧
      (table.tiers.find? fun t => t.maxTokens = (table.select count).maxTokens) =
        some (table.select count) := by
  obtain ⟨s, hs⟩ : ∃ s, (table.tiers.find? fun t => decide (count ≤ t.maxTokens)) = some s := by
    rw [← Option.isSome_iff_exists, List.find?_isSome]
    exact ⟨t, ht, by simpa using hc⟩
  have hselect : table.select count = s := by rw [select, hs, Option.getD_some]
  rw [hselect]
  obtain ⟨hcovers, before, after, htiers, hbefore⟩ := List.find?_eq_some_iff_append.1 hs
  have hsmall : ∀ a ∈ before, a.maxTokens < count := by simpa using hbefore
  have hsorted := table.sorted
  rw [htiers, List.pairwise_append, List.pairwise_cons] at hsorted
  have hcovers : count ≤ s.maxTokens := by simpa using hcovers
  refine ⟨List.mem_of_find?_eq_some hs, hcovers, fun a ha hca => ?_, ?_⟩
  · rw [htiers, List.mem_append, List.mem_cons] at ha
    rcases ha with ha | rfl | ha
    · have := hsmall a ha
      omega
    · exact Int.le_refl _
    · exact hsorted.2.1.1 a ha
  · refine List.find?_eq_some_iff_append.2 ⟨by simp, before, after, htiers, fun a ha => ?_⟩
    have hne : a.maxTokens ≠ s.maxTokens := by
      have := hsmall a ha
      omega
    simpa using hne

/-- **A count that no tier covers** goes to the largest one. -/
theorem select_of_exceeds (h : ∀ t ∈ table.tiers, t.maxTokens < count) :
    table.select count = table.largest := by
  have hnone : (table.tiers.find? fun t => decide (count ≤ t.maxTokens)) = none := by
    rw [List.find?_eq_none]
    intro t ht
    have := h t ht
    simpa using this
  rw [select, hnone, Option.getD_none]

theorem covered_or_exceeds (table : TierTable) (count : Int) :
    (∃ t ∈ table.tiers, count ≤ t.maxTokens) ∨ ∀ t ∈ table.tiers, t.maxTokens < count := by
  by_cases h : ∃ t ∈ table.tiers, count ≤ t.maxTokens
  · exact .inl h
  · exact .inr fun t ht => Int.not_le.1 fun hc => h ⟨t, ht, hc⟩

theorem select_mem (table : TierTable) (count : Int) : table.select count ∈ table.tiers := by
  rcases covered_or_exceeds table count with ⟨t, ht, hc⟩ | h
  · exact (select_of_covers ht hc).1
  · rw [select_of_exceeds h]
    exact largest_mem table

/-- **A larger count** goes to a tier that is as large or larger. -/
theorem select_mono (h : count ≤ larger) :
    (table.select count).maxTokens ≤ (table.select larger).maxTokens := by
  rcases covered_or_exceeds table larger with ⟨t, ht, hc⟩ | hexceeds
  · -- What covers the larger count covers the smaller one as well.
    obtain ⟨hmem, hcovers, -⟩ := select_of_covers ht hc
    have hc := Int.le_trans h hcovers
    exact (select_of_covers hmem hc).2.2.1 _ hmem hc
  · rw [select_of_exceeds hexceeds]
    exact le_largest (select_mem table count)

/-! ## Other orders -/

/-- **Tiers of different budgets** make one table in every order. -/
theorem tiers_eq_of_perm (hn : (ts.map Tier.maxTokens).Nodup) (hp : us.Perm ts)
    (h : ofList ts = .ok table) (ho : ofList us = .ok other) : other.tiers = table.tiers := by
  refine List.Perm.eq_of_pairwise (fun a b ha hb hab hba => ?_) other.sorted table.sorted
    ((perm_tiers ho).trans (hp.trans (perm_tiers h).symm))
  have ha := hp.mem_iff.1 ((perm_tiers ho).mem_iff.1 ha)
  exact List.inj_on_of_nodup_map hn ha ((perm_tiers h).mem_iff.1 hb) (Int.le_antisymm hab hba)

/-- **The tier that is selected** from any list of tiers with positive budgets: the first one listed
of the smallest budget that covers the count, or else the last one listed of the largest budget. It
grows with the count, and the order of tiers of different budgets does not matter. -/
theorem select_cheapest (ts : List Tier) (hne : ts ≠ []) (hpos : ∀ t ∈ ts, 0 < t.maxTokens) :
    ∃ table, ofList ts = .ok table ∧
      (∀ count, table.select count ∈ ts) ∧
      (∀ count, (∃ t ∈ ts, count ≤ t.maxTokens) →
        count ≤ (table.select count).maxTokens ∧
        (∀ t ∈ ts, count ≤ t.maxTokens → (table.select count).maxTokens ≤ t.maxTokens) ∧
        (ts.find? fun t => t.maxTokens = (table.select count).maxTokens) =
          some (table.select count)) ∧
      (∀ count, (∀ t ∈ ts, t.maxTokens < count) → table.select count = table.largest) ∧
      (∀ t ∈ ts, t.maxTokens ≤ table.largest.maxTokens) ∧
      (ts.reverse.find? fun t => t.maxTokens = table.largest.maxTokens) = some table.largest ∧
      (∀ count larger, count ≤ larger →
        (table.select count).maxTokens ≤ (table.select larger).maxTokens) ∧
      ((ts.map Tier.maxTokens).Nodup → ∀ us, us.Perm ts → ∃ other, ofList us = .ok other ∧
        ∀ count, other.select count = table.select count) := by
  obtain ⟨table, h⟩ := exists_ofList hne hpos
  have hmem : ∀ t, t ∈ table.tiers ↔ t ∈ ts := fun t => (perm_tiers h).mem_iff
  refine ⟨table, h, fun count => (hmem _).1 (select_mem table count), ?_, ?_, ?_, ?_, ?_, ?_⟩
  · rintro count ⟨t, ht, hc⟩
    obtain ⟨-, hcovers, hleast, hfirst⟩ := select_of_covers ((hmem t).2 ht) hc
    exact ⟨hcovers, fun t ht => hleast t ((hmem t).2 ht), (find?_tiers h _).symm.trans hfirst⟩
  · exact fun count hexceeds => select_of_exceeds fun t ht => hexceeds t ((hmem t).1 ht)
  · exact fun t ht => le_largest ((hmem t).2 ht)
  · rw [← find?_reverse_tiers h]
    exact find?_reverse_largest table
  · exact fun count larger => select_mono
  · intro hn us hp
    obtain ⟨other, ho⟩ := exists_ofList (fun he => hne (he ▸ hp).nil_eq.symm)
      fun t ht => hpos t (hp.mem_iff.1 ht)
    refine ⟨other, ho, fun count => ?_⟩
    have htiers := tiers_eq_of_perm hn hp h ho
    cases table
    cases other
    cases htiers
    rfl

/-- Five tiers out of order, two of them small and two of them large. -/
theorem select_cheapest_ties :
    let tiers : List Tier := [⟨"large", "a", 120000⟩, ⟨"small", "b", 2000⟩, ⟨"spare", "c", 2000⟩,
      ⟨"huge", "d", 120000⟩, ⟨"middle", "e", 26000⟩]
    tiers ≠ [] ∧ (∀ t ∈ tiers, 0 < t.maxTokens) ∧ ∃ table, ofList tiers = .ok table ∧
      table.select 2000 = ⟨"small", "b", 2000⟩ ∧ table.select 120001 = ⟨"huge", "d", 120000⟩ := by
  intro tiers
  have hpos : ∀ t ∈ tiers, 0 < t.maxTokens := by decide
  have hbound : ∀ t ∈ tiers, t.maxTokens < 120001 := by decide
  obtain ⟨table, htable, hmem, hcovered, hexceeds, hlargest, hlast, -⟩ :=
    select_cheapest tiers (by decide) hpos
  refine ⟨by decide, hpos, table, htable, ?_, ?_⟩
  · have hsmall : (⟨"small", "b", 2000⟩ : Tier) ∈ tiers := by decide
    obtain ⟨hcovers, hleast, hfirst⟩ := hcovered 2000 ⟨_, hsmall, by decide⟩
    have hbudget : (table.select 2000).maxTokens = 2000 :=
      Int.le_antisymm (hleast _ hsmall (by decide)) hcovers
    rw [hbudget] at hfirst
    exact (Option.some.inj hfirst).symm
  · have hselect := hexceeds 120001 hbound
    have hhuge : (120000 : Int) ≤ table.largest.maxTokens :=
      hlargest ⟨"huge", "d", 120000⟩ (by decide)
    have hbudget : table.largest.maxTokens = 120000 := by
      have := hbound _ (hselect ▸ hmem 120001)
      omega
    rw [hbudget] at hlast
    rw [hselect]
    exact (Option.some.inj hlast).symm

end TierTable

end SourceAtlas
