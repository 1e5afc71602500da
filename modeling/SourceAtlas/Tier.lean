import SourceAtlas.Text.Basic

/-!
# Model tiers

A prompt goes to the cheapest model whose token budget covers it.

* `Tier`, `Tier.defaults`;
* `TierTable`: at least one tier, all budgets positive, in the order of the budgets;
* `TierTable.ofList`: the table of a list of tiers, or why there is none;
* `TierTable.select`, `TierTable.largest`.
-/

namespace SourceAtlas

/-- A model and the token count up to which it serves prompts. -/
structure Tier where
  name : Text
  model : Text
  maxTokens : Int
deriving DecidableEq

/-- The tiers that are used when none are configured. -/
def Tier.defaults : List Tier :=
  [⟨"standard", "gpt-4o-mini", 2000⟩, ⟨"extended", "gpt-4o", 26000⟩, ⟨"large", "gpt-4.1", 120000⟩]

/-- Why a list of tiers makes no table. -/
inductive TierError where
  | noTiers
  | budgetNotPositive (name : Text)
deriving DecidableEq

def TierError.message : TierError → Text
  | noTiers => "at least one model tier is required"
  | budgetNotPositive name => "tier '" ++ name ++ "' max_tokens must be > 0"

/-- The order by budget. -/
def Tier.le (a b : Tier) : Bool := a.maxTokens ≤ b.maxTokens

/-- At least one tier, in the order of the budgets. -/
structure TierTable where
  tiers : List Tier
  nonempty : tiers ≠ []
  positive : ∀ t ∈ tiers, 0 < t.maxTokens
  sorted : tiers.Pairwise fun a b => a.maxTokens ≤ b.maxTokens

namespace TierTable

theorem sorted_mergeSort (ts : List Tier) :
    (ts.mergeSort Tier.le).Pairwise fun a b => a.maxTokens ≤ b.maxTokens := by
  have h := @List.pairwise_mergeSort _ Tier.le
    (fun a b c hab hbc => by simp only [Tier.le, decide_eq_true_eq] at *; omega)
    (fun a b => by simp only [Tier.le, Bool.or_eq_true, decide_eq_true_eq]; omega) ts
  exact h.imp fun hab => by simpa [Tier.le] using hab

/-- The table of a list of tiers; tiers of one budget keep their order. -/
def ofList (ts : List Tier) : Except TierError TierTable :=
  if hn : ts = [] then .error .noTiers
  else match hf : ts.find? fun t => decide (t.maxTokens ≤ 0) with
    | some t => .error (.budgetNotPositive t.name)
    | none => .ok {
        tiers := ts.mergeSort Tier.le
        nonempty := fun h => hn (by
          have := (List.mergeSort_perm ts Tier.le).length_eq
          rw [h] at this
          exact List.eq_nil_of_length_eq_zero this.symm)
        positive := fun t ht => by
          have := List.find?_eq_none.1 hf t ((List.mergeSort_perm ts Tier.le).mem_iff.1 ht)
          simpa using this
        sorted := sorted_mergeSort ts }

/-- The last tier of the largest budget. -/
def largest (table : TierTable) : Tier := table.tiers.getLast table.nonempty

/-- The first tier whose budget covers the count, else the largest. -/
def select (table : TierTable) (count : Int) : Tier :=
  (table.tiers.find? fun t => decide (count ≤ t.maxTokens)).getD table.largest

end TierTable

end SourceAtlas
