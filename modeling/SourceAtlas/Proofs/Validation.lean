import SourceAtlas.Proofs.Members
import SourceAtlas.Validation

/-!
# When a value fits

Each check of a part, and what it says of the value when there are no misfits.

* `Checked.map_eq_fits`, `Checked.seq_eq_fits`, `Checked.within_eq_fits`, `Checked.require_eq_fits`:
  checks put together;
* `Checked.text_eq_fits`, `Checked.properText_eq_fits`, `Checked.choice_eq_fits`,
  `Checked.listOf_eq_fits`, `Checked.positive_eq_fits`, `Checked.listOf_text_eq_fits`,
  `Checked.record_eq_fits`: checks by type;
* `Member.mem_of_find?`, `Member.required_eq_fits`, `Member.orElse_eq_fits`: members of a record;
* `Member.scalarKeys_eq_fits`, `Member.others_sublist`: the members beside them.
-/

namespace SourceAtlas

namespace Checked

variable {α β : Type} {a : α} {b : β} {v : Json}

/-! ## Checks put together -/

@[simp]
theorem map_eq_fits {c : Checked α} {f : α → β} :
    f <$> c = fits b ↔ ∃ a, c = fits a ∧ f a = b := by
  change map f c = fits b ↔ _
  cases c <;> simp [map]

@[simp]
theorem seq_eq_fits {c : Checked (α → β)} {d : Checked α} :
    c <*> d = fits b ↔ ∃ f a, c = fits f ∧ d = fits a ∧ f a = b := by
  change seq c d = fits b ↔ _
  cases c <;> cases d <;> simp [seq]

@[simp]
theorem within_eq_fits {c : Checked α} {key : Text} : c.within key = fits a ↔ c = fits a := by
  cases c <;> simp [within]

theorem all_eq_fits {cs : List (Checked α)} {as : List α} : all cs = fits as ↔ cs = as.map fits := by
  induction cs generalizing as with
  | nil => cases as <;> simp [all]
  | cons c cs ih =>
    simp only [all, seq_eq_fits, map_eq_fits, ih]
    constructor
    · rintro ⟨_, bs, ⟨b, rfl, rfl⟩, rfl, rfl⟩
      rfl
    · intro h
      cases as with
      | nil => cases h
      | cons b bs =>
        rw [List.map_cons, List.cons.injEq] at h
        exact ⟨_, bs, ⟨b, h.1, rfl⟩, h.2, rfl⟩

@[simp]
theorem require_eq_fits {c : Checked α} {p : α → Bool} {kind : Misfit.Kind} :
    c.require p kind = fits a ↔ c = fits a ∧ p a = true := by
  cases c with
  | fits b =>
    by_cases hp : p b = true
    · simp only [require, hp, if_true, fits.injEq]
      constructor
      · rintro rfl
        exact ⟨rfl, hp⟩
      · exact And.left
    · simp only [require, hp, fail, fits.injEq]
      constructor
      · rintro ⟨⟩
      · rintro ⟨rfl, ha⟩
        exact absurd ha hp
  | misfits ms => simp [require]

@[simp]
theorem toExcept_eq_ok {ε : Type} {c : Checked α} {f : List Misfit → ε} :
    c.toExcept f = .ok a ↔ c = fits a := by
  cases c <;> simp [toExcept]

/-! ## Checks by type -/

@[simp]
theorem text_eq_fits {t : Text} : text v = fits t ↔ v = .text t := by
  cases v <;> simp [text, fail]

@[simp]
theorem properText_eq_fits {t : Text} :
    properText v = fits t ↔ v = .text t ∧ t.isScalar = true ∧ t ≠ [] := by
  cases v with
  | text s =>
    rw [properText, Json.text.injEq]
    split_ifs with hs he
    · simp only [fail, reduceCtorEq, false_iff]
      rintro ⟨rfl, ht, -⟩
      simp [ht] at hs
    · simp only [fail, reduceCtorEq, false_iff]
      rintro ⟨rfl, -, hne⟩
      exact hne (List.isEmpty_iff.1 he)
    · rw [fits.injEq]
      constructor
      · rintro rfl
        exact ⟨rfl, by simpa using hs, fun h => he (List.isEmpty_iff.2 h)⟩
      · exact And.left
  | null | bool | int | float | list | object => simp [properText, fail]

theorem choice_eq_fits {choices : List (Text × α)} :
    choice choices v = fits a ↔ ∃ t, v = .text t ∧ Json.member? t choices = some a := by
  cases v with
  | text t =>
    simp only [choice, Json.text.injEq, exists_eq_left']
    cases Json.member? t choices <;> simp [fail]
  | null | bool | int | float | list | object => simp [choice, fail]

theorem listOf_eq_fits {read : Json → Checked α} {as : List α} :
    listOf read v = fits as ↔ ∃ vs, v = .list vs ∧ vs.map read = as.map fits := by
  cases v with
  | list vs =>
    have hwithin : (vs.mapIdx fun i v => (read v).within (Text.ofNat i)) = as.map fits ↔
        vs.map read = as.map fits := by
      simp only [List.ext_getElem_iff, List.length_mapIdx, List.length_map, List.getElem_mapIdx,
        List.getElem_map, within_eq_fits]
    rw [listOf, all_eq_fits, hwithin]
    simp
  | null | bool | int | float | text | object => simp [listOf, fail]

theorem map_text_eq_map_fits {vs : List Json} {ts : List Text} :
    vs.map text = ts.map fits ↔ vs = ts.map .text := by
  induction vs generalizing ts with
  | nil => cases ts <;> simp
  | cons v vs ih => cases ts <;> simp [ih]

theorem positive_eq_fits {n : Int} : positive v = fits n ↔ integer v = fits n ∧ 0 < n := by
  simp [positive]

/-- A list of texts. -/
theorem listOf_text_eq_fits {ts : List Text} : listOf text v = fits ts ↔ v = .texts ts := by
  simp only [listOf_eq_fits, map_text_eq_map_fits, Json.texts, exists_eq_right]

@[simp]
theorem record_eq_fits {name : Text} {read : List (Text × Json) → Checked α} :
    record name read v = fits a ↔ ∃ ms, v = .object ms ∧ read ms = fits a := by
  cases v <;> simp [record, fail]

end Checked

namespace Member

variable {α : Type} {m : Member} {ms : List (Text × Json)} {k : Text} {v : Json} {a default : α}
  {read : Json → Checked α}

/-! ## Members -/

theorem mem_of_member? (h : Json.member? k ms = some v) : (k, v) ∈ ms := by
  obtain ⟨p, hp, rfl⟩ := Option.map_eq_some_iff.1 h
  have hk : p.1 = k := by simpa using List.find?_some hp
  rw [← hk]
  exact List.mem_of_find?_eq_some hp

theorem mem_of_find? (h : m.find? ms = some (k, v)) : (k, v) ∈ ms := by
  obtain ⟨l, -, hl⟩ := List.exists_of_findSome?_eq_some h
  obtain ⟨w, hw, he⟩ := Option.map_eq_some_iff.1 hl
  cases he
  exact mem_of_member? hw

theorem find?_one (k : Text) (ms : List (Text × Json)) :
    (⟨[k]⟩ : Member).find? ms = (Json.member? k ms).map fun v => (k, v) := by
  rw [find?, List.findSome?_cons]
  cases Json.member? k ms <;> rfl

theorem find?_cons_self (k : Text) (v : Json) (ms : List (Text × Json)) :
    (⟨[k]⟩ : Member).find? ((k, v) :: ms) = some (k, v) := by
  rw [find?_one, Json.member?_cons, if_pos rfl]
  rfl

theorem find?_cons_of_ne {l : Text} (h : k ≠ l) :
    (⟨[l]⟩ : Member).find? ((k, v) :: ms) = (⟨[l]⟩ : Member).find? ms := by
  rw [find?_one, find?_one, Json.member?_cons, if_neg h]

/-- A member under the better of two keys, if there is none under the other one. -/
theorem find?_two {l : Text} (h : Json.member? l ms = none) :
    (⟨[k, l]⟩ : Member).find? ms = (Json.member? k ms).map fun v => (k, v) := by
  rw [find?, List.findSome?_cons, List.findSome?_cons, h]
  cases Json.member? k ms <;> rfl

theorem required_eq_fits : m.required read ms = .fits a ↔
    ∃ k v, m.find? ms = some (k, v) ∧ read v = .fits a := by
  rw [required]
  cases m.find? ms with
  | none => simp
  | some p => simp [Prod.ext_iff]

theorem orElse_eq_fits : m.orElse default read ms = .fits a ↔
    m.find? ms = none ∧ a = default ∨ ∃ k v, m.find? ms = some (k, v) ∧ read v = .fits a := by
  rw [orElse]
  cases m.find? ms with
  | none => simp [eq_comm]
  | some p => simp [Prod.ext_iff]

/-! ## Other members -/

theorem scalarKeys_eq_fits {check : Checked α} : scalarKeys ms check = .fits a ↔
    (∀ m ∈ ms, m.1.isScalar = true) ∧ check = .fits a := by
  rw [scalarKeys]
  split
  · rename_i h
    rw [List.all_eq_true] at h
    exact ⟨fun hc => ⟨h, hc⟩, And.right⟩
  · rename_i h
    rw [List.all_eq_true] at h
    simp only [Checked.fail, reduceCtorEq, false_iff, not_and]
    exact fun hall => absurd hall h

/-- A member of a record is none of the others. -/
theorem ne_of_mem_others {known : List Member} (hk : ⟨[k]⟩ ∈ known) {p : Text × Json}
    (hp : p ∈ others known ms) : p.1 ≠ k := by
  rintro rfl
  obtain ⟨hmem, hused⟩ := List.mem_filter.1 hp
  have hsome : (Json.member? p.1 ms).isSome = true := by
    rw [Option.isSome_iff_ne_none, Ne, Json.member?_eq_none_iff, not_not]
    exact List.mem_map_of_mem hmem
  obtain ⟨v, hv⟩ := Option.isSome_iff_exists.1 hsome
  have hfind : p.1 ∈ known.filterMap fun m => (m.find? ms).map Prod.fst := by
    refine List.mem_filterMap.2 ⟨_, hk, ?_⟩
    rw [find?_one, hv]
    rfl
  simp [hfind] at hused

theorem others_sublist (known : List Member) (ms : List (Text × Json)) :
    (others known ms).Sublist ms := List.filter_sublist

end Member

end SourceAtlas
