import SourceAtlas.Proofs.Json.Values
import SourceAtlas.Proofs.Validation
import SourceAtlas.Summary

/-!
# Records of two members and any others

The records in a summary have two members of their own, and keep all others that are not null. What is
written of such a record fits again, also as it is read back.

* `Part`, `Part.Lawful`: a member with its check and its written form;
* `checkTwo`, `writeTwo`: the check and the written form of a record of two parts;
* `Beside`: the other members of a record that fits;
* `exists_of_checkTwo`: what a record holds that fits;
* `checkTwo_writeTwo`, `reread_writeTwo`: what is written fits; what is read back of it is written of
  the record with its texts joined;
* `Restores`: what fits is restored from its written form, with its texts joined;
* **`restores_checkTwo`**: records of two parts are restored, and so are those in a summary.
-/

namespace SourceAtlas.Summary

variable {α β γ : Type}

/-! ## Members that are not null -/

/-- The members that are not null. -/
def present (os : List (Text × Json)) : List (Text × Json) := os.filter fun m => m.2 != .null

theorem beq_null_iff {v : Json} : (v == .null) = true ↔ v = .null := by
  cases v <;> simp [BEq.beq, Json.beq]

theorem bne_null_iff {v : Json} : (v != .null) = true ↔ v ≠ .null := by
  rw [bne, Bool.not_eq_true', ← Bool.not_eq_true, beq_null_iff]

theorem mem_present {os : List (Text × Json)} {m : Text × Json} :
    m ∈ present os ↔ m ∈ os ∧ m.2 ≠ .null := by
  rw [present, List.mem_filter, bne_null_iff]

theorem present_of_ne_null {os : List (Text × Json)} (h : ∀ m ∈ os, m.2 ≠ .null) :
    present os = os :=
  List.filter_eq_self.2 fun m hm => bne_null_iff.2 (h m hm)

theorem reread_ne_null {v : Json} (h : v ≠ .null) : v.reread ≠ .null := by
  cases v with
  | null => exact absurd rfl h
  | bool | int | float | text | list | object => simp [Json.reread, Json.ofMembers]

/-- The other members of a record as they are read back. -/
def storedOthers (os : List (Text × Json)) : List (Text × Json) := (present os).map Json.rereadMember

theorem ne_null_of_mem_storedOthers {os : List (Text × Json)} {m : Text × Json}
    (h : m ∈ storedOthers os) : m.2 ≠ .null := by
  obtain ⟨p, hp, rfl⟩ := List.mem_map.1 h
  exact reread_ne_null (mem_present.1 hp).2

/-! ## Parts -/

/-- A member of a record: its key, what it is when it is missing, its check, its written form, and what
it is once that was read back. -/
structure Part (α : Type) where
  key : Text
  default : α
  read : Json → Checked α
  write : α → Json
  joined : α → α

/-- The property holds of all texts of scalar values. -/
def OfScalars (P : Text → Prop) : Prop := ∀ t : Text, t.isScalar = true → P t

/-- What is written of a part fits, and is made of what the part was read from. -/
structure Part.Lawful (p : Part α) : Prop where
  scalar : p.key.isScalar = true
  read_write : ∀ a, p.read (p.write a) = .fits a
  reread_write : ∀ a, (p.write a).reread = p.write (p.joined a)
  made_default : ∀ P, OfScalars P → (p.write p.default).Made P
  made_write : ∀ P v a, v.Made P → p.read v = .fits a → (p.write a).Made P

/-- A member that is a text, and empty when it is missing. -/
def textPart (key : Text) : Part Text := ⟨key, [], Checked.text, .text, Text.joinPairs⟩

theorem lawful_textPart {key : Text} (h : key.isScalar = true) : (textPart key).Lawful where
  scalar := h
  read_write _ := rfl
  reread_write := Json.reread_text
  made_default _ hP := .text [] (hP [] rfl)
  made_write _ v a hv ha := by
    cases Checked.text_eq_fits.1 ha
    exact hv

/-- The steps of a flow. -/
def stepsPart : Part (List Text) :=
  ⟨"processingSteps", [], Flow.checkSteps, Json.texts,
    List.map Text.joinPairs⟩

/-- The steps that are read: one text, or a list of texts. -/
theorem checkSteps_eq_fits {v : Json} {steps : List Text} : Flow.checkSteps v = .fits steps ↔
    (∃ t, v = .text t ∧ steps = [t]) ∨ v = .texts steps := by
  cases v with
  | text t => simp [Flow.checkSteps, Json.texts, eq_comm]
  | null | bool | int | float | list | object =>
    simp only [Flow.checkSteps, Checked.listOf_text_eq_fits, reduceCtorEq, false_and, exists_false,
      false_or]

theorem lawful_stepsPart : stepsPart.Lawful where
  scalar := by decide
  read_write _ := checkSteps_eq_fits.2 (.inr rfl)
  reread_write := Json.reread_texts
  made_default _ _ := .list [] (List.forall_mem_nil _)
  made_write P v steps hv h := by
    rcases checkSteps_eq_fits.1 h with ⟨t, rfl, rfl⟩ | rfl
    · exact .list _ (List.forall_mem_singleton.2 hv)
    · exact hv

/-! ## Records -/

section Records

variable (name : Text) (p : Part α) (q : Part β) (make : α → β → List (Text × Json) → γ)

/-- The check of a record of two parts and any other members. -/
def checkTwo : Json → Checked γ :=
  Checked.record name fun ms => Member.scalarKeys ms <|
    (fun a b => make a b (Member.others [⟨[p.key]⟩, ⟨[q.key]⟩] ms)) <$>
      (⟨[p.key]⟩ : Member).orElse p.default p.read ms <*>
      (⟨[q.key]⟩ : Member).orElse q.default q.read ms

/-- The written form of such a record. -/
def writeTwo (a : α) (b : β) (os : List (Text × Json)) : Json :=
  .object ([(p.key, p.write a), (q.key, q.write b)] ++ present os)

theorem Algorithms.check_eq : Algorithms.check = checkTwo "AlgorithmicLogic"
    (textPart "description") (textPart "rationale") Algorithms.mk := rfl

theorem Business.check_eq : Business.check = checkTwo "BusinessLogic" (textPart "rules")
    (textPart "workflows") Business.mk := rfl

theorem Flow.check_eq : Flow.check = checkTwo "FlowDescription" (textPart "initialization")
    stepsPart Flow.mk := rfl

variable {p q make} {P : Text → Prop} {v : Json} {a : α} {b : β} {c : γ}
  {os : List (Text × Json)}

/-- Members beside those under two keys: under other keys, which are of scalar values. -/
structure Beside (k l : Text) (os : List (Text × Json)) : Prop where
  first : ∀ m ∈ os, m.1 ≠ k
  second : ∀ m ∈ os, m.1 ≠ l
  scalar : ∀ m ∈ os, m.1.isScalar = true

theorem Beside.present {k l : Text} (hos : Beside k l os) : Beside k l (present os) where
  first m hm := hos.first m (mem_present.1 hm).1
  second m hm := hos.second m (mem_present.1 hm).1
  scalar m hm := hos.scalar m (mem_present.1 hm).1

/-- The keys of the two parts are apart from the others. -/
theorem Beside.nodup {k l : Text} {v w : Json} (hne : k ≠ l) (hos : Beside k l os)
    (hnodup : (os.map Prod.fst).Nodup) : (((k, v) :: (l, w) :: os).map Prod.fst).Nodup := by
  have hfirst : k ∉ os.map Prod.fst := fun hk => by
    obtain ⟨m, hm, he⟩ := List.mem_map.1 hk
    exact hos.first m hm he
  have hsecond : l ∉ os.map Prod.fst := fun hl => by
    obtain ⟨m, hm, he⟩ := List.mem_map.1 hl
    exact hos.second m hm he
  exact List.nodup_cons.2 ⟨by simp [hne, hfirst], List.nodup_cons.2 ⟨hsecond, hnodup⟩⟩

/-- The members beside the two parts are the others. -/
theorem Beside.others {k l : Text} {v w : Json} (hne : k ≠ l) (hos : Beside k l os) :
    Member.others [⟨[k]⟩, ⟨[l]⟩] ((k, v) :: (l, w) :: os) = os := by
  have hused : ([⟨[k]⟩, ⟨[l]⟩] : List Member).filterMap
      (fun m => (m.find? ((k, v) :: (l, w) :: os)).map Prod.fst) = [k, l] := by
    simp [Member.find?_cons_self, Member.find?_cons_of_ne hne]
  have hself : os.filter (fun m => !([k, l].contains m.1)) = os := by
    refine List.filter_eq_self.2 fun m hm => ?_
    simp [hos.first m hm, hos.second m hm]
  simp only [Member.others, hused]
  rw [List.filter_cons_of_neg (by simp), List.filter_cons_of_neg (by simp), hself]

/-- A part that is read is made of what the record is made of. -/
theorem Part.Lawful.made {ms : List (Text × Json)} (hp : p.Lawful) (hP : OfScalars P)
    (hms : ∀ m ∈ ms, m.2.Made P)
    (h : (⟨[p.key]⟩ : Member).orElse p.default p.read ms = .fits a) : (p.write a).Made P := by
  rcases Member.orElse_eq_fits.1 h with ⟨-, rfl⟩ | ⟨k, v, hfind, hread⟩
  · exact hp.made_default P hP
  · exact hp.made_write P v a (hms _ (Member.mem_of_find? hfind)) hread

/-- **What a record holds that fits**: its parts, and other members beside them. What is written of it
is made of what it was read from. -/
theorem exists_of_checkTwo (hp : p.Lawful) (hq : q.Lawful) (hne : p.key ≠ q.key) (hP : OfScalars P)
    (hv : v.Made P) (h : checkTwo name p q make v = .fits c) :
    ∃ a b os, c = make a b os ∧ (writeTwo p q a b os).Made P ∧ Beside p.key q.key os := by
  obtain ⟨ms, rfl, hread⟩ := Checked.record_eq_fits.1 h
  obtain ⟨hscalar, hparts⟩ := Member.scalarKeys_eq_fits.1 hread
  obtain ⟨_, b, hmap, hb, rfl⟩ := Checked.seq_eq_fits.1 hparts
  obtain ⟨a, ha, rfl⟩ := Checked.map_eq_fits.1 hmap
  cases hv with
  | object _ hnodup hkeys hms =>
    let os := Member.others [⟨[p.key]⟩, ⟨[q.key]⟩] ms
    have hsub : os.Sublist ms := Member.others_sublist _ ms
    have hbeside : Beside p.key q.key os :=
      ⟨fun m hm => Member.ne_of_mem_others List.mem_cons_self hm,
        fun m hm => Member.ne_of_mem_others (List.mem_cons_of_mem _ List.mem_cons_self) hm,
        fun m hm => hscalar m (hsub.subset hm)⟩
    have hpresent : ∀ m ∈ present os, m ∈ ms := fun m hm => hsub.subset (mem_present.1 hm).1
    refine ⟨a, b, os, rfl, .object _ (hbeside.present.nodup hne ?_) ?_ ?_, hbeside⟩
    · exact ((List.filter_sublist.trans hsub).map Prod.fst).nodup hnodup
    · exact List.forall_mem_cons.2 ⟨hP _ hp.scalar, List.forall_mem_cons.2 ⟨hP _ hq.scalar,
        fun m hm => hkeys m (hpresent m hm)⟩⟩
    · exact List.forall_mem_cons.2 ⟨hp.made hP hms ha, List.forall_mem_cons.2 ⟨hq.made hP hms hb,
        fun m hm => hms m (hpresent m hm)⟩⟩

/-- **What is written of a record fits**, without the members that are null. -/
theorem checkTwo_writeTwo (hp : p.Lawful) (hq : q.Lawful) (hne : p.key ≠ q.key)
    (hos : Beside p.key q.key os) (a : α) (b : β) :
    checkTwo name p q make (writeTwo p q a b os) = .fits (make a b (present os)) := by
  let ms := (p.key, p.write a) :: (q.key, q.write b) :: present os
  have hscalar : ∀ m ∈ ms, m.1.isScalar = true :=
    List.forall_mem_cons.2 ⟨hp.scalar, List.forall_mem_cons.2 ⟨hq.scalar, hos.present.scalar⟩⟩
  have hfirst : (⟨[p.key]⟩ : Member).find? ms = some (p.key, p.write a) :=
    Member.find?_cons_self ..
  have hsecond : (⟨[q.key]⟩ : Member).find? ms = some (q.key, q.write b) :=
    (Member.find?_cons_of_ne hne).trans (Member.find?_cons_self ..)
  have ha : (⟨[p.key]⟩ : Member).orElse p.default p.read ms = .fits a :=
    Member.orElse_eq_fits.2 (.inr ⟨_, _, hfirst, hp.read_write a⟩)
  have hb : (⟨[q.key]⟩ : Member).orElse q.default q.read ms = .fits b :=
    Member.orElse_eq_fits.2 (.inr ⟨_, _, hsecond, hq.read_write b⟩)
  refine Checked.record_eq_fits.2 ⟨ms, rfl, Member.scalarKeys_eq_fits.2 ⟨hscalar, ?_⟩⟩
  exact Checked.seq_eq_fits.2
    ⟨_, b, Checked.map_eq_fits.2 ⟨a, ha, rfl⟩, hb, by rw [hos.present.others hne]⟩

/-! ## Records that are read back -/

theorem rereadMember_of_isScalar {m : Text × Json} (h : m.1.isScalar = true) :
    (Json.rereadMember m).1 = m.1 :=
  Text.joinPairs_of_hasNoPair (Text.hasNoPair_of_isScalar h)

/-- The keys of the other members stay. -/
theorem map_fst_storedOthers {k l : Text} (hos : Beside k l os) :
    (storedOthers os).map Prod.fst = (present os).map Prod.fst := by
  rw [storedOthers, List.map_map]
  exact List.map_congr_left fun m hm =>
    rereadMember_of_isScalar (hos.scalar m (mem_present.1 hm).1)

theorem present_storedOthers : present (storedOthers os) = storedOthers os :=
  present_of_ne_null fun _ => ne_null_of_mem_storedOthers

theorem Beside.storedOthers {k l : Text} (hos : Beside k l os) : Beside k l (storedOthers os) := by
  have hkey : ∀ m ∈ Summary.storedOthers os, ∃ o ∈ os, o.1 = m.1 := by
    intro m hm
    have hmem := List.mem_map_of_mem (f := Prod.fst) hm
    rw [map_fst_storedOthers hos] at hmem
    obtain ⟨o, ho, he⟩ := List.mem_map.1 hmem
    exact ⟨o, (mem_present.1 ho).1, he⟩
  constructor <;> intro m hm <;> obtain ⟨o, ho, he⟩ := hkey m hm <;> rw [← he]
  · exact hos.first o ho
  · exact hos.second o ho
  · exact hos.scalar o ho

/-- **What is read back of a record** is written of the record with its texts joined. -/
theorem reread_writeTwo (hp : p.Lawful) (hq : q.Lawful) (hos : Beside p.key q.key os)
    (hmade : (writeTwo p q a b os).Made P) : (writeTwo p q a b os).reread =
      writeTwo p q (p.joined a) (q.joined b) (storedOthers os) := by
  have hmembers : ([(p.key, p.write a), (q.key, q.write b)] ++ present os).map Json.rereadMember =
      [(p.key, p.write (p.joined a)), (q.key, q.write (q.joined b))] ++ storedOthers os := by
    have hfirst : Json.rereadMember (p.key, p.write a) = (p.key, p.write (p.joined a)) :=
      Prod.ext (rereadMember_of_isScalar hp.scalar) (hp.reread_write a)
    have hsecond : Json.rereadMember (q.key, q.write b) = (q.key, q.write (q.joined b)) :=
      Prod.ext (rereadMember_of_isScalar hq.scalar) (hq.reread_write b)
    rw [List.map_append, List.map_cons, List.map_cons, hfirst, hsecond]
    rfl
  cases hmade with
  | object _ hnodup =>
    rw [writeTwo, Json.reread_object, hmembers, writeTwo, present_storedOthers,
      Json.mergeMembers_of_nodup]
    rw [List.map_append, map_fst_storedOthers hos]
    rwa [List.map_append] at hnodup

end Records

/-! ## What is restored -/

/-- The value is read from one that is made of texts with a property. -/
def IsRead (check : Json → Checked γ) (P : Text → Prop) (c : γ) : Prop :=
  ∃ v, v.Made P ∧ check v = .fits c

/-- What is read is written as an object that is made of the same texts. Read back, the object is the
written form of a value that it fits. -/
structure Restores (check : Json → Checked γ) (write : γ → Json) (stored : γ → γ) : Prop where
  isObject : ∀ c, ∃ ms, write c = .object ms
  made : ∀ {P c}, OfScalars P → IsRead check P c → (write c).Made P
  reread_write : ∀ {P c}, OfScalars P → IsRead check P c → (write c).reread = write (stored c)
  check_write : ∀ {P c}, OfScalars P → IsRead check P c → check (write (stored c)) = .fits (stored c)

/-- **A record of two parts is restored** part by part. -/
theorem restores_checkTwo {name : Text} {p : Part α} {q : Part β}
    {make : α → β → List (Text × Json) → γ} {write : γ → Json} {stored : γ → γ} (hp : p.Lawful)
    (hq : q.Lawful) (hne : p.key ≠ q.key)
    (hwrite : ∀ a b os, write (make a b os) = writeTwo p q a b os)
    (hstored : ∀ a b os, stored (make a b os) = make (p.joined a) (q.joined b) (storedOthers os))
    (hc : ∀ c, ∃ a b os, c = make a b os) :
    Restores (checkTwo name p q make) write stored where
  isObject c := by
    obtain ⟨a, b, os, rfl⟩ := hc c
    exact ⟨_, hwrite a b os⟩
  made hP h := by
    obtain ⟨v, hv, h⟩ := h
    obtain ⟨a, b, os, rfl, hmade, -⟩ := exists_of_checkTwo name hp hq hne hP hv h
    rwa [hwrite]
  reread_write hP h := by
    obtain ⟨v, hv, h⟩ := h
    obtain ⟨a, b, os, rfl, hmade, hos⟩ := exists_of_checkTwo name hp hq hne hP hv h
    rw [hwrite, hstored, hwrite, reread_writeTwo hp hq hos hmade]
  check_write hP h := by
    obtain ⟨v, hv, h⟩ := h
    obtain ⟨a, b, os, rfl, -, hos⟩ := exists_of_checkTwo name hp hq hne hP hv h
    rw [hstored, hwrite, checkTwo_writeTwo name hp hq hne hos.storedOthers, present_storedOthers]

def Algorithms.stored (a : Algorithms) : Algorithms :=
  ⟨a.description.joinPairs, a.rationale.joinPairs, storedOthers a.others⟩

def Business.stored (b : Business) : Business :=
  ⟨b.rules.joinPairs, b.workflows.joinPairs, storedOthers b.others⟩

def Flow.stored (f : Flow) : Flow :=
  ⟨f.initialization.joinPairs, f.steps.map Text.joinPairs, storedOthers f.others⟩

theorem Algorithms.restores_check : Restores check toJson stored := by
  rw [check_eq]
  exact restores_checkTwo (lawful_textPart (by decide)) (lawful_textPart (by decide)) (by decide)
    (fun _ _ _ => rfl) (fun _ _ _ => rfl) fun a => ⟨a.description, a.rationale, a.others, rfl⟩

theorem Business.restores_check : Restores check toJson stored := by
  rw [check_eq]
  exact restores_checkTwo (lawful_textPart (by decide)) (lawful_textPart (by decide)) (by decide)
    (fun _ _ _ => rfl) (fun _ _ _ => rfl) fun b => ⟨b.rules, b.workflows, b.others, rfl⟩

theorem Flow.restores_check : Restores check toJson stored := by
  rw [check_eq]
  exact restores_checkTwo (lawful_textPart (by decide)) lawful_stepsPart (by decide)
    (fun _ _ _ => rfl) (fun _ _ _ => rfl) fun f => ⟨f.initialization, f.steps, f.others, rfl⟩

end SourceAtlas.Summary
