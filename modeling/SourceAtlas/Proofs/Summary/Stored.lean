import SourceAtlas.Proofs.FirstObject
import SourceAtlas.Proofs.Summary.Records

/-!
# Summaries that are written and read again

The written form of a summary is the written form of the summary that is read from it, but for halves
of surrogate pairs side by side in its texts, which are read as one point.

* `given`: the members of a record that are given, of those that it may have;
* **`restores_check`**: a summary is restored;
* `made_of_firstObject`: what texts give;
* **`ofText_written`**: the written form of a summary that was read from a text, and what is read
  from it.
-/

namespace SourceAtlas.Summary

variable {γ : Type} {P : Text → Prop}

/-! ## Members that are given -/

/-- The members that are given, of those that there may be. -/
def given (fs : List (Text × Option Json)) : List (Text × Json) :=
  fs.filterMap fun f => f.2.map fun v => (f.1, v)

variable {fs : List (Text × Option Json)} {k l : Text} {o : Option Json}

theorem given_cons (f : Text × Option Json) :
    given (f :: fs) = (f.2.map fun v => (f.1, v)).toList ++ given fs := by
  obtain ⟨k, o⟩ := f
  cases o <;> simp [given]

theorem mem_given {m : Text × Json} : m ∈ given fs ↔ (m.1, some m.2) ∈ fs := by
  simp only [given, List.mem_filterMap, Option.map_eq_some_iff]
  constructor
  · rintro ⟨⟨k, o⟩, hf, v, rfl, rfl⟩
    exact hf
  · exact fun h => ⟨_, h, m.2, rfl, rfl⟩

theorem map_fst_given_sublist (fs : List (Text × Option Json)) :
    ((given fs).map Prod.fst).Sublist (fs.map Prod.fst) := by
  induction fs with
  | nil => exact .slnil
  | cons f fs ih =>
    rw [given_cons, List.map_append, List.map_cons]
    cases f.2 with
    | none => exact ih.cons _
    | some v => exact ih.cons_cons _

theorem member?_given_of_not_mem (h : k ∉ fs.map Prod.fst) : Json.member? k (given fs) = none :=
  Json.member?_eq_none_iff.2 fun hk => h ((map_fst_given_sublist fs).subset hk)

theorem member?_given (hn : (fs.map Prod.fst).Nodup) (h : (k, o) ∈ fs) :
    Json.member? k (given fs) = o := by
  induction fs with
  | nil => cases h
  | cons f fs ih =>
    rw [List.map_cons, List.nodup_cons] at hn
    rw [given_cons, Json.member?_append]
    rcases List.mem_cons.1 h with rfl | h
    · rw [member?_given_of_not_mem hn.1, Option.or_none]
      cases o <;> simp [Json.member?_cons]
    · have hne : f.1 ≠ k := fun he => hn.1 (he ▸ List.mem_map_of_mem (f := Prod.fst) h)
      have hnone : Json.member? k (f.2.map fun v => (f.1, v)).toList = none := by
        cases f.2 <;> simp [Json.member?_cons, hne]
      rw [hnone, Option.none_or, ih hn.2 h]

/-- A member that is given under the better of its two keys. -/
theorem find?_given (hn : (fs.map Prod.fst).Nodup) (hl : l ∉ fs.map Prod.fst) (hk : (k, o) ∈ fs) :
    (⟨[k, l]⟩ : Member).find? (given fs) = o.map fun v => (k, v) := by
  rw [Member.find?_two (member?_given_of_not_mem hl), member?_given hn hk]

/-- What is read back of members with keys of scalar values. -/
theorem reread_given (hn : (fs.map Prod.fst).Nodup) (hk : ∀ f ∈ fs, f.1.isScalar = true) :
    (Json.object (given fs)).reread = .object (given (fs.map fun f => (f.1, f.2.map Json.reread))) := by
  have hmap : (given fs).map Json.rereadMember =
      given (fs.map fun f => (f.1, f.2.map Json.reread)) := by
    clear hn
    induction fs with
    | nil => rfl
    | cons f fs ih =>
      obtain ⟨hf, hk⟩ := List.forall_mem_cons.1 hk
      rw [given_cons, List.map_append, ih hk, List.map_cons, given_cons]
      cases hv : f.2 with
      | none => rfl
      | some v =>
        have hmember : Json.rereadMember (f.1, v) = (f.1, v.reread) :=
          Prod.ext (rereadMember_of_isScalar (m := (f.1, v)) hf) rfl
        simp [hmember]
  rw [Json.reread_object, hmap, Json.mergeMembers_of_nodup]
  refine ((map_fst_given_sublist _).nodup ?_)
  rwa [List.map_map]

/-! ## Records that may be null -/

section OrNull

variable {check : Json → Checked γ} {write : γ → Json} {stored : γ → γ} {c : Option γ}
  {ms : List (Text × Json)} {m : Member}

theorem orNull_of_isObject {v : Json} (h : ∃ ns, v = .object ns) :
    orNull check v = (check v).map some := by
  obtain ⟨ns, rfl⟩ := h
  rfl

/-- A record that is found is read from a member. -/
theorem isRead_of_orNull (hms : ∀ p ∈ ms, p.2.Made P)
    (h : m.orElse none (orNull check) ms = .fits c) : ∀ a ∈ c, IsRead check P a := by
  intro a ha
  rcases Member.orElse_eq_fits.1 h with ⟨-, rfl⟩ | ⟨k, v, hfind, hread⟩
  · cases ha
  · have hv : v.Made P := hms _ (Member.mem_of_find? hfind)
    unfold orNull at hread
    split at hread
    · cases hread
      cases ha
    · obtain ⟨b, hb, rfl⟩ := Checked.map_eq_fits.1 hread
      cases ha
      exact ⟨v, hv, hb⟩

/-- A record is found that was written under the better of its keys, if it was written. -/
theorem Restores.orElse_given (hr : Restores check write stored) (hP : OfScalars P)
    (hc : ∀ a ∈ c, IsRead check P a) (hn : (fs.map Prod.fst).Nodup) (hl : l ∉ fs.map Prod.fst)
    (hk : (k, (c.map stored).map write) ∈ fs) :
    (⟨[k, l]⟩ : Member).orElse none (orNull check) (given fs) = .fits (c.map stored) := by
  have hfind := find?_given hn hl hk
  cases c with
  | none => exact Member.orElse_eq_fits.2 (.inl ⟨hfind, rfl⟩)
  | some a =>
    refine Member.orElse_eq_fits.2 (.inr ⟨_, _, hfind, ?_⟩)
    rw [orNull_of_isObject (hr.isObject _), hr.check_write hP (hc a rfl)]
    rfl

end OrNull

/-! ## Summaries -/

/-- A value that is given if it is not null. -/
def unlessNull (v : Json) : Option Json := if v == .null then none else some v

theorem unlessNull_of_ne {v : Json} (h : v ≠ .null) : unlessNull v = some v :=
  if_neg fun he => h (beq_null_iff.1 he)

theorem map_reread_unlessNull (v : Json) :
    (unlessNull v).map Json.reread = unlessNull v.reread := by
  by_cases h : v = .null
  · rw [h]
    rfl
  · rw [unlessNull_of_ne h, unlessNull_of_ne (reread_ne_null h), Option.map_some]

/-- The members that a summary may have. -/
def fields (s : Summary) : List (Text × Option Json) := [
  ("fileDescription", some (.text s.description)),
  ("tag", some (.text s.tag.name)),
  ("elementsDetail", unlessNull s.elements),
  ("algorithmicLogic", s.algorithms.map Algorithms.toJson),
  ("businessLogic", s.business.map Business.toJson),
  ("flowDescription", s.flow.map Flow.toJson)]

/-- Their keys. -/
def keys : List Text := ["fileDescription", "tag", "elementsDetail", "algorithmicLogic",
  "businessLogic", "flowDescription"]

theorem nodup_keys : keys.Nodup := by decide

theorem nodup_fields (s : Summary) : (s.fields.map Prod.fst).Nodup := nodup_keys

theorem isScalar_of_mem_keys : ∀ k ∈ keys, k.isScalar = true := by decide

theorem toJson_eq (s : Summary) : s.toJson = .object (given s.fields) := by
  obtain ⟨d, tag, e, a, b, f⟩ := s
  rw [toJson, fields, unlessNull]
  by_cases he : (e == .null) = true
  · cases a <;> cases b <;> cases f <;> simp [given, he]
  · cases a <;> cases b <;> cases f <;> simp [given, he]

/-- The summary that is read from the written form. -/
def stored (s : Summary) : Summary where
  description := s.description
  tag := s.tag
  elements := s.elements.reread
  algorithms := s.algorithms.map Algorithms.stored
  business := s.business.map Business.stored
  flow := s.flow.map Flow.stored

/-- What a summary holds that is read from a value made of texts with a property. -/
structure Regular (P : Text → Prop) (s : Summary) : Prop where
  scalar : s.description.isScalar = true
  nonempty : s.description ≠ []
  elements : s.elements.Made P
  algorithms : ∀ a ∈ s.algorithms, IsRead Algorithms.check P a
  business : ∀ b ∈ s.business, IsRead Business.check P b
  flow : ∀ f ∈ s.flow, IsRead Flow.check P f

variable {s : Summary} {v : Json}

/-- **What a summary holds that fits.** -/
theorem Regular.of_check (hv : v.Made P) (h : check v = .fits s) : Regular P s := by
  obtain ⟨ms, rfl, hread⟩ := Checked.record_eq_fits.1 h
  simp only [Checked.seq_eq_fits, Checked.map_eq_fits] at hread
  obtain ⟨_, flow, ⟨_, business, ⟨_, algorithms, ⟨_, elements, ⟨_, tag, ⟨description, hdescription,
    rfl⟩, -, rfl⟩, helements, rfl⟩, halgorithms, rfl⟩, hbusiness, rfl⟩, hflow, rfl⟩ := hread
  obtain ⟨_, _, -, hproper⟩ := Member.required_eq_fits.1 hdescription
  obtain ⟨-, hscalar, hne⟩ := Checked.properText_eq_fits.1 hproper
  cases hv with
  | object _ _ _ hms =>
    have hmade : elements.Made P := by
      rcases Member.orElse_eq_fits.1 helements with ⟨-, rfl⟩ | ⟨_, _, hfind, hread⟩
      · exact .null
      · cases hread
        exact hms _ (Member.mem_of_find? hfind)
    exact ⟨hscalar, hne, hmade, isRead_of_orNull hms halgorithms, isRead_of_orNull hms hbusiness,
      isRead_of_orNull hms hflow⟩

theorem Regular.of_isRead (h : IsRead check P s) : Regular P s := by
  obtain ⟨v, hv, hs⟩ := h
  exact .of_check hv hs

theorem isScalar_name (tag : Tag) : tag.name.isScalar = true := by
  cases tag <;> decide

/-- The written form of a summary is made of what it was read from. -/
theorem Regular.made (hP : OfScalars P) (h : Regular P s) : s.toJson.Made P := by
  have hfields : ∀ f ∈ s.fields, ∀ v ∈ f.2, v.Made P := by
    rw [fields]
    simp only [List.forall_mem_cons, Option.mem_some_iff, forall_eq']
    refine ⟨.text _ (hP _ h.scalar), .text _ (hP _ (isScalar_name s.tag)), ?_, ?_, ?_, ?_,
      List.forall_mem_nil _⟩
    · intro v hv
      by_cases he : s.elements = .null
      · rw [he] at hv
        cases hv
      · rw [unlessNull_of_ne he] at hv
        obtain rfl := Option.some.inj hv
        exact h.elements
    · intro v hv
      obtain ⟨a, ha, rfl⟩ := Option.map_eq_some_iff.1 hv
      exact Algorithms.restores_check.made hP (h.algorithms a ha)
    · intro v hv
      obtain ⟨b, hb, rfl⟩ := Option.map_eq_some_iff.1 hv
      exact Business.restores_check.made hP (h.business b hb)
    · intro v hv
      obtain ⟨f, hf, rfl⟩ := Option.map_eq_some_iff.1 hv
      exact Flow.restores_check.made hP (h.flow f hf)
  have hsub := map_fst_given_sublist s.fields
  rw [toJson_eq]
  refine .object _ (hsub.nodup s.nodup_fields) (fun m hm => hP _ ?_) fun m hm => ?_
  · exact isScalar_of_mem_keys _ (hsub.subset (List.mem_map_of_mem hm))
  · exact hfields _ (mem_given.1 hm) _ rfl

theorem map_reread_toJson {check : Json → Checked γ} {write : γ → Json} {stored : γ → γ}
    {c : Option γ} (hr : Restores check write stored) (hP : OfScalars P)
    (hc : ∀ a ∈ c, IsRead check P a) :
    (c.map write).map Json.reread = (c.map stored).map write := by
  cases c with
  | none => rfl
  | some a => exact congrArg some (hr.reread_write hP (hc a rfl))

/-- **What is read back of a summary** is written of the summary that is read from it. -/
theorem Regular.toJson_reread (hP : OfScalars P) (h : Regular P s) :
    s.toJson.reread = s.stored.toJson := by
  have hdescription : (Json.text s.description).reread = .text s.description := by
    rw [Json.reread_text, Text.joinPairs_of_hasNoPair (Text.hasNoPair_of_isScalar h.scalar)]
  have htag : (Json.text s.tag.name).reread = .text s.tag.name := by
    rw [Json.reread_text, Text.joinPairs_of_hasNoPair
      (Text.hasNoPair_of_isScalar (isScalar_name s.tag))]
  rw [toJson_eq, reread_given s.nodup_fields, toJson_eq]
  · refine congrArg (fun fs => Json.object (given fs)) ?_
    simp only [fields, List.map_cons, List.map_nil, Option.map_some, hdescription, htag,
      map_reread_unlessNull, map_reread_toJson Algorithms.restores_check hP h.algorithms,
      map_reread_toJson Business.restores_check hP h.business,
      map_reread_toJson Flow.restores_check hP h.flow]
    rfl
  · exact fun f hf => isScalar_of_mem_keys _ (List.mem_map_of_mem (f := Prod.fst) hf)

theorem mem_choices (tag : Tag) :
    Json.member? tag.name (Tag.all.map fun t => (t.name, t)) = some tag := by
  cases tag <;> decide

/-- **The summary fits what is written of it.** -/
theorem Regular.check_stored (hP : OfScalars P) (h : Regular P s) :
    check s.stored.toJson = .fits s.stored := by
  have hn := s.stored.nodup_fields
  have hunknown : ∀ l ∉ keys, l ∉ s.stored.fields.map Prod.fst := fun _ hl => hl
  have hdescription : descriptionMember.required Checked.properText (given s.stored.fields) =
      .fits s.description := by
    have hfind := find?_given (k := "fileDescription") hn (hunknown "file_description" (by decide))
      (.head _)
    exact Member.required_eq_fits.2
      ⟨_, _, hfind, Checked.properText_eq_fits.2 ⟨rfl, h.scalar, h.nonempty⟩⟩
  have htag : tagMember.required (Checked.choice (Tag.all.map fun t => (t.name, t)))
      (given s.stored.fields) = .fits s.tag := by
    have hfind := Member.find?_one "tag" (given s.stored.fields)
    rw [member?_given hn (.tail _ (.head _))] at hfind
    exact Member.required_eq_fits.2
      ⟨_, _, hfind, Checked.choice_eq_fits.2 ⟨_, rfl, mem_choices s.tag⟩⟩
  have helements : elementsMember.orElse .null .fits (given s.stored.fields) =
      .fits s.elements.reread := by
    have hfind := find?_given (k := "elementsDetail") hn (hunknown "elements_detail" (by decide))
      (.tail _ (.tail _ (.head _)))
    by_cases he : s.stored.elements = .null
    · rw [he] at hfind
      exact Member.orElse_eq_fits.2 (.inl ⟨hfind, he⟩)
    · rw [unlessNull_of_ne he] at hfind
      exact Member.orElse_eq_fits.2 (.inr ⟨_, _, hfind, rfl⟩)
  have halgorithms : algorithmsMember.orElse none (orNull Algorithms.check)
      (given s.stored.fields) = .fits s.stored.algorithms :=
    Algorithms.restores_check.orElse_given hP h.algorithms hn (hunknown _ (by decide))
      (by simp [fields, stored])
  have hbusiness : businessMember.orElse none (orNull Business.check)
      (given s.stored.fields) = .fits s.stored.business :=
    Business.restores_check.orElse_given hP h.business hn (hunknown _ (by decide))
      (by simp [fields, stored])
  have hflow : flowMember.orElse none (orNull Flow.check)
      (given s.stored.fields) = .fits s.stored.flow :=
    Flow.restores_check.orElse_given hP h.flow hn (hunknown _ (by decide))
      (by simp [fields, stored])
  rw [toJson_eq]
  refine Checked.record_eq_fits.2 ⟨_, rfl, ?_⟩
  rw [hdescription, htag, helements, halgorithms, hbusiness, hflow]
  rfl

/-- **A summary is restored from its written form.** -/
theorem restores_check : Restores check toJson stored where
  isObject s := ⟨_, toJson_eq s⟩
  made hP h := (Regular.of_isRead h).made hP
  reread_write hP h := (Regular.of_isRead h).toJson_reread hP
  check_write hP h := (Regular.of_isRead h).check_stored hP

/-! ## Texts -/

variable {t whole : Text}

/-- What is found in a text is the object of a part of it. -/
theorem exists_objectText_of_objectFrom {first : Option Json.Fault}
    (h : objectFrom whole first t = .ok v) : ∃ a x r, t = a ++ (x ++ r) ∧ Json.ObjectText x v := by
  induction t generalizing first with
  | nil => cases first <;> cases h
  | cons c t ih =>
    have hcons : (∃ a x r, t = a ++ (x ++ r) ∧ Json.ObjectText x v) →
        ∃ a x r, c :: t = a ++ (x ++ r) ∧ Json.ObjectText x v := by
      rintro ⟨a, x, r, rfl, hx⟩
      exact ⟨c :: a, x, r, rfl, hx⟩
    rw [objectFrom] at h
    split at h
    · rename_i hc
      split at h
      · rename_i w rest hread
        cases h
        rw [hc] at hread ⊢
        obtain ⟨x, hx, ho⟩ := Json.exists_objectText hread
        exact ⟨[], x, rest, hx, ho⟩
      · cases h
      · exact hcons (ih h)
    · exact hcons (ih h)

/-- **What texts give.** Texts of scalar values give values without pairs of halves. -/
theorem made_of_firstObject (h : firstObject t = .ok v) :
    v.Made (fun _ => True) ∧ (t.isScalar = true → v.Made Text.HasNoPair) := by
  obtain ⟨a, x, r, ht, hx, -⟩ := exists_objectText_of_objectFrom h
  refine ⟨hx.made.1, fun hscalar => hx.made.2 ?_⟩
  rw [ht, Text.isScalar, List.all_append, List.all_append, Bool.and_eq_true, Bool.and_eq_true]
    at hscalar
  exact hscalar.2.1

theorem ofText_eq_ok : ofText t = .ok s ↔ ∃ v, firstObject t = .ok v ∧ check v = .fits s := by
  rw [ofText]
  cases firstObject t with
  | error => simp [bind, Except.bind]
  | ok v => simp [bind, Except.bind]

/-- What is read from the written form of a summary that was read. -/
theorem ofText_compact (h : IsRead check (fun _ => True) s) :
    ofText s.toJson.compact = .ok s.stored := by
  have hP : OfScalars fun _ => True := fun _ _ => trivial
  obtain ⟨ms, hms⟩ := restores_check.isObject s
  have hw := (restores_check.made hP h).isWritable
  have hreread := restores_check.reread_write hP h
  rw [hms] at hw hreread
  have hspace : ∀ i ∈ (none : Option Text), Json.Spaces i := fun _ hi => nomatch hi
  have hfound := firstObject_written (p := []) hspace List.not_mem_nil hw []
  rw [List.nil_append, List.append_nil, Json.dumps_none, hreread] at hfound
  rw [hms]
  exact ofText_eq_ok.2 ⟨_, hfound, restores_check.check_write hP h⟩

/-- **The written form of a summary that was read.** It has a description and a tag, and no unknown
member. What is read from it is written as it is read back, and as it is unless halves of a surrogate
pair are side by side in one of its texts; there are none if the summary was read from scalar values. -/
theorem ofText_written {t : Text} {s : Summary} (h : ofText t = .ok s) :
    ∃ ms, s.toJson = .object ms ∧
      (ms.map Prod.fst).Sublist ["fileDescription", "tag", "elementsDetail", "algorithmicLogic",
        "businessLogic", "flowDescription"] ∧
      (∃ d, Json.member? "fileDescription" ms = some (.text d) ∧ d ≠ []) ∧
      (∃ tag ∈ (["ui", "dataAccess", "utility", "feature"] : List Text),
        Json.member? "tag" ms = some (.text tag)) ∧
      s.toJson.isWritable = true ∧
      (∃ n, ofText s.toJson.compact = .ok n ∧ n.toJson = s.toJson.reread ∧
        (n.toJson = s.toJson ↔ s.toJson.Settled)) ∧
      (t.isScalar = true → s.toJson.Settled) := by
  obtain ⟨v, hfound, hs⟩ := ofText_eq_ok.1 h
  obtain ⟨hmade, hmadeScalar⟩ := made_of_firstObject hfound
  have hP : OfScalars fun _ => True := fun _ _ => trivial
  have hread : IsRead check (fun _ => True) s := ⟨v, hmade, hs⟩
  have hregular := Regular.of_isRead hread
  have hn := s.nodup_fields
  have hstored : s.stored.toJson = s.toJson.reread := (restores_check.reread_write hP hread).symm
  refine ⟨given s.fields, toJson_eq s, map_fst_given_sublist s.fields,
    ⟨s.description, member?_given hn (.head _), hregular.nonempty⟩,
    ⟨s.tag.name, ?_, member?_given hn (.tail _ (.head _))⟩,
    (hregular.made hP).isWritable, ⟨s.stored, ofText_compact hread, hstored, ?_⟩, fun ht => ?_⟩
  · cases s.tag <;> decide
  · rw [hstored]
    exact ⟨fun he => he ▸ Json.settled_reread _, Json.reread_of_settled⟩
  · have hP' : OfScalars Text.HasNoPair := fun _ => Text.hasNoPair_of_isScalar
    exact ((Regular.of_check (hmadeScalar ht) hs).made hP').settled

/-- A text with the other keys, with unknown members, and with one step in place of a list. -/
def namedText : Text :=
  "\x7b\"file_description\": \"d\", \"tag\": \"ui\", \"more\": 1, " ++
    "\"elements_detail\": [null, \"e\"], \"algorithmic_logic\": \x7b\"why\": null, \"how\": 2\x7d, " ++
    "\"flowDescription\": \x7b\"processingSteps\": \"one\"\x7d\x7d"

theorem ofText_written_named : ∃ s n, ofText namedText = .ok s ∧
    ofText s.toJson.compact = .ok n ∧ n.toJson = s.toJson := by
  have hfound : firstObject namedText = .ok (.object [("file_description", .text "d"),
      ("tag", .text "ui"), ("more", .int 1), ("elements_detail", .list [.null, .text "e"]),
      ("algorithmic_logic", .object [("why", .null), ("how", .int 2)]),
      ("flowDescription", .object [("processingSteps", .text "one")])]) := by cbv
  have h : ofText namedText = .ok ⟨"d", .ui, .list [.null, .text "e"],
      some ⟨[], [], [("why", .null), ("how", .int 2)]⟩, none, some ⟨[], ["one"], []⟩⟩ :=
    ofText_eq_ok.2 ⟨_, hfound, rfl⟩
  obtain ⟨-, -, -, -, -, -, ⟨n, hn, -, hsame⟩, hscalar⟩ := ofText_written h
  exact ⟨_, n, h, hn, hsame.2 (hscalar (by decide))⟩

/-- Two elements, one of them under the halves of the pair that the other one is under. -/
def halved : Summary where
  description := "x"
  tag := .ui
  elements := .object [([Point.ofNat 0xD83D, Point.ofNat 0xDE00], .int 1),
    ([Point.ofNat 0x1F600], .int 2)]
  algorithms := none
  business := none
  flow := none

/-- A text of it, in which the second half is a point that is not escaped. -/
def halvedText : Text :=
  Text.ofString ("\x7b\"fileDescription\": \"x\", \"tag\": \"ui\", " ++
    "\"elementsDetail\": \x7b\"\\ud83d") ++ Point.ofNat 0xDE00 ::
    Text.ofString "\": 1, \"\\ud83d\\ude00\": 2\x7d\x7d"

/-- A summary that is not written as the one which is read from its written form. -/
theorem ofText_halvedText : ∃ s n, ofText halvedText = .ok s ∧
    ofText s.toJson.compact = .ok n ∧ n.toJson ≠ s.toJson := by
  have hfound : firstObject halvedText = .ok (.object [("fileDescription", .text "x"),
      ("tag", .text "ui"), ("elementsDetail", halved.elements)]) := by cbv
  have hread : IsRead check (fun _ => True) halved := ⟨_, (made_of_firstObject hfound).1, rfl⟩
  refine ⟨halved, halved.stored, ofText_eq_ok.2 ⟨_, hfound, rfl⟩, ofText_compact hread, ?_⟩
  intro he
  have hlength : halved.stored.toJson.compact.length ≠ halved.toJson.compact.length := by
    decide +kernel
  exact hlength (congrArg (fun v => v.compact.length) he)

end SourceAtlas.Summary
