import SourceAtlas.Index
import SourceAtlas.Proofs.Indexing.Records

/-!
# The shapes of what is read

Which JSON values have a reading as an outline, a record or an index. A member may be missing, and
texts may be anything; what has to be there is an object wherever members are asked for, and
something with items wherever items are.

* `Json.ItemsAre`, `Json.Fits`, `Json.UnlessFalsy`: shapes made of shapes;
* `Json.HasReading`, `Json.hasReading_seq`: a value has a reading, and has one part by part;
* `Json.hasReading_listMember`, `SourceRecord.hasReading_listOrEmpty`: members that are lists;
* `DecoratorOutline.Shape`, …, `SourceRecord.Shape`, `Index.Shape`, and `hasReading_iff` of each;
* **`Index.hasReading_iff`**: the values that are indexes.
-/

namespace SourceAtlas

namespace Json

variable {α β : Type} {P Q : Json → Prop} {v : Json} {key : Text}
  {shapes : List (Text × (Json → Prop))}

/-! ## Shapes made of shapes -/

/-- The items of a list, the points of a text, or the keys of an object are of a shape. -/
inductive ItemsAre (P : Json → Prop) : Json → Prop where
  | list {items : List Json} (h : ∀ i ∈ items, P i) : ItemsAre P (.list items)
  | text {t : Text} (h : ∀ c ∈ t, P (.text [c])) : ItemsAre P (.text t)
  | object {ms : List (Text × Json)} (h : ∀ m ∈ ms, P (.text m.1)) : ItemsAre P (.object ms)

/-- An object of which those members that are there are of their shapes. -/
def Fits (shapes : List (Text × (Json → Prop))) (v : Json) : Prop :=
  ∃ ms, v = .object ms ∧ ∀ s ∈ shapes, ∀ w, member? s.1 ms = some w → s.2 w

/-- The value is null, false, zero or empty, or of a shape. -/
def UnlessFalsy (P : Json → Prop) (v : Json) : Prop := v.isTruthy = true → P v

theorem itemsAre_iff : ItemsAre P v ↔ ∃ items, itemsOf v = .ok items ∧ ∀ i ∈ items, P i := by
  constructor
  · rintro (h | h | h)
    · exact ⟨_, rfl, h⟩
    · exact ⟨_, rfl, List.forall_mem_map.2 h⟩
    · exact ⟨_, rfl, List.forall_mem_map.2 h⟩
  · rintro ⟨items, hitems, h⟩
    cases v with
    | list =>
      cases hitems
      exact .list h
    | text =>
      cases hitems
      exact .text (List.forall_mem_map.1 h)
    | object =>
      cases hitems
      exact .object (List.forall_mem_map.1 h)
    | null | bool | int | float => cases hitems

theorem fits_nil : Fits [] v ↔ ∃ ms, v = .object ms := by
  simp [Fits]

theorem fits_one : Fits [(key, P)] v ↔
    ∃ ms, v = .object ms ∧ ∀ w, member? key ms = some w → P w := by
  simp [Fits]

theorem fits_append {others : List (Text × (Json → Prop))} :
    Fits (shapes ++ others) v ↔ Fits shapes v ∧ Fits others v := by
  simp only [Fits, List.forall_mem_append]
  constructor
  · rintro ⟨ms, rfl, hs, ho⟩
    exact ⟨⟨ms, rfl, hs⟩, ms, rfl, ho⟩
  · rintro ⟨⟨ms, rfl, hs⟩, _, ⟨⟩, ho⟩
    exact ⟨ms, rfl, hs, ho⟩

theorem fits_one_congr (h : ∀ w, P w ↔ Q w) : Fits [(key, P)] v ↔ Fits [(key, Q)] v := by
  rw [funext fun w => propext (h w)]

/-! ## Readings -/

/-- A value has a reading. -/
def HasReading (read : Json → Except ShapeFault α) (v : Json) : Prop := ∃ a, read v = .ok a

/-- What is read in two parts fits the shapes of both. -/
theorem hasReading_bind {first : Except ShapeFault α} {next : α → Except ShapeFault β}
    {others : List (Text × (Json → Prop))} (hfirst : (∃ a, first = .ok a) ↔ Fits shapes v)
    (hnext : ∀ a, (∃ b, next a = .ok b) ↔ Fits others v) :
    (∃ b, (first >>= next) = .ok b) ↔ Fits (shapes ++ others) v := by
  rw [fits_append, ← hfirst]
  simp only [Except.bind_eq_ok]
  constructor
  · rintro ⟨b, a, ha, hb⟩
    exact ⟨⟨a, ha⟩, (hnext a).1 ⟨b, hb⟩⟩
  · rintro ⟨⟨a, ha⟩, ho⟩
    obtain ⟨b, hb⟩ := (hnext a).2 ho
    exact ⟨b, a, ha, hb⟩

theorem hasReading_map {x : Except ShapeFault α} {f : α → β} :
    (∃ b, (x >>= fun a => pure (f a)) = .ok b) ↔ ∃ a, x = .ok a := by
  cases x <;> simp [bind, Except.bind, pure, Except.pure]

theorem hasReading_mapM {read : Json → Except ShapeFault α} (h : ∀ w, HasReading read w ↔ P w)
    (items : List Json) : (∃ as, items.mapM read = .ok as) ↔ ∀ i ∈ items, P i := by
  induction items with
  | nil => exact ⟨fun _ _ h => absurd h List.not_mem_nil, fun _ => ⟨[], rfl⟩⟩
  | cons i items ih =>
    rw [List.forall_mem_cons, ← ih, ← h]
    simp only [List.mapM_cons, Except.bind_eq_ok, pure, Except.pure, Except.ok.injEq, HasReading]
    constructor
    · rintro ⟨_, a, ha, as, has, rfl⟩
      exact ⟨⟨a, ha⟩, as, has⟩
    · rintro ⟨⟨a, ha⟩, as, has⟩
      exact ⟨_, a, ha, as, has, rfl⟩

/-- What is read of the items of a value is there if each item is of a shape. -/
theorem hasReading_itemsOf {next : List Json → Except ShapeFault α}
    (h : ∀ items, (∃ a, next items = .ok a) ↔ ∀ i ∈ items, P i) :
    (∃ a, (itemsOf v >>= next) = .ok a) ↔ ItemsAre P v := by
  simp only [Except.bind_eq_ok, itemsAre_iff]
  constructor
  · rintro ⟨a, items, hitems, ha⟩
    exact ⟨items, hitems, (h items).1 ⟨a, ha⟩⟩
  · rintro ⟨items, hitems, hall⟩
    obtain ⟨a, ha⟩ := (h items).2 hall
    exact ⟨a, items, hitems, ha⟩

/-! ## Members -/

/-- A member that is read further, if the default can be. -/
theorem hasReading_memberOr {default : Json} (next : Json → Except ShapeFault α)
    (hd : HasReading next default) :
    (∃ a, (memberOr default key v >>= next) = .ok a) ↔ Fits [(key, HasReading next)] v := by
  rw [fits_one]
  cases v with
  | object ms =>
    simp only [memberOr, Except.bind_eq_ok, Except.ok.injEq, exists_eq_left', Json.object.injEq]
    change HasReading next _ ↔ _
    cases member? key ms with
    | none => simpa using hd
    | some w => simp
  | null | bool | int | float | text | list => simp [memberOr, bind, Except.bind]

theorem hasReading_textMember : HasReading (textMember key) v ↔ Fits [] v := by
  rw [fits_nil]
  cases v <;> simp [HasReading, textMember, memberOr, Functor.map, Except.map]

theorem hasReading_listMember {read : Json → Except ShapeFault α}
    (h : ∀ w, HasReading read w ↔ P w) :
    HasReading (listMember key read) v ↔ Fits [(key, ItemsAre P)] v := by
  refine (hasReading_memberOr (fun v => itemsOf v >>= fun items => items.mapM read)
    ⟨[], rfl⟩).trans (fits_one_congr fun w => ?_)
  exact hasReading_itemsOf (hasReading_mapM h)

/-- The value, or a default that can be read. -/
theorem hasReading_unlessFalsy {default w : Json} {next : Json → Except ShapeFault α}
    (hd : HasReading next default) :
    HasReading next (if w.isTruthy then w else default) ↔ UnlessFalsy (HasReading next) w := by
  rw [UnlessFalsy]
  split <;> simp_all

theorem hasReading_truthyOr {default : Json} (next : Json → Except ShapeFault α)
    (hd : HasReading next default) :
    (∃ a, (truthyOr default key v >>= next) = .ok a) ↔
      Fits [(key, UnlessFalsy (HasReading next))] v := by
  rw [truthyOr, bind_assoc]
  refine (hasReading_memberOr _ ?_).trans (fits_one_congr fun w => ?_)
  · change HasReading next (if default.isTruthy then default else default)
    rwa [ite_self]
  · exact hasReading_unlessFalsy hd

theorem exists_truthyOr (default : Json) (key : Text) :
    (∃ w, truthyOr default key v = .ok w) ↔ Fits [] v := by
  rw [fits_nil]
  cases v <;> simp [truthyOr, memberOr, bind, Except.bind, pure, Except.pure]

/-- Any value. -/
def Anything (_ : Json) : Prop := True

theorem hasReading_shown {w : Json} :
    HasReading (fun i => .ok i.shown) w ↔ Anything w :=
  iff_of_true ⟨_, rfl⟩ trivial

end Json

open Json (Fits ItemsAre UnlessFalsy HasReading Anything hasReading_bind hasReading_map
  hasReading_textMember hasReading_listMember)

variable {v : Json}

/-! ## Outlines -/

theorem Parameter.hasReading_iff : HasReading ofJson v ↔ Fits [] v :=
  hasReading_bind hasReading_textMember fun _ => hasReading_map.trans hasReading_textMember

theorem PropertyOutline.hasReading_iff : HasReading ofJson v ↔ Fits [] v :=
  hasReading_bind hasReading_textMember fun _ => hasReading_map.trans hasReading_textMember

def DecoratorOutline.Shape : Json → Prop := Fits [("arguments", ItemsAre Anything)]

theorem DecoratorOutline.hasReading_iff : HasReading ofJson v ↔ Shape v :=
  hasReading_bind hasReading_textMember fun _ =>
    hasReading_map.trans (hasReading_listMember fun _ => Json.hasReading_shown)

def FunctionOutline.Shape : Json → Prop := Fits [("parameters", ItemsAre (Fits []))]

theorem FunctionOutline.hasReading_iff : HasReading ofJson v ↔ Shape v :=
  hasReading_bind hasReading_textMember fun _ =>
    hasReading_bind (hasReading_listMember fun _ => Parameter.hasReading_iff) fun _ =>
      hasReading_map.trans hasReading_textMember

def MethodOutline.Shape : Json → Prop :=
  Fits [("parameters", ItemsAre (Fits [])), ("decorators", ItemsAre DecoratorOutline.Shape)]

theorem MethodOutline.hasReading_iff : HasReading ofJson v ↔ Shape v :=
  hasReading_bind hasReading_textMember fun _ =>
    hasReading_bind (hasReading_listMember fun _ => Parameter.hasReading_iff) fun _ =>
      hasReading_bind hasReading_textMember fun _ =>
        hasReading_map.trans (hasReading_listMember fun _ => DecoratorOutline.hasReading_iff)

def ClassOutline.Shape : Json → Prop :=
  Fits [("decorators", ItemsAre DecoratorOutline.Shape), ("methods", ItemsAre MethodOutline.Shape)]

theorem ClassOutline.hasReading_iff : HasReading ofJson v ↔ Shape v :=
  hasReading_bind hasReading_textMember fun _ =>
    hasReading_bind (hasReading_listMember fun _ => DecoratorOutline.hasReading_iff) fun _ =>
      hasReading_map.trans (hasReading_listMember fun _ => MethodOutline.hasReading_iff)

def InterfaceOutline.Shape : Json → Prop := Fits [("properties", ItemsAre (Fits []))]

theorem InterfaceOutline.hasReading_iff : HasReading ofJson v ↔ Shape v :=
  hasReading_bind hasReading_textMember fun _ =>
    hasReading_map.trans (hasReading_listMember fun _ => PropertyOutline.hasReading_iff)

/-! ## Records -/

namespace SourceRecord

theorem hasReading_listOrEmpty {α : Type} {key : Text} {read : Json → Except ShapeFault α}
    {P : Json → Prop} (h : ∀ w, HasReading read w ↔ P w) :
    HasReading (listOrEmpty key read) v ↔ Fits [(key, UnlessFalsy (ItemsAre P))] v := by
  refine (Json.hasReading_truthyOr (fun v => Json.itemsOf v >>= fun items => items.mapM read)
    ⟨[], rfl⟩).trans (Json.fits_one_congr fun w => forall_congr' fun _ => ?_)
  exact Json.hasReading_itemsOf (Json.hasReading_mapM h)

theorem hasReading_textOrEmpty {key : Text} : HasReading (textOrEmpty key) v ↔ Fits [] v := by
  rw [← Json.exists_truthyOr (.text []) key]
  simp only [HasReading, textOrEmpty]
  cases Json.truthyOr (.text []) key v <;> simp [Functor.map, Except.map]

def Shape : Json → Prop :=
  Fits [("imports", UnlessFalsy (ItemsAre Anything)),
    ("functions", UnlessFalsy (ItemsAre FunctionOutline.Shape)),
    ("classes", UnlessFalsy (ItemsAre ClassOutline.Shape)),
    ("interfaces", UnlessFalsy (ItemsAre InterfaceOutline.Shape))]

theorem hasReading_iff : HasReading ofJson v ↔ Shape v :=
  hasReading_bind hasReading_textMember fun _ => hasReading_bind hasReading_textMember fun _ =>
    hasReading_bind (hasReading_listOrEmpty fun _ => Json.hasReading_shown) fun _ =>
      hasReading_bind (hasReading_listOrEmpty fun _ => FunctionOutline.hasReading_iff) fun _ =>
        hasReading_bind (hasReading_listOrEmpty fun _ => ClassOutline.hasReading_iff) fun _ =>
          hasReading_bind (hasReading_listOrEmpty fun _ => InterfaceOutline.hasReading_iff) fun _ =>
            hasReading_bind hasReading_textOrEmpty fun _ =>
              hasReading_map.trans hasReading_textOrEmpty

end SourceRecord

/-! ## Indexes -/

namespace Index

/-- Something with two items, of which the first is neither a list nor an object. -/
inductive IsPair : Json → Prop where
  | list {k w : Json} {key : Text} (h : keyText k = .ok key) : IsPair (.list [k, w])
  | text (a b : Point) : IsPair (.text [a, b])
  | object (a b : Text × Json) : IsPair (.object [a, b])

/-- An object, or pairs. -/
inductive IsMapping : Json → Prop where
  | object (ms : List (Text × Json)) : IsMapping (.object ms)
  | pairs {v : Json} (h : ItemsAre IsPair v) : IsMapping v

def Shape : Json → Prop :=
  Fits [("files", UnlessFalsy (ItemsAre Anything)),
    ("codebaseInfo", UnlessFalsy (ItemsAre SourceRecord.Shape)),
    ("fileSummaries", UnlessFalsy IsMapping)]

theorem isPair_iff : IsPair v ↔
    ∃ k w key, Json.itemsOf v = .ok [k, w] ∧ keyText k = .ok key := by
  constructor
  · rintro (h | ⟨a, b⟩ | ⟨a, b⟩)
    · exact ⟨_, _, _, rfl, h⟩
    · exact ⟨_, _, _, rfl, rfl⟩
    · exact ⟨_, _, _, rfl, rfl⟩
  · rintro ⟨k, w, key, hitems, hkey⟩
    unfold Json.itemsOf at hitems
    split at hitems
    · cases hitems
      exact .list hkey
    · simp only [Except.ok.injEq, List.map_eq_cons_iff, List.map_eq_nil_iff] at hitems
      obtain ⟨a, _, rfl, -, b, _, rfl, -, rfl⟩ := hitems
      exact .text a b
    · simp only [Except.ok.injEq, List.map_eq_cons_iff, List.map_eq_nil_iff] at hitems
      obtain ⟨a, _, rfl, -, b, _, rfl, -, rfl⟩ := hitems
      exact .object a b
    · cases hitems

theorem exists_pairsFrom (n : Nat) (vs : List Json) :
    (∃ ms, pairsFrom n vs = .ok ms) ↔ ∀ i ∈ vs, IsPair i := by
  induction vs generalizing n with
  | nil => exact ⟨fun _ _ h => absurd h List.not_mem_nil, fun _ => ⟨[], rfl⟩⟩
  | cons i vs ih =>
    rw [List.forall_mem_cons, isPair_iff, ← ih (n + 1)]
    simp only [pairsFrom, Except.bind_eq_ok]
    constructor
    · rintro ⟨ms, items, hitems, h⟩
      split at h
      · simp only [Except.bind_eq_ok] at h
        obtain ⟨key, hkey, ms, hms, -⟩ := h
        exact ⟨⟨_, _, key, hitems, hkey⟩, ms, hms⟩
      · cases h
    · rintro ⟨⟨k, w, key, hitems, hkey⟩, ms, hms⟩
      refine ⟨(key, w) :: ms, _, hitems, ?_⟩
      simp only [hkey, hms]
      rfl

theorem isMapping_iff : IsMapping v ↔ (∃ ms, v = .object ms) ∨ ItemsAre IsPair v := by
  constructor
  · rintro (ms | h)
    · exact .inl ⟨ms, rfl⟩
    · exact .inr h
  · rintro (⟨ms, rfl⟩ | h)
    · exact .object ms
    · exact .pairs h

theorem hasReading_mapping : HasReading mapping v ↔ IsMapping v := by
  have hpairs := @Json.hasReading_itemsOf _ _ v
    (fun items => pairsFrom 0 items >>= fun ms => pure (Json.mergeMembers ms))
    fun items => hasReading_map.trans (exists_pairsFrom 0 items)
  rw [isMapping_iff, ← hpairs]
  cases v with
  | object ms => exact iff_of_true ⟨ms, rfl⟩ (.inl ⟨ms, rfl⟩)
  | null | bool | int | float | text | list => simp [HasReading, mapping]

/-- **The values that are indexes**: objects of which all parts are of their shapes. -/
theorem hasReading_iff : HasReading ofJson v ↔ Shape v := by
  refine hasReading_bind (Json.exists_truthyOr _ _) fun _ =>
    hasReading_bind (SourceRecord.hasReading_listOrEmpty fun _ => Json.hasReading_shown) fun _ =>
      hasReading_bind (SourceRecord.hasReading_listOrEmpty fun _ => SourceRecord.hasReading_iff)
        fun _ => ?_
  refine (Json.hasReading_truthyOr _ ?_).trans
    (Json.fits_one_congr fun w => forall_congr' fun _ => ?_)
  · exact hasReading_map.2 ⟨[], rfl⟩
  · exact hasReading_map.trans hasReading_mapping

example : ofJson (.object [("files", .int 5)]) = .error .notAList := rfl

end Index

end SourceAtlas
