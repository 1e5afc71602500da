import SourceAtlas.Proofs.Json.Reread
import SourceAtlas.Proofs.Json.Tokens

/-!
# Written values read back

A value is written on one line, or with one item or member a line and each level indented. Both are
one form with its own space after commas and before items, and this form is read back whatever that
space is.

* `Json.Layout`, `Json.written`: the form of a layout;
* `Json.dumps`: a value on one line, or with a given indentation;
* `Json.dumps_none`, `Json.dumps_two`: the two written forms are of this kind;
* **`Json.spells_written`**: the form of a value spells the value that is read back;
* **`Json.read_indented`**: the written form is read as that value.
-/

namespace SourceAtlas.Json

/-! ## Layouts -/

/-- The space that a layout puts after a comma, and before items and closing marks of each level. -/
structure Layout where
  afterComma : Text
  newline : Nat → Text

namespace Layout

/-- All on one line, with a space after commas. -/
def oneLine : Layout := ⟨" ", fun _ => []⟩

/-- One item or member a line, each level indented by `indent`. -/
def indented (indent : Text) : Layout :=
  ⟨[], fun depth => Point.ofChar '\n' :: (List.replicate depth indent).flatten⟩

/-- What stands between two items. -/
def separator (l : Layout) : Text := [Point.ofChar ','] ++ l.afterComma

/-- There is nothing but white space where a layout puts space. -/
structure IsSpace (l : Layout) : Prop where
  afterComma : Spaces l.afterComma
  newline : ∀ depth, Spaces (l.newline depth)

end Layout

mutual

/-- The value at nesting depth `depth` in the layout `l`. -/
def written (l : Layout) (depth : Nat) : Json → Text
  | null => "null"
  | bool b => if b then "true" else "false"
  | int n => Text.ofInt n
  | float x => writeFloat x
  | text t => writeText t
  | list [] => "[]"
  | list (v :: vs) => "[" ++ writtenItems l (depth + 1) (v :: vs) ++ l.newline depth ++ "]"
  | object [] => "\x7b\x7d"
  | object (m :: ms) => "\x7b" ++ writtenMembers l (depth + 1) (m :: ms) ++ l.newline depth ++ "\x7d"

def writtenItems (l : Layout) (depth : Nat) : List Json → Text
  | [] => []
  | [v] => l.newline depth ++ written l depth v
  | v :: vs => l.newline depth ++ written l depth v ++ l.separator ++ writtenItems l depth vs

def writtenMembers (l : Layout) (depth : Nat) : List (Text × Json) → Text
  | [] => []
  | [(k, v)] => l.newline depth ++ writeText k ++ ": " ++ written l depth v
  | (k, v) :: ms =>
    l.newline depth ++ writeText k ++ ": " ++ written l depth v ++ l.separator ++
      writtenMembers l depth ms

end

/-- The layout of a value on one line, or with one item or member a line and the given
indentation. -/
def layout (indent : Option Text) : Layout := indent.elim .oneLine .indented

/-- The value on one line, or with one item or member a line and the given indentation. -/
def dumps (indent : Option Text) (v : Json) : Text := written (layout indent) 0 v

variable {l : Layout} {depth : Nat}

theorem writtenItems_eq (l : Layout) (depth : Nat) (vs : List Json) :
    writtenItems l depth vs =
      Text.joinWith l.separator (vs.map fun v => l.newline depth ++ written l depth v) := by
  match vs with
  | [] => rw [writtenItems]; rfl
  | [v] => rw [writtenItems]; rfl
  | v :: w :: vs =>
    rw [writtenItems, writtenItems_eq l depth (w :: vs)]
    · rfl
    · simp

/-- A member as it is written. -/
def writtenMember (l : Layout) (depth : Nat) (m : Text × Json) : Text :=
  l.newline depth ++ writeText m.1 ++ ": " ++ written l depth m.2

theorem writtenMembers_eq (l : Layout) (depth : Nat) (ms : List (Text × Json)) :
    writtenMembers l depth ms = Text.joinWith l.separator (ms.map (writtenMember l depth)) := by
  match ms with
  | [] => rw [writtenMembers]; rfl
  | [m] => rw [writtenMembers]; rfl
  | m :: k :: ms =>
    rw [writtenMembers, writtenMembers_eq l depth (k :: ms)]
    · rfl
    · simp

theorem written_list (l : Layout) (depth : Nat) (vs : List Json) :
    written l depth (.list vs) = Point.ofChar '[' ::
      (Text.joinWith l.separator (vs.map fun v => l.newline (depth + 1) ++ written l (depth + 1) v) ++
        ((if vs = [] then [] else l.newline depth) ++ [Point.ofChar ']'])) := by
  cases vs with
  | nil => rw [written]; rfl
  | cons v vs => rw [written, writtenItems_eq, List.append_assoc]; rfl

theorem written_object (l : Layout) (depth : Nat) (ms : List (Text × Json)) :
    written l depth (.object ms) = Point.ofChar '{' ::
      (Text.joinWith l.separator (ms.map (writtenMember l (depth + 1))) ++
        ((if ms = [] then [] else l.newline depth) ++ [Point.ofChar '}'])) := by
  cases ms with
  | nil => rw [written]; rfl
  | cons m ms => rw [written, writtenMembers_eq, List.append_assoc]; rfl

/-! ### The two written forms -/

theorem compactItems_eq (vs : List Json) :
    compactItems vs = Text.joinWith ", " (vs.map compact) := by
  match vs with
  | [] => rw [compactItems]; rfl
  | [v] => rw [compactItems]; rfl
  | v :: w :: vs =>
    rw [compactItems, compactItems_eq (w :: vs)]
    · rfl
    · simp

/-- A member as it is written on one line. -/
def compactMember (m : Text × Json) : Text := writeText m.1 ++ ": " ++ compact m.2

theorem compactMembers_eq (ms : List (Text × Json)) :
    compactMembers ms = Text.joinWith ", " (ms.map compactMember) := by
  match ms with
  | [] => rw [compactMembers]; rfl
  | [m] => rw [compactMembers]; rfl
  | m :: k :: ms =>
    rw [compactMembers, compactMembers_eq (k :: ms)]
    · rfl
    · simp

theorem written_oneLine (v : Json) (depth : Nat) : written .oneLine depth v = compact v := by
  induction v using induction generalizing depth with
  | null | bool | int | float | text => rw [written, compact]
  | list vs ih =>
    have hitems : vs.map (fun v => Layout.oneLine.newline (depth + 1) ++
        written .oneLine (depth + 1) v) = vs.map compact :=
      List.map_congr_left fun v hv => ih v hv _
    rw [written_list, compact, compactItems_eq, hitems, Layout.oneLine, ite_self]
    rfl
  | object ms ih =>
    have hmembers : ms.map (writtenMember .oneLine (depth + 1)) = ms.map compactMember :=
      List.map_congr_left fun m hm => by
        rw [writtenMember, ih m hm]
        rfl
    rw [written_object, compact, compactMembers_eq, hmembers, Layout.oneLine, ite_self]
    rfl

/-- A value without an indentation is written on one line. -/
theorem dumps_none (v : Json) : dumps none v = compact v := written_oneLine v 0

theorem newline_two (depth : Nat) : (Layout.indented "  ").newline depth = newline depth := by
  have hspaces : (List.replicate depth (Text.ofString "  ")).flatten =
      List.replicate (2 * depth) (Point.ofChar ' ') := by
    induction depth with
    | zero => rfl
    | succ depth ih =>
      rw [List.replicate_succ, List.flatten_cons, ih, Nat.mul_succ, Nat.add_comm,
        List.replicate_add]
      rfl
  rw [newline, ← hspaces]
  rfl

theorem written_two (v : Json) (depth : Nat) :
    written (.indented "  ") depth v = indentedAt depth v := by
  induction v using induction generalizing depth with
  | null | bool | int | float | text => rw [written, indentedAt]
  | list vs ih =>
    have hitems : vs.map (fun v => (Layout.indented "  ").newline (depth + 1) ++
        written (.indented "  ") (depth + 1) v) =
        vs.map fun v => newline (depth + 1) ++ indentedAt (depth + 1) v :=
      List.map_congr_left fun v hv => by rw [ih v hv, newline_two]
    rw [written_list, indentedAt_list, indentedItems_eq, hitems, newline_two]
    rfl
  | object ms ih =>
    have hmembers : ms.map (writtenMember (.indented "  ") (depth + 1)) =
        ms.map (indentedMember (depth + 1)) :=
      List.map_congr_left fun m hm => by
        rw [writtenMember, indentedMember, ih m hm, newline_two]
    rw [written_object, indentedAt_object, indentedMembers_eq, hmembers, newline_two]
    rfl

/-- The written form is that of an indentation by two spaces. -/
theorem dumps_two (v : Json) : dumps (some "  ") v = indented v := written_two v 0

/-! ## Reading -/

theorem isSpace_layout {indent : Option Text} (h : ∀ i ∈ indent, Spaces i) :
    (layout indent).IsSpace := by
  cases indent with
  | none => exact ⟨(by decide : Spaces " "), fun _ => Spaces.nil⟩
  | some i =>
    refine ⟨Spaces.nil, fun depth c hc => ?_⟩
    rcases List.mem_cons.1 hc with rfl | hc
    · rfl
    · obtain ⟨t, ht, hct⟩ := List.mem_flatten.1 hc
      exact h i rfl c (List.eq_of_mem_replicate ht ▸ hct)

theorem isAtom_ofInt {n : Int} (h : (Nat.toDigits 10 n.natAbs).length ≤ maxDigits) :
    IsAtom (Text.ofInt n) (.int n) := by
  obtain ⟨c, r, hc, hstart⟩ := Reader.start_ofInt n
  refine ⟨⟨_, r, hc, ?_⟩, fun rest hr => Reader.atom_ofInt n h hr⟩
  rcases hstart with hd | rfl
  · simp [startsAtom, hd]
  · rfl

theorem isAtom_writeFloat (x : Binary64) : IsAtom (writeFloat x) (.float x) := by
  obtain ⟨c, r, hc, hstart⟩ := Reader.start_writeFloat x
  refine ⟨⟨_, r, hc, ?_⟩, fun rest hr => Reader.atom_writeFloat x hr⟩
  rcases hstart with hd | rfl | rfl | rfl
  · simp [startsAtom, hd]
  · rfl
  · rfl
  · rfl

/-- A separator that goes on after its first part. -/
theorem joinWith_append (a b t : Text) (ts : List Text) :
    Text.joinWith (a ++ b) (t :: ts) = Text.joinWith a (t :: ts.map fun u => b ++ u) := by
  simp only [joinWith_cons, List.flatMap_map, List.append_assoc]

/-- An item as it is written, after the space `before`. -/
def writtenItemText (l : Layout) (depth : Nat) (before : Text) (v : Json) : ItemText :=
  ⟨before, written l depth v, [], v.reread⟩

/-- A member as it is written, after the space `before`. -/
def writtenMemberText (l : Layout) (depth : Nat) (before : Text) (m : Text × Json) : MemberText :=
  ⟨before, m.1.flatMap writePoint, [], [Point.ofChar ' '], written l depth m.2, [], m.1.joinPairs,
    m.2.reread⟩

/-- **The written form of a value spells the value that is read back**, whatever the layout. -/
theorem spells_written (hl : l.IsSpace) {v : Json} (h : v.isWritable = true) (depth : Nat) :
    Spells (written l depth v) (reread v) := by
  induction v using induction generalizing depth with
  | null =>
    have hw : (Text.ofString "null", Json.null) ∈ words := by simp [words]
    exact .atom (isAtom_of_mem_words hw)
  | bool b =>
    have hw : (Text.ofString (if b then "true" else "false"), Json.bool b) ∈ words := by
      cases b <;> simp [words]
    cases b <;> exact .atom (isAtom_of_mem_words hw)
  | int n =>
    rw [written]
    exact .atom (isAtom_ofInt (by simpa [isWritable] using h))
  | float x =>
    rw [written]
    exact .atom (isAtom_writeFloat x)
  | text t =>
    rw [reread_text, written, writeText_eq]
    exact .text fun opened rest => Reader.stringBody_writeText opened t rest
  | list vs ih =>
    rw [isWritable, areWritable_iff] at h
    rw [written_list, reread_list]
    cases vs with
    | nil => exact .list [] [] Spaces.nil (List.forall_mem_nil _) (List.forall_mem_nil _)
    | cons v vs =>
      let first := writtenItemText l (depth + 1) (l.newline (depth + 1)) v
      let next := writtenItemText l (depth + 1) (l.afterComma ++ l.newline (depth + 1))
      have hitems : ∀ i ∈ first :: vs.map next, i.Spaced ∧ Spells i.text i.value := by
        simp only [List.forall_mem_cons, List.forall_mem_map] at h ih ⊢
        exact ⟨⟨⟨hl.newline _, Spaces.nil⟩, ih.1 h.1 _⟩, fun v' hv' =>
          ⟨⟨hl.afterComma.append (hl.newline _), Spaces.nil⟩, ih.2 v' hv' (h.2 v' hv') _⟩⟩
      have hwhole : (first :: vs.map next).map ItemText.whole =
          (l.newline (depth + 1) ++ written l (depth + 1) v) ::
            (vs.map fun v' => l.newline (depth + 1) ++ written l (depth + 1) v').map
              (l.afterComma ++ ·) := by
        simp [first, next, ItemText.whole, writtenItemText]
      have hspells := Spells.list (l.newline depth) (first :: vs.map next) (hl.newline depth)
        (fun i hi => (hitems i hi).1) (fun i hi => (hitems i hi).2)
      have hvalues : (first :: vs.map next).map ItemText.value = (v :: vs).map reread := by
        rw [List.map_cons, List.map_map]
        rfl
      rw [hwhole, hvalues, ← joinWith_append] at hspells
      rw [if_neg (List.cons_ne_nil v vs)]
      exact hspells
  | object ms ih =>
    rw [isWritable, membersWritable_iff] at h
    rw [written_object, reread_object]
    cases ms with
    | nil => exact .object [] [] Spaces.nil (List.forall_mem_nil _) (List.forall_mem_nil _)
    | cons m ms =>
      let first := writtenMemberText l (depth + 1) (l.newline (depth + 1)) m
      let next := writtenMemberText l (depth + 1) (l.afterComma ++ l.newline (depth + 1))
      have hkey : ∀ m : Text × Json, SpellsText (m.1.flatMap writePoint) m.1.joinPairs :=
        fun m opened rest => Reader.stringBody_writeText opened m.1 rest
      have hspace : Spaces " " := by decide
      have hmembers : ∀ i ∈ first :: ms.map next, i.Spaced ∧ Spells i.text i.value := by
        simp only [List.forall_mem_cons, List.forall_mem_map] at h ih ⊢
        exact ⟨⟨⟨hl.newline _, Spaces.nil, hspace, Spaces.nil, hkey m⟩, ih.1 h.1 _⟩,
          fun k hk => ⟨⟨hl.afterComma.append (hl.newline _), Spaces.nil, hspace, Spaces.nil, hkey k⟩,
            ih.2 k hk (h.2 k hk) _⟩⟩
      have hwhole : (first :: ms.map next).map MemberText.whole =
          writtenMember l (depth + 1) m ::
            (ms.map (writtenMember l (depth + 1))).map (l.afterComma ++ ·) := by
        have hcolon : Text.ofString ": " = [Point.ofChar ':', Point.ofChar ' '] := rfl
        simp [first, next, MemberText.whole, MemberText.fromKey, writtenMemberText, writtenMember,
          writeText_eq, hcolon]
      have hspells := Spells.object (l.newline depth) (first :: ms.map next) (hl.newline depth)
        (fun i hi => (hmembers i hi).1) (fun i hi => (hmembers i hi).2)
      have hvalues : ((first :: ms.map next).map fun i => (i.key, i.value)) =
          (m :: ms).map rereadMember := by
        rw [List.map_cons, List.map_map]
        rfl
      rw [hwhole, hvalues, ← joinWith_append] at hspells
      rw [if_neg (List.cons_ne_nil m ms)]
      exact hspells

/-- **The written form of a value is read**, unless it holds too long a number. -/
theorem read_indented {v : Json} (h : v.isWritable = true) :
    Json.read (indented v) = .ok (reread v) := by
  have hindent : ∀ i ∈ some (Text.ofString "  "), Spaces i := by
    rintro _ ⟨⟩
    decide
  have hspace : (layout (some "  ")).IsSpace := isSpace_layout hindent
  have := (spells_written hspace h 0).read Spaces.nil Spaces.nil
  rwa [List.nil_append, List.append_nil, ← dumps, dumps_two] at this

end SourceAtlas.Json
