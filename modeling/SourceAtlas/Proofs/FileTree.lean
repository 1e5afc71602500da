import SourceAtlas.FileTree

/-!
# Changes of file trees

* `FileTree.node?_put`, `FileTree.node?_remove`: a change concerns one place;
* `FileTree.walk_eq_ok`: a way leads through directories that can be entered, by names that are not
  too long;
* `FileTree.atPlace_eq_ok`: what comes before each operation;
* `FileTree.refusal?_of_stat`, `FileTree.readText_eq_unfit`: what is refused, and what is no path;
* `FileTree.HasDirectory`, `FileTree.makeDirectories_of_isDirectory`,
  `FileTree.isDirectory_of_makeDirectories`: directories that are there, or are made;
* `FileTree.CanWrite`, `FileTree.write_eq_ok`, `FileTree.move_eq_ok`: when files can be written
  and moved;
* **`FileTree.KeepsDirectories.write`**, **`FileTree.KeepsDirectories.move`**: neither takes a
  directory away.
-/

namespace SourceAtlas

/-! ## Results -/

theorem Except.bind_eq_ok {ε α β : Type} {x : Except ε α} {f : α → Except ε β} {b : β} :
    (x >>= f) = .ok b ↔ ∃ a, x = .ok a ∧ f a = .ok b := by
  cases x with
  | error e => simp [bind, Except.bind]
  | ok a => simp [bind, Except.bind]

theorem Except.bind_eq_error {ε α β : Type} {x : Except ε α} {f : α → Except ε β} {e : ε} :
    (x >>= f) = .error e ↔ x = .error e ∨ ∃ a, x = .ok a ∧ f a = .error e := by
  cases x with
  | error e' => simp [bind, Except.bind]
  | ok a => simp [bind, Except.bind]

theorem Except.toOption_eq_some {ε α : Type} {x : Except ε α} {a : α} :
    x.toOption = some a ↔ x = .ok a := by
  cases x <;> simp [Except.toOption]

theorem Except.map_eq_error {ε α β : Type} {x : Except ε α} {f : α → β} {e : ε} :
    x.map f = .error e ↔ x = .error e := by
  cases x <;> simp [Except.map]

theorem Except.mapError_eq_ok {ε ε' α : Type} {x : Except ε α} {f : ε → ε'} {a : α} :
    x.mapError f = .ok a ↔ x = .ok a := by
  cases x with
  | error e =>
    constructor
    · rintro ⟨⟩
    · rintro ⟨⟩
  | ok b =>
    constructor
    · rintro ⟨⟩
      rfl
    · rintro ⟨⟩
      rfl

theorem Except.mapError_eq_error {ε ε' α : Type} {x : Except ε α} {f : ε → ε'} {e : ε'} :
    x.mapError f = .error e ↔ ∃ e', x = .error e' ∧ f e' = e := by
  cases x with
  | error e' =>
    constructor
    · rintro ⟨⟩
      exact ⟨e', rfl, rfl⟩
    · rintro ⟨_, ⟨⟩, rfl⟩
      rfl
  | ok a =>
    constructor
    · rintro ⟨⟩
    · rintro ⟨_, ⟨⟩, -⟩

/-! ## Paths -/

section Paths

variable {α : Type} {path source target : Text} {a : α}

theorem Path.checked_of_valid (h : Path.Valid path) (way : Except Refusal α) :
    Path.checked path way = way := by
  rw [Path.checked, if_neg (by simpa using h.nonempty), h.short, Bool.not_true,
    if_neg Bool.false_ne_true]

theorem Path.checked_eq_ok {way : Except Refusal α} : Path.checked path way = .ok a ↔
    path ≠ [] ∧ Path.isShort path = true ∧ way = .ok a := by
  unfold Path.checked
  split
  · simp_all
  · split <;> simp_all

theorem FileFault.onPath_eq_ok {done : Except Refusal α} :
    FileFault.onPath path done = .ok a ↔ Path.isFit path = true ∧ done = .ok a := by
  rw [← Path.fault?_eq_none, FileFault.onPath]
  cases Path.fault? path with
  | some why => simp
  | none => simp [Except.mapError_eq_ok]

/-- What is done with a path fails: the text is no path, or the system refuses. -/
theorem FileFault.onPath_eq_error {done : Except Refusal α} {fault : FileFault} :
    FileFault.onPath path done = .error fault ↔
      (∃ why, Path.fault? path = some why ∧ fault = .unfit why) ∨
        Path.fault? path = none ∧ ∃ why, done = .error why ∧ fault = .refused why path := by
  rw [FileFault.onPath]
  cases Path.fault? path with
  | some why => simp [eq_comm]
  | none => simp [Except.mapError_eq_error, eq_comm (a := fault)]

theorem FileFault.onPaths_eq_ok {done : Except Refusal α} :
    FileFault.onPaths source target done = .ok a ↔
      Path.isFit source = true ∧ Path.isFit target = true ∧ done = .ok a := by
  rw [← Path.fault?_eq_none, ← Path.fault?_eq_none, ← and_assoc, ← Option.or_eq_none_iff,
    FileFault.onPaths]
  cases (Path.fault? source).or (Path.fault? target) with
  | some why => simp
  | none => simp [Except.mapError_eq_ok]

theorem FileFault.onPath_map {β : Type} (f : α → β) (done : Except Refusal α) :
    FileFault.onPath path (done.map f) = (FileFault.onPath path done).map f := by
  unfold FileFault.onPath
  cases Path.fault? path with
  | some why => rfl
  | none => cases done <;> rfl

theorem FileFault.onPaths_map {β : Type} (f : α → β) (done : Except Refusal α) :
    FileFault.onPaths source target (done.map f) = (FileFault.onPaths source target done).map f := by
  unfold FileFault.onPaths
  cases (Path.fault? source).or (Path.fault? target) with
  | some why => rfl
  | none => cases done <;> rfl

end Paths

/-! ## Directories that are made -/

namespace FileOperations

variable {σ : Type} {system : FileOperations σ} {s s' : σ} {path : Text}

theorem isDirectory_of_settle {made : Except FileFault σ}
    (hm : ∀ u, made = .ok u → system.isDirectory u path = true)
    (h : system.settle s path made = (.ok (), s')) : system.isDirectory s' path = true := by
  unfold settle at h
  split at h
  · rename_i u
    cases h
    exact hm _ rfl
  · split at h
    · rename_i hd
      cases h
      exact hd
    · cases h

/-- **What is made is a directory**, if it is made. -/
theorem isDirectory_of_makeDirectories
    (hm : ∀ {u v : σ}, system.makeDirectory u path = .ok v → system.isDirectory v path = true)
    (h : system.makeDirectories s path = (.ok (), s')) : system.isDirectory s' path = true := by
  rw [makeDirectories, makeDirectoriesWithin] at h
  split at h
  · split at h
    · cases h
    · split at h
      · cases h
      · exact isDirectory_of_settle (fun _ => hm) h
  · exact isDirectory_of_settle (fun _ => hm) h

/-- What one new directory leaves true, whether it is made or not. -/
theorem of_settle {P : σ → Prop} (hs : P s)
    (hP : ∀ {u v : σ} {p : Text}, P u → system.makeDirectory u p = .ok v → P v) :
    P (system.settle s path (system.makeDirectory s path)).2 := by
  cases hm : system.makeDirectory s path with
  | ok u => exact hP hs hm
  | error fault =>
    unfold settle
    dsimp only
    split <;> exact hs

/-- **What one new directory leaves true** is true when all directories above a path are made, and
also where some of them are not. -/
theorem of_makeDirectories {P : σ → Prop} (path : Text) (hs : P s)
    (hP : ∀ {u v : σ} {p : Text}, P u → system.makeDirectory u p = .ok v → P v) :
    P (system.makeDirectories s path).2 := by
  rw [makeDirectories]
  generalize (Path.components path).length + 1 = bound
  induction bound generalizing path with
  | zero => exact hs
  | succ bound ih =>
    have hsettle : P (system.settle s path (system.makeDirectory s path)).2 := of_settle hs hP
    rw [makeDirectoriesWithin]
    split
    · split
      · exact hs
      · have habove := ih (Path.parent path)
        split
        · rename_i he
          rwa [he] at habove
        · rename_i he
          rw [he] at habove
          exact of_settle habove hP
    · exact hsettle

end FileOperations

namespace FileTree

variable {α : Type} {t t' : FileTree} {key k : List Text} {n : Node} {path : Text} {content : Bytes}

/-! ## Places -/

@[simp]
theorem node?_nil (t : FileTree) : t.node? [] = some .directory := rfl

theorem node?_of_ne_nil (h : k ≠ []) :
    t.node? k = (t.nodes.find? fun m => m.1 = k).map Prod.snd := by
  rw [node?, if_neg (by simpa using h)]

@[simp]
theorem place_put (t : FileTree) (key : List Text) (n : Node) (path : Text) :
    (t.put key n).place path = t.place path := rfl

@[simp]
theorem place_remove (t : FileTree) (key : List Text) (path : Text) :
    (t.remove key).place path = t.place path := rfl

/-- What stands at a place once `n` is put at another, or at this one. -/
theorem node?_put (hk : k ≠ []) :
    (t.put key n).node? k = if k = key then some n else t.node? k := by
  rw [node?_of_ne_nil hk, node?_of_ne_nil hk, put]
  dsimp only
  by_cases hany : (t.nodes.any fun m => decide (m.1 = key)) = true
  · have hkeys : ((fun m : List Text × Node => decide (m.1 = k)) ∘
        fun m => if m.1 = key then (key, n) else m) = fun m => decide (m.1 = k) := by
      funext m
      rw [Function.comp_apply]
      split <;> simp_all
    rw [if_pos hany, List.find?_map, hkeys, Option.map_map]
    cases hf : t.nodes.find? fun m => decide (m.1 = k) with
    | none =>
      have hne : k ≠ key := by
        rintro rfl
        obtain ⟨m, hm, he⟩ := List.any_eq_true.1 hany
        exact List.find?_eq_none.1 hf m hm he
      rw [if_neg hne]
      rfl
    | some m =>
      have hm : m.1 = k := by simpa using List.find?_some hf
      by_cases he : k = key <;> simp [hm, he]
  · have hkey : k = key → t.nodes.find? (fun m => decide (m.1 = k)) = none := by
      rintro rfl
      rw [List.find?_eq_none]
      exact fun m hm he => hany (List.any_eq_true.2 ⟨m, hm, he⟩)
    rw [if_neg hany, List.find?_append]
    by_cases he : k = key
    · rw [if_pos he, hkey he]
      simp [he]
    · simp [he, Ne.symm he]

theorem node?_remove (hk : k ≠ []) :
    (t.remove key).node? k = if k = key then none else t.node? k := by
  rw [node?_of_ne_nil hk, node?_of_ne_nil hk, remove]
  dsimp only
  rw [List.find?_filter]
  split
  · rename_i he
    subst he
    simp
  · rename_i he
    congr 2
    funext m
    by_cases hm : m.1 = k
    · simp [hm, he]
    · simp [hm]

theorem node?_put_of_ne (h : k ≠ key) (n : Node) : (t.put key n).node? k = t.node? k := by
  by_cases hnil : k = []
  · rw [hnil, node?_nil, node?_nil]
  · rw [node?_put hnil, if_neg h]

theorem node?_remove_of_ne (h : k ≠ key) : (t.remove key).node? k = t.node? k := by
  by_cases hnil : k = []
  · rw [hnil, node?_nil, node?_nil]
  · rw [node?_remove hnil, if_neg h]

theorem enter_eq_ok {found : Option Node} {c : Text} :
    enter found c = .ok () ↔ found = some .directory ∧ Path.isShortName c = true := by
  unfold enter
  split <;> simp_all

theorem walk_eq_ok {done rest : List Text} : walk t done rest = .ok () ↔
    (∀ i < rest.length, t.node? (done ++ rest.take i) = some .directory) ∧
      ∀ c ∈ rest, Path.isShortName c = true := by
  induction rest generalizing done with
  | nil => simp [walk]
  | cons c cs ih =>
    have hstep : walk t done (c :: cs) = .ok () ↔
        enter (t.node? done) c = .ok () ∧ walk t (done ++ [c]) cs = .ok () := by
      rw [walk, Except.bind_eq_ok]
      exact ⟨fun ⟨_, h⟩ => h, fun h => ⟨(), h⟩⟩
    have hsplit : (∀ i < (c :: cs).length, t.node? (done ++ (c :: cs).take i) = some .directory) ↔
        t.node? done = some .directory ∧
          ∀ i < cs.length, t.node? (done ++ [c] ++ cs.take i) = some .directory := by
      rw [List.length_cons, Nat.forall_lt_succ_left]
      simp
    rw [hstep, enter_eq_ok, ih, hsplit, List.forall_mem_cons]
    exact and_and_and_comm

/-! ## Directories -/

/-- No directory stands at a place. -/
def LacksDirectory (t : FileTree) (key : List Text) : Prop :=
  ∀ n, t.node? key = some n → n.isDirectory = false

/-- A place without a directory is not the root. -/
theorem LacksDirectory.ne_nil (h : t.LacksDirectory key) : key ≠ [] := by
  rintro rfl
  exact absurd (h .directory (node?_nil t)) (by decide)

theorem LacksDirectory.remove (h : t.LacksDirectory k) (key : List Text) :
    (t.remove key).LacksDirectory k := by
  intro n hn
  rw [node?_remove h.ne_nil] at hn
  split at hn
  · cases hn
  · exact h n hn

/-- No directory is taken away. -/
def KeepsDirectories (t t' : FileTree) : Prop :=
  ∀ k n, n.isDirectory = true → t.node? k = some n → t'.node? k = some n

theorem KeepsDirectories.trans {t'' : FileTree} (h : KeepsDirectories t t')
    (h' : KeepsDirectories t' t'') : KeepsDirectories t t'' :=
  fun k n hn hk => h' k n hn (h k n hn hk)

theorem KeepsDirectories.put (h : t.LacksDirectory key) (n : Node) :
    KeepsDirectories t (t.put key n) := by
  intro k m hm hk
  by_cases hnil : k = []
  · rw [hnil] at hk ⊢
    exact hk
  · rw [node?_put hnil, if_neg, hk]
    rintro rfl
    exact absurd hm (by rw [h m hk]; exact Bool.false_ne_true)

theorem KeepsDirectories.remove (h : t.LacksDirectory key) : KeepsDirectories t (t.remove key) := by
  intro k m hm hk
  by_cases hnil : k = []
  · rw [hnil] at hk ⊢
    exact hk
  · rw [node?_remove hnil, if_neg, hk]
    rintro rfl
    exact absurd hm (by rw [h m hk]; exact Bool.false_ne_true)

/-- A way stays open when no directory is taken away. -/
theorem KeepsDirectories.walk (h : KeepsDirectories t t') (hw : walk t [] key = .ok ()) :
    walk t' [] key = .ok () :=
  walk_eq_ok.2 ⟨fun i hi => h _ _ rfl ((walk_eq_ok.1 hw).1 i hi), (walk_eq_ok.1 hw).2⟩

/-- A directory that can be entered can be found at a place. -/
structure HasDirectory (t : FileTree) (key : List Text) : Prop where
  walk : walk t [] key = .ok ()
  node : t.node? key = some .directory

theorem KeepsDirectories.hasDirectory (h : KeepsDirectories t t') (hd : t.HasDirectory key) :
    t'.HasDirectory key :=
  ⟨h.walk hd.walk, h _ _ rfl hd.node⟩

/-- The way to a name in a directory. -/
theorem walk_concat {c : Text} : walk t [] (key ++ [c]) = .ok () ↔
    t.HasDirectory key ∧ Path.isShortName c = true := by
  have hiff : (∀ j < (key ++ [c]).length, t.node? ((key ++ [c]).take j) = some .directory) ↔
      (∀ j < key.length, t.node? (key.take j) = some .directory) ∧
        t.node? key = some .directory := by
    rw [List.length_append, List.length_singleton, Nat.forall_lt_succ_right, List.take_left]
    refine and_congr_left fun _ => forall₂_congr fun j hj => ?_
    rw [List.take_append_of_le_length (Nat.le_of_lt hj)]
  rw [walk_eq_ok]
  simp only [List.nil_append]
  rw [hiff, List.forall_mem_append, List.forall_mem_singleton]
  constructor
  · rintro ⟨⟨hnodes, hnode⟩, hshort, hc⟩
    exact ⟨⟨walk_eq_ok.2 ⟨hnodes, hshort⟩, hnode⟩, hc⟩
  · rintro ⟨⟨hw, hnode⟩, hc⟩
    obtain ⟨hnodes, hshort⟩ := walk_eq_ok.1 hw
    exact ⟨⟨hnodes, hnode⟩, hshort, hc⟩

/-! ## Ways -/

theorem reach_eq_ok : t.reach path = .ok key ↔
    path ≠ [] ∧ Path.isShort path = true ∧ walk t [] (t.place path) = .ok () ∧
      key = t.place path := by
  rw [reach, Path.checked_eq_ok, Except.bind_eq_ok]
  refine and_congr_right fun _ => and_congr_right fun _ => ?_
  constructor
  · rintro ⟨_, hw, ⟨⟩⟩
    exact ⟨hw, rfl⟩
  · rintro ⟨hw, rfl⟩
    exact ⟨_, hw, rfl⟩

/-- **What comes before each operation**: the text is a path, and the way to its place is open. -/
theorem atPlace_eq_ok {go : List Text → Except Refusal α} {a : α} : t.atPlace path go = .ok a ↔
    Path.Valid path ∧ walk t [] (t.place path) = .ok () ∧ go (t.place path) = .ok a := by
  rw [atPlace, FileFault.onPath_eq_ok, Except.bind_eq_ok]
  simp only [reach_eq_ok]
  constructor
  · rintro ⟨hfit, _, ⟨hne, hs, hw, rfl⟩, hgo⟩
    exact ⟨⟨hfit, hne, hs⟩, hw, hgo⟩
  · rintro ⟨hvalid, hw, hgo⟩
    exact ⟨hvalid.fit, _, ⟨hvalid.nonempty, hvalid.short, hw, rfl⟩, hgo⟩

/-- What an operation fails of: the text is no path, or the system refuses. -/
theorem atPlace_eq_error {go : List Text → Except Refusal α} {fault : FileFault} :
    t.atPlace path go = .error fault ↔ (∃ why, Path.fault? path = some why ∧ fault = .unfit why) ∨
      Path.fault? path = none ∧
        ∃ why, (t.reach path >>= go) = .error why ∧ fault = .refused why path :=
  FileFault.onPath_eq_error

/-- Only a text that is no path is taken for none. -/
theorem atPlace_eq_unfit {go : List Text → Except Refusal α} {why : PathFault} :
    t.atPlace path go = .error (.unfit why) ↔ Path.fault? path = some why := by
  rw [atPlace_eq_error]
  simp

theorem standing_eq_ok : t.standing path key = .ok n ↔
    t.node? key = some n ∧ (n.isDirectory = true ∨ path.endsWith "/" = false) := by
  unfold standing
  cases t.node? key with
  | none => simp
  | some m =>
    rw [Option.some.injEq]
    have hm : (m.isDirectory || !path.endsWith "/") = true ↔
        m.isDirectory = true ∨ path.endsWith "/" = false := by simp
    dsimp only
    split
    · rename_i h
      rw [Except.ok.injEq]
      exact ⟨fun he => ⟨he, he ▸ hm.1 h⟩, fun he => he.1⟩
    · rename_i h
      exact iff_of_false (by simp) fun he => h (hm.2 (he.1 ▸ he.2))

/-- A path leads to something: it can be found, and a slash at the end asks for a directory. -/
theorem stat_eq_ok : t.stat path = .ok n ↔ Path.Valid path ∧ walk t [] (t.place path) = .ok () ∧
    t.node? (t.place path) = some n ∧ (n.isDirectory = true ∨ path.endsWith "/" = false) := by
  rw [stat, atPlace_eq_ok, standing_eq_ok]

theorem stat_eq_unfit {why : PathFault} :
    t.stat path = .error (.unfit why) ↔ Path.fault? path = some why :=
  atPlace_eq_unfit

theorem isDirectory_eq_true : t.isDirectory path = true ↔
    ∃ n, t.stat path = .ok n ∧ n.isDirectory = true := by
  unfold isDirectory
  split <;> simp_all

theorem isFile_eq_true : t.isFile path = true ↔ ∃ n, t.stat path = .ok n ∧ n.isDirectory = false := by
  unfold isFile
  split <;> simp_all

/-- A file is something. -/
theorem present_of_isFile (h : t.isFile path = true) : t.present path = true := by
  obtain ⟨n, hs, -⟩ := isFile_eq_true.1 h
  rw [present, hs]

/-- A directory that can be entered is there. -/
theorem isOpen_eq_true :
    t.isOpen path = true ↔ Path.Valid path ∧ t.HasDirectory (t.place path) := by
  have h : t.isOpen path = true ↔ t.stat path = .ok .directory := by
    unfold isOpen
    split <;> simp_all
  rw [h, stat_eq_ok]
  constructor
  · rintro ⟨hv, hw, hn, -⟩
    exact ⟨hv, hw, hn⟩
  · rintro ⟨hv, hw, hn⟩
    exact ⟨hv, hw, hn, .inl rfl⟩

/-- It can be told what a path leads to where it leads to something. -/
theorem refusal?_of_stat (h : t.stat path = .ok n) : t.refusal? path = none := by
  rw [refusal?, h]

theorem refusal?_of_isDirectory (h : t.isDirectory path = true) : t.refusal? path = none := by
  obtain ⟨n, hs, -⟩ := isDirectory_eq_true.1 h
  exact refusal?_of_stat hs

theorem refusal?_of_isFile (h : t.isFile path = true) : t.refusal? path = none := by
  obtain ⟨n, hs, -⟩ := isFile_eq_true.1 h
  exact refusal?_of_stat hs

/-- A directory that can be entered is a directory. -/
theorem HasDirectory.isDirectory (h : t.HasDirectory (t.place path)) (hv : Path.Valid path) :
    t.isDirectory path = true :=
  isDirectory_eq_true.2 ⟨.directory, stat_eq_ok.2 ⟨hv, h.walk, h.node, .inl rfl⟩, rfl⟩

theorem KeepsDirectories.isDirectory (h : KeepsDirectories t t') (hc : t'.current = t.current)
    (hd : t.isDirectory path = true) : t'.isDirectory path = true := by
  have hplace : t'.place path = t.place path := by rw [place, place, hc]
  obtain ⟨n, hstat, hn⟩ := isDirectory_eq_true.1 hd
  obtain ⟨hv, hw, hnode, -⟩ := stat_eq_ok.1 hstat
  refine isDirectory_eq_true.2 ⟨n, stat_eq_ok.2 ⟨hv, ?_, ?_, .inl hn⟩, hn⟩
  · rw [hplace]
    exact h.walk hw
  · rw [hplace]
    exact h _ _ hn hnode

/-- A way that opens once there are more directories is not refused before: something on it is
missing, or is no directory. -/
theorem KeepsDirectories.isAbsence_of_walk {done rest : List Text} {why : Refusal}
    (h : KeepsDirectories t t') (hw : FileTree.walk t' done rest = .ok ())
    (he : FileTree.walk t done rest = .error why) : why.isAbsence = true := by
  induction rest generalizing done with
  | nil => cases he
  | cons c cs ih =>
    obtain ⟨_, henter, hw⟩ := Except.bind_eq_ok.1 hw
    obtain ⟨hnode, hshort⟩ := enter_eq_ok.1 henter
    unfold FileTree.walk at he
    cases hn : t.node? done with
    | none =>
      rw [hn] at he
      cases he
      rfl
    | some n =>
      rw [hn] at he
      cases n with
      | directory =>
        rw [enter, if_pos hshort] at he
        exact ih hw he
      | closed =>
        rw [h done .closed rfl hn] at hnode
        cases hnode
      | file content =>
        cases he
        rfl
      | locked =>
        cases he
        rfl

/-- It can be told what a path leads to where a way to it opens once there are more directories. -/
theorem KeepsDirectories.refusal? (h : KeepsDirectories t t') (hc : t'.current = t.current)
    (hv : Path.Valid path) (hw : FileTree.walk t' [] (t'.place path) = .ok ()) :
    t.refusal? path = none := by
  have hplace : t'.place path = t.place path := by rw [place, place, hc]
  have hreach : t.reach path = do
      FileTree.walk t [] (t.place path)
      return t.place path := by
    rw [reach, Path.checked_of_valid hv]
  rw [hplace] at hw
  unfold FileTree.refusal?
  split
  · rename_i why p hs
    rcases atPlace_eq_error.1 hs with ⟨_, -, he⟩ | ⟨-, why, he, ⟨⟩⟩
    · cases he
    · rw [hreach, Except.bind_eq_error] at he
      refine if_pos ?_
      rcases he with he | ⟨key, -, he⟩
      · rcases Except.bind_eq_error.1 he with he | ⟨_, -, he⟩
        · exact h.isAbsence_of_walk hw he
        · cases he
      · unfold standing at he
        split at he
        · cases he
          rfl
        · split at he
          · cases he
          · cases he
            rfl
  · rfl

/-! ## New directories -/

theorem putDirectory_eq_ok :
    t.putDirectory key = .ok t' ↔ t.node? key = none ∧ t' = t.put key .directory := by
  unfold putDirectory
  cases t.node? key <;> simp [eq_comm]

theorem makeDirectory_eq_ok : t.makeDirectory path = .ok t' ↔ Path.Valid path ∧
    walk t [] (t.place path) = .ok () ∧ t.node? (t.place path) = none ∧
      t' = t.put (t.place path) .directory := by
  rw [makeDirectory, atPlace_eq_ok, putDirectory_eq_ok]

/-- A directory that is there is made without a change. -/
theorem makeDirectories_of_isDirectory (h : t.isDirectory path = true) :
    t.makeDirectories path = (.ok (), t) := by
  obtain ⟨n, hstat, -⟩ := isDirectory_eq_true.1 h
  obtain ⟨hv, hw, hnode, -⟩ := stat_eq_ok.1 hstat
  have hreach : t.reach path = .ok (t.place path) :=
    reach_eq_ok.2 ⟨hv.nonempty, hv.short, hw, rfl⟩
  have hmake : t.makeDirectory path = .error (.refused .fileExists path) := by
    have hput : t.putDirectory (t.place path) = .error .fileExists := by
      rw [putDirectory, hnode]
      rfl
    refine atPlace_eq_error.2 (.inr ⟨Path.fault?_eq_none.2 hv.fit, _, ?_, rfl⟩)
    rw [hreach]
    exact hput
  have hmake' : operations.makeDirectory t path = .error (.refused .fileExists path) := hmake
  rw [makeDirectories, FileOperations.makeDirectories, FileOperations.makeDirectoriesWithin, hmake']
  exact if_pos h

/-- Nothing changes where a directory that can be entered is to be made. -/
theorem makeDirectories_of_hasDirectory (hp : path ≠ []) (h : t.HasDirectory (t.place path)) :
    (t.makeDirectories path).2 = t := by
  by_cases hv : Path.Valid path
  · rw [makeDirectories_of_isDirectory (h.isDirectory hv)]
  · have hmake : ∃ fault, t.makeDirectory path = .error fault ∧
        ∀ p, fault ≠ .refused .noEntry p := by
      rw [makeDirectory, atPlace, FileFault.onPath]
      split
      · exact ⟨_, rfl, nofun⟩
      · rename_i hf
        have hs : Path.isShort path = false := by
          rw [← Bool.not_eq_true]
          exact fun hs => hv ⟨Path.fault?_eq_none.1 hf, hp, hs⟩
        rw [reach, Path.checked, if_neg (by simpa using hp), hs]
        exact ⟨_, rfl, nofun⟩
    obtain ⟨fault, hmake, hne⟩ := hmake
    have hmake' : operations.makeDirectory t path = .error fault := hmake
    rw [makeDirectories, FileOperations.makeDirectories, FileOperations.makeDirectoriesWithin,
      hmake']
    split
    · rename_i p he
      exact absurd (Except.error.inj he) (hne p)
    · unfold FileOperations.settle
      dsimp only
      split <;> rfl

/-- What is made is a directory. -/
theorem isDirectory_of_makeDirectory (h : t.makeDirectory path = .ok t') :
    t'.isDirectory path = true := by
  obtain ⟨hv, hw, hnode, rfl⟩ := makeDirectory_eq_ok.1 h
  have hlacks : t.LacksDirectory (t.place path) := by
    intro n hn
    rw [hnode] at hn
    cases hn
  refine HasDirectory.isDirectory ⟨(KeepsDirectories.put hlacks _).walk hw, ?_⟩ hv
  rw [place_put, node?_put hlacks.ne_nil, if_pos rfl]

/-- **What is made is a directory**, if it is made. -/
theorem isDirectory_of_makeDirectories (h : t.makeDirectories path = (.ok (), t')) :
    t'.isDirectory path = true :=
  FileOperations.isDirectory_of_makeDirectories (fun h => isDirectory_of_makeDirectory h) h

/-! ## Files -/

/-- A file can be written at a path, or is there and can be read. -/
structure CanWrite (t : FileTree) (path : Text) : Prop where
  valid : Path.Valid path
  noSlash : path.endsWith "/" = false
  walk : walk t [] (t.place path) = .ok ()
  node : ∀ n, t.node? (t.place path) = some n → ∃ content, n = .file content

theorem CanWrite.lacksDirectory (h : CanWrite t path) : t.LacksDirectory (t.place path) := by
  intro n hn
  obtain ⟨old, rfl⟩ := h.node n hn
  rfl

/-- A place where a file can be written is not the root. -/
theorem CanWrite.place_ne_nil (h : CanWrite t path) : t.place path ≠ [] := h.lacksDirectory.ne_nil

theorem putFile_eq_ok : t.putFile path content key = .ok t' ↔
    path.endsWith "/" = false ∧ (∀ n, t.node? key = some n → ∃ old, n = .file old) ∧
      t' = t.put key (.file content) := by
  unfold putFile
  constructor
  · intro h
    split at h
    · cases h
    · cases h
    · cases h
    · rename_i old hn
      split at h
      · cases h
      · rename_i hs
        cases h
        refine ⟨by simpa using hs, fun n h => ?_, rfl⟩
        rw [hn, Option.some.injEq] at h
        exact ⟨old, h.symm⟩
    · rename_i hn
      split at h
      · cases h
      · rename_i hs
        cases h
        refine ⟨by simpa using hs, fun n h => ?_, rfl⟩
        rw [hn] at h
        cases h
  · rintro ⟨hs, hn, rfl⟩
    rw [hs]
    cases hnode : t.node? key with
    | none => rfl
    | some n =>
      obtain ⟨old, rfl⟩ := hn n hnode
      rfl

theorem write_eq_ok : t.write path content = .ok t' ↔
    CanWrite t path ∧ t' = t.put (t.place path) (.file content) := by
  rw [write, atPlace_eq_ok, putFile_eq_ok]
  exact ⟨fun ⟨hv, hw, hs, hn, ht⟩ => ⟨⟨hv, hs, hw, hn⟩, ht⟩,
    fun ⟨h, ht⟩ => ⟨h.valid, h.walk, h.noSlash, h.node, ht⟩⟩

/-- A file can be moved from a path that leads to it, to a place where no directory stands. -/
structure CanMove (t : FileTree) (source target : Text) (content : Bytes) : Prop where
  valid : Path.Valid source ∧ Path.Valid target
  walkSource : FileTree.walk t [] (t.place source) = .ok ()
  node : t.node? (t.place source) = some (.file content)
  walk : FileTree.walk t [] (t.place target) = .ok ()
  free : t.LacksDirectory (t.place target)

/-- A place to which a file can be moved is not the root. -/
theorem CanMove.place_ne_nil {source target : Text} (h : CanMove t source target content) :
    t.place target ≠ [] :=
  h.free.ne_nil

theorem any_isDirectory_eq_false :
    (t.node? key).any Node.isDirectory = false ↔ t.LacksDirectory key := by
  unfold LacksDirectory
  cases t.node? key <;> simp

theorem moveNode_eq_ok {old new : List Text} (hf : t.node? old = some (.file content)) :
    t.moveNode old new = .ok t' ↔
      t.LacksDirectory new ∧ t' = (t.remove old).put new (.file content) := by
  rw [← any_isDirectory_eq_false, moveNode, hf]
  have hn : (Node.file content).isDirectory = false := rfl
  simp only [hn, Bool.not_false, Bool.and_true]
  cases (t.node? new).any Node.isDirectory <;> simp [eq_comm]

/-- A move of a file that stands at its source. -/
theorem move_eq_ok {source target : Text} (hf : t.node? (t.place source) = some (.file content)) :
    t.move source target = .ok t' ↔ CanMove t source target content ∧
      t' = (t.remove (t.place source)).put (t.place target) (.file content) := by
  rw [move, FileFault.onPaths_eq_ok]
  simp only [Except.bind_eq_ok, reach_eq_ok]
  constructor
  · rintro ⟨hfit, hfit', _, ⟨hs, hshort, hw, rfl⟩, _, ⟨hs', hshort', hw', rfl⟩, hmove⟩
    obtain ⟨hfree, rfl⟩ := (moveNode_eq_ok hf).1 hmove
    exact ⟨⟨⟨⟨hfit, hs, hshort⟩, hfit', hs', hshort'⟩, hw, hf, hw', hfree⟩, rfl⟩
  · rintro ⟨⟨⟨hv, hv'⟩, hw, -, hw', hfree⟩, rfl⟩
    exact ⟨hv.fit, hv'.fit, _, ⟨hv.nonempty, hv.short, hw, rfl⟩, _,
      ⟨hv'.nonempty, hv'.short, hw', rfl⟩, (moveNode_eq_ok hf).2 ⟨hfree, rfl⟩⟩

theorem CanMove.lacksDirectory_source {source target : Text} (h : CanMove t source target content) :
    t.LacksDirectory (t.place source) := by
  intro n hn
  rw [h.node] at hn
  cases hn
  rfl

/-- A move takes the file away from its source and replaces no directory. -/
theorem CanMove.lacksDirectory_target {source target : Text} (h : CanMove t source target content) :
    (t.remove (t.place source)).LacksDirectory (t.place target) :=
  h.free.remove _

/-- **A file that is written takes no directory away.** -/
theorem KeepsDirectories.write (h : t.write path content = .ok t') : KeepsDirectories t t' := by
  obtain ⟨hc, rfl⟩ := write_eq_ok.1 h
  exact .put hc.lacksDirectory _

/-- **A file that is moved takes no directory away.** -/
theorem KeepsDirectories.move {source target : Text} (h : CanMove t source target content) :
    KeepsDirectories t ((t.remove (t.place source)).put (t.place target) (.file content)) :=
  (KeepsDirectories.remove h.lacksDirectory_source).trans (.put h.lacksDirectory_target _)

/-- The content of a file. -/
theorem read_of_node (hv : Path.Valid path) (hs : path.endsWith "/" = false)
    (hw : walk t [] (t.place path) = .ok ()) (hn : t.node? (t.place path) = some (.file content)) :
    t.read path = .ok content := by
  have hstat : t.stat path = .ok (.file content) := stat_eq_ok.2 ⟨hv, hw, hn, .inr hs⟩
  rw [read, hstat]
  rfl

/-- What is read is the content of a file. -/
theorem stat_of_read (h : t.read path = .ok content) : t.stat path = .ok (.file content) := by
  unfold read at h
  cases hs : t.stat path with
  | error fault =>
    rw [hs] at h
    cases h
  | ok n =>
    rw [hs] at h
    cases n with
    | directory | closed | locked => cases h
    | file content =>
      cases h
      rfl

/-- What is read stands there. -/
theorem node?_of_read (h : t.read path = .ok content) :
    t.node? (t.place path) = some (.file content) :=
  (stat_eq_ok.1 (stat_of_read h)).2.2.1

theorem read_eq_unfit {why : PathFault} :
    t.read path = .error (.unfit why) ↔ Path.fault? path = some why := by
  rw [← stat_eq_unfit (t := t), read]
  cases t.stat path with
  | error fault => simp [bind, Except.bind]
  | ok n => cases n <;> simp [bind, Except.bind, Node.content]

/-- **A text file has no text for want of a proper path** where its path is none. -/
theorem readText_eq_unfit {why : PathFault} :
    t.readText path = .error (.file (.unfit why)) ↔ Path.fault? path = some why := by
  rw [← read_eq_unfit (t := t), readText]
  cases t.read path with
  | error fault => simp
  | ok content => cases hd : Utf8.decode content <;> simp [hd]

/-- The text of a file. -/
theorem readText_of_read {text : Text} (hr : t.read path = .ok content)
    (hd : Utf8.decode content = .ok text) : t.readText path = .ok text.normalizeNewlines := by
  rw [readText, hr]
  dsimp only
  rw [hd]

end FileTree

end SourceAtlas
