import SourceAtlas.Proofs.Indexing.Records

/-!
# The nearest definition of an option

The options that a chain of files comes to are read off the files: each option has the value that the
first file with it gives, and `baseUrl` is understood from the directory of that file.

* `document?`, `declared?`, `extended?`: what one file says;
* `files`: the files that are asked, at most `count`;
* `nearest?`: the first of them that declares an option, and the value there;
* `exists_inherited`, `read_eq_nearest`: one file, a whole chain;
* `read_congr_files`: nothing but the files that are asked matters;
* **`ModulePaths.ofRepository_nearest`**: base and aliases of a repository.
-/

namespace SourceAtlas

namespace FileTree

variable {t : FileTree} {path text : Text}

/-- A file whose text can be read is a file. -/
theorem isFile_of_readText (h : t.readText path = .ok text) : t.isFile path = true := by
  unfold readText at h
  cases hr : t.read path with
  | error fault =>
    rw [hr] at h
    cases h
  | ok content =>
    rw [isFile, stat_of_read hr]
    rfl

/-- No file stands where a text is no path. -/
theorem isFile_of_unfit {why : PathFault} (h : t.readText path = .error (.file (.unfit why))) :
    t.isFile path = false := by
  rw [isFile, stat_eq_unfit.2 (readText_eq_unfit.1 h)]

end FileTree

namespace CompilerOptions

variable {t t' : FileTree} {count : Nat} {path : Text} {o : CompilerOptions}

/-! ## One file -/

/-- The object that a file holds, with comments. -/
def document? (t : FileTree) (path : Text) : Option Json :=
  match t.readText path with
  | .ok text =>
    match Json.read (stripComments text) with
    | .ok (.object ms) => some (.object ms)
    | _ => none
  | .error _ => none

/-- The value that a file itself gives to an option. -/
def declared? (t : FileTree) (key path : Text) : Option Json :=
  ((document? t path).bind (Json.get? "compilerOptions")).bind (Json.get? key)

/-- The file that a file extends. -/
def extended? (t : FileTree) (path : Text) : Option Text :=
  match (document? t path).bind (Json.get? "extends") with
  | some (.text extended) =>
    if isRelative extended then (parentFile (Path.parent path) extended).toOption else none
  | _ => none

theorem document?_congr (h : t'.readText path = t.readText path) :
    document? t' path = document? t path := by
  rw [document?, document?, h]

/-! ## The files that are asked -/

/-- A file, the one it extends, the one that extends, and so on, at most `count` of them. Only the
last one may be no file with an object. -/
def files (t : FileTree) : (count : Nat) → (path : Text) → List Text
  | 0, _ => []
  | count + 1, path => path :: (extended? t path).elim [] (files t count)

theorem length_files_le (t : FileTree) (count : Nat) (path : Text) :
    (files t count path).length ≤ count := by
  induction count generalizing path with
  | zero => exact Nat.le_refl 0
  | succ count ih =>
    rw [files, List.length_cons]
    cases extended? t path with
    | none => exact Nat.le_add_left 1 count
    | some next => exact Nat.succ_le_succ (ih next)

/-- Each file after the first is the one that the file before it extends. -/
theorem getElem?_files_succ {n : Nat} (hn : n + 1 < count) :
    (files t count path)[n + 1]? = (files t count path)[n]?.bind (extended? t) := by
  induction count generalizing path n with
  | zero => omega
  | succ count ih =>
    rw [files, List.getElem?_cons_succ]
    cases n with
    | zero =>
      rw [List.getElem?_cons_zero, Option.bind_some]
      cases extended? t path with
      | none => rfl
      | some next =>
        obtain ⟨count, rfl⟩ : ∃ k, count = k + 1 := ⟨count - 1, by omega⟩
        rfl
    | succ n =>
      rw [List.getElem?_cons_succ]
      cases extended? t path with
      | none => rfl
      | some next => exact ih (Nat.lt_of_succ_lt_succ hn)

/-- The first of the files that declares an option, and the value there. -/
def nearest? (t : FileTree) (count : Nat) (path key : Text) : Option (Text × Json) :=
  (files t count path).findSome? fun f => (declared? t key f).map (Prod.mk f)

theorem nearest?_succ (t : FileTree) (count : Nat) (path key : Text) :
    nearest? t (count + 1) path key = ((declared? t key path).map (Prod.mk path)).or
      ((extended? t path).bind fun next => nearest? t count next key) := by
  rw [nearest?, files, List.findSome?_cons]
  cases declared? t key path with
  | some v => rfl
  | none => cases extended? t path <;> rfl

/-- A file without an object declares nothing, nor does a file that it extends. -/
theorem nearest?_of_none (hd : document? t path = none) (count : Nat) (key : Text) :
    nearest? t (count + 1) path key = none := by
  rw [nearest?_succ, declared?, extended?, hd]
  rfl

/-! ## The options of a chain -/

/-- The options with those that a file itself gives over them. -/
def overlaid (o : CompilerOptions) (t : FileTree) (path : Text) : CompilerOptions where
  baseUrl := (declared? t "baseUrl" path).or o.baseUrl
  paths := (declared? t "paths" path).or o.paths
  baseDirectory :=
    if (declared? t "baseUrl" path).isSome then some (Path.parent path)
    else ((declared? t "__base_dir__" path).map Json.shown).or o.baseDirectory

theorem overlaid_of_none (h : document? t path = none) : o.overlaid t path = o := by
  have hnone (key : Text) : declared? t key path = none := by rw [declared?, h]; rfl
  rw [overlaid, hnone, hnone, hnone]
  rfl

theorem override_eq_overlaid {document : Json} (h : document? t path = some document) :
    (match document.get? "compilerOptions" with
      | some (.object options) => pure (o.override (Path.parent path) (.object options))
      | _ => pure o : Except OptionsFault CompilerOptions) = .ok (o.overlaid t path) := by
  have hdeclared (key : Text) :
      declared? t key path = (document.get? "compilerOptions").bind (Json.get? key) := by
    rw [declared?, h]; rfl
  rw [overlaid, hdeclared, hdeclared, hdeclared]
  cases document.get? "compilerOptions" with
  | none => rfl
  | some v => cases v <;> rfl

/-- What comes of a file without a text: it has no options, unless its path is none. -/
def ofFault : ReadFault → Except OptionsFault CompilerOptions
  | .file (.unfit why) => .error (.file (.unfit why))
  | _ => .ok empty

theorem read_of_error {fault : ReadFault} (h : t.readText path = .error fault) :
    read t (count + 1) path = ofFault fault := by
  rw [read, h]
  cases fault with
  | decoding fault => rfl
  | file fault => cases fault <;> rfl

/-- A file without an object has no options. -/
theorem eq_empty_of_read (hd : document? t path = none) (h : read t (count + 1) path = .ok o) :
    o = empty := by
  unfold document? at hd
  unfold read at h
  split at h
  · cases h
  · cases h
    rfl
  · rename_i text ht
    rw [ht] at hd
    dsimp only at hd
    split at h
    · cases h
    · cases h
      rfl
    · rename_i ms hj
      rw [hj] at hd
      cases hd
    · cases h
      rfl

/-- What a file with an object inherits. -/
def inherited (t : FileTree) (count : Nat) (path : Text) (document : Json) :
    Except OptionsFault CompilerOptions :=
  match document.get? "extends" with
  | some (.text extended) =>
    if isRelative extended ∧ count ≠ 0 then do
      read t count (← parentFile (Path.parent path) extended)
    else .ok empty
  | _ => .ok empty

/-- The options of a file with an object. -/
theorem read_of_document {document : Json} (hd : document? t path = some document) :
    read t (count + 1) path = (inherited t count path document).map (overlaid · t path) := by
  have hoverride (o : CompilerOptions) := override_eq_overlaid (o := o) hd
  unfold document? at hd
  split at hd
  · rename_i text ht
    split at hd
    · rename_i ms hj
      cases hd
      simp only [read, ht, hj, inherited]
      cases (Json.object ms).get? "extends" with
      | none => exact hoverride empty
      | some v =>
        cases v with
        | text extended =>
          dsimp only
          split
          · cases parentFile (Path.parent path) extended with
            | error fault => rfl
            | ok next =>
              change (read t count next >>= _) = (read t count next).map _
              cases read t count next with
              | error fault => rfl
              | ok o => exact hoverride o
          · exact hoverride empty
        | null | bool | int | float | list | object => exact hoverride empty
    · cases hd
  · cases hd

/-- What is inherited are the options of the file that is extended. -/
theorem elim_extended?_of_inherited {document : Json} (hd : document? t path = some document)
    (h : inherited t count path document = .ok o) :
    (extended? t path).elim (.ok empty) (read t count) = .ok o := by
  rw [extended?, hd, Option.bind_some]
  unfold inherited at h
  cases hx : document.get? "extends" with
  | none => rwa [hx] at h
  | some v =>
    rw [hx] at h
    cases v with
    | text extended =>
      dsimp only at h ⊢
      by_cases hr : isRelative extended
      · rw [if_pos hr]
        by_cases hc : count = 0
        · -- No further file is asked, whether or not there is a name for one.
          subst hc
          rw [if_neg (by simp)] at h
          cases parentFile (Path.parent path) extended <;> exact h
        · rw [if_pos ⟨hr, hc⟩] at h
          cases hp : parentFile (Path.parent path) extended with
          | error fault =>
            rw [hp] at h
            cases h
          | ok next => rwa [hp] at h
      · rw [if_neg fun hand => hr hand.1] at h
        rwa [if_neg hr]
    | null | bool | int | float | list | object => exact h

/-- The options of a file over those that it inherits. -/
theorem exists_inherited (h : read t (count + 1) path = .ok o) :
    ∃ below, (extended? t path).elim (.ok empty) (read t count) = .ok below ∧
      o = below.overlaid t path := by
  cases hd : document? t path with
  | none =>
    refine ⟨empty, ?_, ?_⟩
    · rw [extended?, hd]
      rfl
    · rw [overlaid_of_none hd, eq_empty_of_read hd h]
  | some document =>
    rw [read_of_document hd] at h
    cases hi : inherited t count path document with
    | error fault =>
      rw [hi] at h
      cases h
    | ok below =>
      rw [hi] at h
      cases h
      exact ⟨below, elim_extended?_of_inherited hd hi, rfl⟩

/-- The options with their nearest values. -/
def nearestOptions (t : FileTree) (count : Nat) (path : Text) : CompilerOptions where
  baseUrl := (nearest? t count path "baseUrl").map Prod.snd
  paths := (nearest? t count path "paths").map Prod.snd
  baseDirectory := (nearest? t count path "baseUrl").map fun d => Path.parent d.1

/-- The nearest options of a file are its own over the nearest of the file that it extends. -/
theorem nearestOptions_succ (hbase : declared? t "__base_dir__" path = none) :
    nearestOptions t (count + 1) path =
      ((extended? t path).elim empty (nearestOptions t count)).overlaid t path := by
  rw [nearestOptions, nearest?_succ, nearest?_succ, overlaid, hbase]
  cases declared? t "baseUrl" path <;> cases declared? t "paths" path <;>
    cases extended? t path <;> rfl

/-- **Each option has its nearest value**, and the directory is that of the file with `baseUrl`. -/
theorem read_eq_nearest (hbase : ∀ f ∈ files t count path, declared? t "__base_dir__" f = none)
    (h : read t count path = .ok o) :
    o = nearestOptions t count path := by
  induction count generalizing path o with
  | zero =>
    cases h
    rfl
  | succ count ih =>
    obtain ⟨below, hbelow, rfl⟩ := exists_inherited h
    have hfree : declared? t "__base_dir__" path = none := hbase path List.mem_cons_self
    rw [nearestOptions_succ hfree]
    cases hx : extended? t path with
    | none =>
      rw [hx] at hbelow
      cases hbelow
      rfl
    | some next =>
      rw [hx] at hbelow
      have hnext : below = nearestOptions t count next := by
        refine ih (fun f hf => hbase f ?_) hbelow
        rw [files, hx]
        exact List.mem_cons_of_mem path hf
      rw [hnext, Option.elim_some]

/-- What is inherited depends on the file that is extended. -/
theorem inherited_congr {document : Json} (hd : document? t path = some document)
    (h : ∀ next, extended? t path = some next → read t' count next = read t count next) :
    inherited t' count path document = inherited t count path document := by
  rw [extended?, hd, Option.bind_some] at h
  unfold inherited
  cases hx : document.get? "extends" with
  | none => rfl
  | some v =>
    rw [hx] at h
    cases v with
    | text extended =>
      dsimp only at h ⊢
      by_cases hr : isRelative extended ∧ count ≠ 0
      · rw [if_pos hr, if_pos hr]
        rw [if_pos hr.1] at h
        cases hp : parentFile (Path.parent path) extended with
        | error fault => rfl
        | ok next => exact h next (by rw [hp]; rfl)
      · rw [if_neg hr, if_neg hr]
    | null | bool | int | float | list | object => rfl

/-- What comes of a file without an object depends on its text. -/
theorem read_congr_of_none (hd : document? t path = none)
    (h : t'.readText path = t.readText path) :
    read t' (count + 1) path = read t (count + 1) path := by
  cases ht : t.readText path with
  | error fault => rw [read_of_error ht, read_of_error (h.trans ht)]
  | ok text =>
    unfold document? at hd
    unfold read
    rw [h]
    rw [ht] at hd ⊢
    dsimp only at hd ⊢
    cases hj : Json.read (stripComments text) with
    | error fault => cases fault <;> rfl
    | ok v =>
      rw [hj] at hd
      cases v with
      | object ms => cases hd
      | null | bool | int | float | text | list => rfl

/-- **Only the files that are asked matter.** -/
theorem read_congr_files (h : ∀ f ∈ files t count path, t'.readText f = t.readText f) :
    read t' count path = read t count path := by
  induction count generalizing path with
  | zero => rfl
  | succ count ih =>
    have hpath : t'.readText path = t.readText path := h path List.mem_cons_self
    cases hd : document? t path with
    | none => exact read_congr_of_none hd hpath
    | some document =>
      have hd' : document? t' path = some document := (document?_congr hpath).trans hd
      have hbelow : inherited t' count path document = inherited t count path document := by
        refine inherited_congr hd fun next hx => ih fun f hf => h f ?_
        rw [files, hx]
        exact List.mem_cons_of_mem path hf
      have hover (o : CompilerOptions) : o.overlaid t' path = o.overlaid t path := by
        simp only [overlaid, declared?, hd, hd']
      rw [read_of_document hd, read_of_document hd', hbelow]
      exact congrArg (Except.map · _) (funext hover)

end CompilerOptions

/-! ## Where modules are -/

namespace ModulePaths

open CompilerOptions

variable {t t' : FileTree} {root : Text} {p : ModulePaths}

/-- The file in which the options of a repository start. -/
def optionsFile (root : Text) : Text := Path.child root "tsconfig.json"

/-- Where modules are, if it can be told whether the first file is there. -/
theorem ofRepository_of_told (h : t.refusal? (optionsFile root) = none) :
    ofRepository t root = if t.isFile (optionsFile root) then do
      let options ← CompilerOptions.read t maxFiles (optionsFile root)
      let base ← baseOf root options
      let aliases ← aliasesOf (options.paths.getD .null)
      return ⟨base, aliases⟩
    else .ok ⟨root, []⟩ := by
  unfold ofRepository
  dsimp only
  rw [← optionsFile, h]

/-- It can be told whether the first file is there, if it is known where modules are. -/
theorem refusal?_of_ofRepository (h : ofRepository t root = .ok p) :
    t.refusal? (optionsFile root) = none := by
  unfold ofRepository at h
  dsimp only at h
  rw [← optionsFile] at h
  split at h
  · cases h
  · assumption

/-- Where modules are, if the first file has no text. -/
theorem ofRepository_of_error {fault : ReadFault} (hnone : t.refusal? (optionsFile root) = none)
    (h : t.readText (optionsFile root) = .error fault) : ofRepository t root = .ok ⟨root, []⟩ := by
  rw [ofRepository_of_told hnone]
  split
  · rename_i hfile
    rw [maxFiles, read_of_error h]
    unfold ofFault
    split
    · rw [FileTree.isFile_of_unfit h] at hfile
      cases hfile
    · rfl
  · rfl

/-- Where modules are, if the first file has a text. -/
theorem ofRepository_of_ok {text : Text} (h : t.readText (optionsFile root) = .ok text) :
    ofRepository t root = do
      let options ← CompilerOptions.read t maxFiles (optionsFile root)
      let base ← baseOf root options
      let aliases ← aliasesOf (options.paths.getD .null)
      return ⟨base, aliases⟩ := by
  have hfile := FileTree.isFile_of_readText h
  rw [ofRepository_of_told (FileTree.refusal?_of_isFile hfile), if_pos hfile]

/-- **Only the files that are asked matter**, and whether it can be told that the first is there. -/
theorem ofRepository_congr (hnone : t.refusal? (optionsFile root) = none)
    (hnone' : t'.refusal? (optionsFile root) = none)
    (h : ∀ f ∈ files t maxFiles (optionsFile root), t'.readText f = t.readText f) :
    ofRepository t' root = ofRepository t root := by
  have hfirst : t'.readText (optionsFile root) = t.readText (optionsFile root) :=
    h _ List.mem_cons_self
  cases ht : t.readText (optionsFile root) with
  | error fault => rw [ofRepository_of_error hnone ht, ofRepository_of_error hnone' (hfirst.trans ht)]
  | ok text => rw [ofRepository_of_ok ht, ofRepository_of_ok (hfirst.trans ht), read_congr_files h]

/-- The paths that are found are those of the nearest options. -/
theorem ofRepository_nearestOptions
    (hbase : ∀ f ∈ files t maxFiles (optionsFile root), declared? t "__base_dir__" f = none)
    (h : ofRepository t root = .ok p) :
    baseOf root (nearestOptions t maxFiles (optionsFile root)) = .ok p.base ∧
      aliasesOf ((nearestOptions t maxFiles (optionsFile root)).paths.getD .null) =
        .ok p.aliases := by
  cases ht : t.readText (optionsFile root) with
  | error fault =>
    have hd : document? t (optionsFile root) = none := by rw [document?, ht]
    cases (ofRepository_of_error (refusal?_of_ofRepository h) ht).symm.trans h
    rw [nearestOptions, maxFiles, nearest?_of_none hd, nearest?_of_none hd]
    exact ⟨rfl, rfl⟩
  | ok text =>
    rw [ofRepository_of_ok ht] at h
    obtain ⟨o, ho, h⟩ := Except.bind_eq_ok.1 h
    obtain ⟨base, hb, h⟩ := Except.bind_eq_ok.1 h
    obtain ⟨aliases, ha, h⟩ := Except.bind_eq_ok.1 h
    cases h
    rw [read_eq_nearest hbase ho] at hb ha
    exact ⟨hb, ha⟩

/-- What the base is, by the value that counts and the directory of its file. -/
theorem base_of_nearest {path base : Text}
    (h : baseOf root (nearestOptions t maxFiles path) = .ok base) :
    match nearest? t maxFiles path "baseUrl" with
    | some (f, v) =>
      if v.isTruthy then ∃ url, v = .text url ∧ base = Path.resolveFrom (Path.parent f) url
      else base = root
    | none => base = root := by
  unfold nearestOptions baseOf at h
  cases hn : nearest? t maxFiles path "baseUrl" with
  | none =>
    rw [hn] at h
    cases h
    rfl
  | some d =>
    obtain ⟨f, v⟩ := d
    rw [hn] at h
    dsimp only [Option.map_some] at h ⊢
    cases v with
    | text url =>
      cases url with
      | nil =>
        cases h
        rw [if_neg (show ¬(Json.text []).isTruthy = true by decide)]
      | cons c url =>
        cases h
        rw [if_pos (by rfl)]
        exact ⟨_, rfl, Path.tidy_normalize _⟩
    | null | bool | int | float | list | object =>
      dsimp only at h
      split at h
      · cases h
      · rename_i hfalsy
        cases h
        rw [if_neg hfalsy]

/-- A value of `paths` that gives an alias: a text or a list. -/
def isTarget : Json → Bool
  | .text _ | .list _ => true
  | _ => false

/-- The alias that a member of `paths` gives: a text is its one target, and of a list each item is
one. -/
inductive Gives : Text × Json → Alias → Prop
  | text (pattern target : Text) : Gives (pattern, .text target) ⟨pattern, [target]⟩
  | list (pattern : Text) (items : List Json) :
      Gives (pattern, .list items) ⟨pattern, items.map Json.shown⟩

/-- **Each text and each list gives its alias**, in order, and other members give none. -/
theorem gives_filterMap (ms : List (Text × Json)) :
    List.Forall₂ Gives (ms.filter fun m => isTarget m.2) (ms.filterMap aliasOf?) := by
  induction ms with
  | nil => exact .nil
  | cons m ms ih =>
    obtain ⟨pattern, v⟩ := m
    cases v with
    | text target => exact .cons (.text pattern target) ih
    | list items => exact .cons (.list pattern items) ih
    | null | bool | int | float | object => exact ih

/-- What the aliases are, by the value that counts. -/
theorem aliases_of_nearest {path : Text} {aliases : List Alias}
    (h : aliasesOf ((nearestOptions t maxFiles path).paths.getD .null) = .ok aliases) :
    match nearest? t maxFiles path "paths" with
    | some (_, v) =>
      if v.isTruthy then ∃ ms, v = .object ms ∧
        List.Forall₂ Gives (ms.filter fun m => isTarget m.2) aliases
      else aliases = []
    | none => aliases = [] := by
  unfold nearestOptions at h
  cases hn : nearest? t maxFiles path "paths" with
  | none =>
    rw [hn] at h
    cases h
    rfl
  | some d =>
    obtain ⟨f, v⟩ := d
    rw [hn] at h
    dsimp only [Option.map_some, Option.getD_some] at h ⊢
    unfold aliasesOf at h
    cases v with
    | object ms =>
      cases h
      cases ms with
      | nil => rfl
      | cons m ms =>
        rw [if_pos (by rfl)]
        exact ⟨_, rfl, gives_filterMap _⟩
    | null | bool | int | float | text | list =>
      dsimp only at h
      split at h
      · cases h
      · rename_i hfalsy
        cases h
        rw [if_neg hfalsy]

/-- **The nearest definitions count.** The files that are asked are `tsconfig.json` and what the files
extend one after another, at most six, and no other file matters where it can be told whether the
first is there. Where no file among them gives `__base_dir__`, the paths that are found are those of
the nearest definitions: the base is the nearest `baseUrl` as seen from the directory of its file, or
the root if that is falsy or missing; each text and each list among the members of the nearest `paths`
gives an alias, in order, and no other member does. The trees are those of `FileTree`. -/
theorem ofRepository_nearest
    (hbase : ∀ f ∈ files t maxFiles (optionsFile root), declared? t "__base_dir__" f = none)
    (h : ofRepository t root = .ok p) :
    (match nearest? t maxFiles (optionsFile root) "baseUrl" with
      | some (f, v) =>
        if v.isTruthy then ∃ url, v = .text url ∧ p.base = Path.resolveFrom (Path.parent f) url
        else p.base = root
      | none => p.base = root) ∧
    (match nearest? t maxFiles (optionsFile root) "paths" with
      | some (_, v) =>
        if v.isTruthy then ∃ ms, v = .object ms ∧
          List.Forall₂ Gives (ms.filter fun m => isTarget m.2) p.aliases
        else p.aliases = []
      | none => p.aliases = []) ∧
    (files t maxFiles (optionsFile root)).length ≤ 6 ∧
    (∀ n, n + 1 < 6 → (files t maxFiles (optionsFile root))[n + 1]? =
      (files t maxFiles (optionsFile root))[n]?.bind (extended? t)) ∧
    ∀ t' : FileTree, t'.refusal? (optionsFile root) = none →
      (∀ f ∈ files t maxFiles (optionsFile root), t'.readText f = t.readText f) →
      ofRepository t' root = .ok p := by
  obtain ⟨hb, ha⟩ := ofRepository_nearestOptions hbase h
  exact ⟨base_of_nearest hb, aliases_of_nearest ha, length_files_le _ _ _,
    fun n hn => getElem?_files_succ hn,
    fun t' hnone ht' => (ofRepository_congr (refusal?_of_ofRepository h) hnone ht').trans h⟩

/-- The members of an object that give aliases, each with its target if that is a text. -/
def targets : Json → List (Text × Option Text)
  | .object ms => (ms.filter fun m => isTarget m.2).map fun m => (m.1, m.2.text?)
  | _ => []

/-- Two files that extend each other, so that six are asked. The number among the paths is passed
over. -/
theorem ofRepository_nearest_cycle :
    let t : FileTree := ⟨[(["r"], .directory), (["r", "config"], .directory),
      (["r", "tsconfig.json"], .file (Utf8.encode ("\x7b\"extends\": \"./config/base\", " ++
        "\"compilerOptions\": \x7b\"paths\": \x7b\"@/*\": \"a/*\", \"n\": 1\x7d\x7d\x7d"))),
      (["r", "config", "base.json"], .file (Utf8.encode ("\x7b\"extends\": \"../tsconfig.json\", " ++
        "\"compilerOptions\": \x7b\"baseUrl\": \"src\"\x7d\x7d")))], "/"⟩
    (∀ f ∈ files t maxFiles (optionsFile "/r"), declared? t "__base_dir__" f = none) ∧
      (files t maxFiles (optionsFile "/r")).length = 6 ∧
      ∃ p, ofRepository t "/r" = .ok p ∧ p.base = Text.ofString "/r/config/src" ∧
        p.aliases = [⟨"@/*", [Text.ofString "a/*"]⟩] := by
  intro t
  have hbase : ∀ f ∈ files t maxFiles (optionsFile "/r"), declared? t "__base_dir__" f = none := by
    decide +kernel
  have hsome : (ofRepository t "/r").toOption.isSome = true := by decide +kernel
  have hurl : (nearest? t maxFiles (optionsFile "/r") "baseUrl").map
      (fun d => (d.1, d.2.shown, d.2.isTruthy)) =
      some (Text.ofString "/r/config/base.json", Text.ofString "src", true) := by decide +kernel
  have hpaths : (nearest? t maxFiles (optionsFile "/r") "paths").map (fun d => targets d.2) =
      some [(Text.ofString "@/*", some (Text.ofString "a/*"))] := by decide +kernel
  refine ⟨hbase, by decide +kernel, ?_⟩
  obtain ⟨p, hp⟩ := Option.isSome_iff_exists.1 hsome
  have hp := Except.toOption_eq_some.1 hp
  obtain ⟨hnearest, haliases, -⟩ := ofRepository_nearest hbase hp
  refine ⟨p, hp, ?_, ?_⟩
  · obtain ⟨⟨f, v⟩, hd, hv⟩ := Option.map_eq_some_iff.1 hurl
    obtain ⟨rfl, hshown, htruthy⟩ : f = Text.ofString "/r/config/base.json" ∧
        v.shown = Text.ofString "src" ∧ v.isTruthy = true := by simpa using hv
    rw [hd] at hnearest
    dsimp only at hnearest
    rw [if_pos htruthy] at hnearest
    obtain ⟨url, rfl, hplace⟩ := hnearest
    rw [hplace, show url = Text.ofString "src" from hshown]
    decide +kernel
  · obtain ⟨⟨f, v⟩, hd, hv⟩ := Option.map_eq_some_iff.1 hpaths
    rw [hd] at haliases
    dsimp only at haliases hv
    cases v with
    | object ms =>
      obtain ⟨⟨pattern, v⟩, hone, hv⟩ := List.map_eq_singleton_iff.1 hv
      obtain ⟨rfl, htarget⟩ := Prod.mk.inj hv
      have htruthy : (Json.object ms).isTruthy = true := by
        cases ms with
        | nil => cases hone
        | cons m ms => rfl
      rw [if_pos htruthy] at haliases
      obtain ⟨ms, ⟨⟩, hgives⟩ := haliases
      rw [hone, List.forall₂_cons_left_iff] at hgives
      obtain ⟨a, rest, hgive, hrest, haliases⟩ := hgives
      rw [haliases, List.forall₂_nil_left_iff.1 hrest]
      cases hgive with
      | text =>
        cases htarget
        rfl
      | list => cases htarget
    | null | bool | int | float | text | list => cases hv

end ModulePaths

end SourceAtlas
