import SourceAtlas.Proofs.Indexing.Records
import SourceAtlas.Proofs.Path.Names
import SourceAtlas.Proofs.Store.Artifacts
import SourceAtlas.Proofs.Store.Frames

/-!
# Trees that differ in one file

A file may change its content, or be locked or unlocked, and all else stays. What depends on it is
the text that is read at its place alone: what is there, where modules are found, and the options of
a repository do not.

* `FileTree.SameExcept`: two trees that differ in one file;
* `FileTree.SameExcept.isFile`, `isDirectory`, `present`, `refusal?`,
  **`FileTree.SameExcept.readText`**: what they agree on;
* `Resolver.resolve_congr`, `resolveReference_congr`: resolution asks for what is there alone;
* `CompilerOptions.endsWith_parentFile`, `CompilerOptions.read_congr`: options are read from files
  whose names end with `.json`;
* **`FileTree.SameExcept.ofRepository`**: the options of a repository do not depend on a file with
  another extension.
-/

namespace SourceAtlas

namespace FileTree

variable {t u : FileTree} {key k : List Text} {path : Text}

/-! ## What stands at one place -/

/-- The trees differ in one file at most: in its content, and in whether it can be opened. -/
structure SameExcept (key : List Text) (t u : FileTree) : Prop where
  current : u.current = t.current
  node : ∀ k, k ≠ key → u.node? k = t.node? k
  before : ∃ n, t.node? key = some n ∧ n.isDirectory = false
  after : ∃ n, u.node? key = some n ∧ n.isDirectory = false

/-- A file takes the place of a file. -/
theorem sameExcept_put {n : Node} (hk : key ≠ [])
    (h : ∃ m, t.node? key = some m ∧ m.isDirectory = false) (hn : n.isDirectory = false) :
    SameExcept key t (t.put key n) := by
  refine ⟨rfl, fun k hne => ?_, h, n, by rw [node?_put hk, if_pos rfl], hn⟩
  by_cases hnil : k = []
  · rw [hnil, node?_nil, node?_nil]
  · rw [node?_put hnil, if_neg hne]

/-- Below a file there is nothing to enter. -/
theorem enter_of_file {n : Node} (hn : n.isDirectory = false) (c : Text) :
    enter (some n) c = .error .notADirectory := by
  cases n with
  | directory | closed => cases hn
  | file content => rfl
  | locked => rfl

namespace SameExcept

theorem place (h : SameExcept key t u) (path : Text) : u.place path = t.place path :=
  place_of_current h.current path

/-- The same ways are open: where the file stands, no way leads on. -/
theorem walk (h : SameExcept key t u) (done rest : List Text) :
    u.walk done rest = t.walk done rest := by
  induction rest generalizing done with
  | nil => rfl
  | cons c cs ih =>
    rw [FileTree.walk, FileTree.walk, ih]
    by_cases hk : done = key
    · obtain ⟨n, hn, hne⟩ := h.before
      obtain ⟨m, hm, hme⟩ := h.after
      rw [hk, hn, hm, enter_of_file hne, enter_of_file hme]
    · rw [h.node done hk]

/-- **A path leads to the same**, or to the file in both trees. -/
theorem stat (h : SameExcept key t u) (path : Text) : u.stat path = t.stat path ∨
    ∃ n m, u.stat path = .ok n ∧ t.stat path = .ok m ∧ n.isDirectory = false ∧
      m.isDirectory = false := by
  have hw := h.walk [] (t.place path)
  by_cases hk : t.place path = key
  · have hreach : u.reach path = t.reach path := by rw [reach, reach, h.place, hw]
    obtain ⟨m, hm, hme⟩ := h.before
    obtain ⟨n, hn, hne⟩ := h.after
    rw [FileTree.stat, FileTree.stat, atPlace, atPlace, hreach]
    cases hkey : t.reach path with
    | error why => exact .inl rfl
    | ok k =>
      obtain rfl : k = key := (reach_eq_ok.1 hkey).2.2.2.trans hk
      simp only [bind, Except.bind, standing, hn, hm, hne, hme, Bool.false_or]
      cases path.endsWith "/" with
      | true => exact .inl rfl
      | false =>
        unfold FileFault.onPath
        cases Path.fault? path with
        | some why => exact .inl rfl
        | none => exact .inr ⟨n, m, rfl, rfl, hne, hme⟩
  · exact .inl (stat_congr (h.place path) hw (h.node _ hk))

theorem isFile (h : SameExcept key t u) : u.isFile = t.isFile := by
  funext path
  rw [FileTree.isFile, FileTree.isFile]
  rcases h.stat path with he | ⟨n, m, hn, hm, hne, hme⟩
  · rw [he]
  · rw [hn, hm]
    exact congrArg not (hne.trans hme.symm)

theorem isDirectory (h : SameExcept key t u) : u.isDirectory = t.isDirectory := by
  funext path
  rw [FileTree.isDirectory, FileTree.isDirectory]
  rcases h.stat path with he | ⟨n, m, hn, hm, hne, hme⟩
  · rw [he]
  · rw [hn, hm]
    exact hne.trans hme.symm

theorem present (h : SameExcept key t u) : u.present = t.present := by
  funext path
  rw [FileTree.present, FileTree.present]
  rcases h.stat path with he | ⟨n, m, hn, hm, -⟩
  · rw [he]
  · rw [hn, hm]

theorem refusal? (h : SameExcept key t u) : u.refusal? = t.refusal? := by
  funext path
  rcases h.stat path with he | ⟨n, m, hn, hm, -⟩
  · rw [FileTree.refusal?, FileTree.refusal?, he]
  · rw [refusal?_of_stat hn, refusal?_of_stat hm]

/-- **Every other file reads the same.** -/
theorem readText (h : SameExcept key t u) (hp : t.place path ≠ key) :
    u.readText path = t.readText path := by
  rw [FileTree.readText, FileTree.readText,
    read_congr (h.place path) (h.walk [] (t.place path)) (h.node _ hp)]

end SameExcept

end FileTree

/-! ## Resolution -/

theorem Resolver.resolve_congr {t u : FileTree} (h : u.isFile = t.isFile) (r : Resolver) :
    r.resolve u = r.resolve t := by
  have hprobe : r.probe u = r.probe t := by
    funext candidate
    rw [probe, probe, h]
  have halias : r.probeAlias u = r.probeAlias t := by
    funext specifier a
    rw [probeAlias, probeAlias, hprobe]
  funext specifier fromFile
  rw [resolve, resolve, hprobe, halias]

theorem resolveReference_congr {t u : FileTree} (h : u.present = t.present) :
    resolveReference u = resolveReference t := by
  funext reference fromFile
  rw [resolveReference, resolveReference, h]

/-! ## Options -/

namespace CompilerOptions

variable {t u : FileTree} {directory extended path : Text}

/-- **The name of a file with options** ends with `.json`. -/
theorem endsWith_parentFile (h : parentFile directory extended = .ok path) :
    (Path.fileName path).endsWith ".json" = true := by
  unfold parentFile at h
  dsimp only at h
  generalize Path.tidy (Path.resolveFrom directory extended) = p at h
  split at h
  · rename_i hs
    cases h
    unfold Path.suffix at hs
    split at hs
    · rename_i a b hcut
      split at hs
      · cases hs
      · rw [(Text.cutLast?_eq_some.1 hcut).1, Text.endsWith_iff]
        exact ⟨a, congrArg (a ++ ·) hs.symm⟩
    · cases hs
  · split at h
    · rename_i q hq
      cases h
      have hjson : (Text.ofString ".json").length = 5 := by decide
      have hname : Path.IsName (Path.fileName p ++ ".json") := by
        refine Path.isName_of_length ?_ ?_
        · rw [List.length_append, hjson]
          omega
        · rw [List.mem_append, not_or]
          exact ⟨Path.noSlash_fileName p, by decide⟩
      rw [Path.fileName_withFileName hname.toIsComponent hq, Text.endsWith_iff]
      exact List.suffix_append _ _
    · cases h

/-- **Options are the same** where the files with names that end with `.json` read the same. -/
theorem read_congr
    (h : ∀ p, (Path.fileName p).endsWith ".json" = true → u.readText p = t.readText p) (count : Nat)
    {path : Text} (hp : (Path.fileName path).endsWith ".json" = true) :
    read u count path = read t count path := by
  induction count generalizing path with
  | zero => rfl
  | succ count ih =>
    have hparent : ∀ (directory extended : Text)
        (k : CompilerOptions → Except OptionsFault CompilerOptions),
        (parentFile directory extended >>= fun p => read u count p >>= k) =
          parentFile directory extended >>= fun p => read t count p >>= k := by
      intro directory extended k
      cases hf : parentFile directory extended with
      | error fault => rfl
      | ok p => exact congrArg (· >>= k) (ih (endsWith_parentFile hf))
    rw [read, read, h path hp]
    simp only [hparent]

end CompilerOptions

namespace FileTree.SameExcept

variable {t u : FileTree} {root f : Text}

/-- A file with options stands somewhere else than a file with another extension. -/
theorem place_ne {p q e e' : Text} (hp : (Path.fileName p).endsWith e = true)
    (hq : (Path.fileName q).endsWith e' = true) (hl : 2 < e.length) (hl' : e.length ≤ e'.length)
    (hne : e'.endsWith e = false) : t.place q ≠ t.place p := by
  intro he
  have hlast := getLast?_place (t := t) (Path.isName_fileName (e := e') (by omega) hq)
  rw [he, getLast?_place (Path.isName_fileName hl hp), Option.some.injEq] at hlast
  rw [Text.endsWith_iff] at hp hq
  have hsuffix : e <:+ e' := List.suffix_of_suffix_length_le (hlast ▸ hp) hq hl'
  rw [Text.endsWith_iff.2 hsuffix] at hne
  cases hne

/-- **Where modules are** does not depend on what a source file holds. -/
theorem ofRepository (h : SameExcept (t.place f) t u) (hf : (Path.fileName f).endsWith ".ts" = true)
    (root : Text) : ModulePaths.ofRepository u root = ModulePaths.ofRepository t root := by
  have hread : ∀ p, (Path.fileName p).endsWith ".json" = true → u.readText p = t.readText p :=
    fun p hp => h.readText (place_ne hf hp (by decide) (by decide) (by decide))
  have hname : Path.IsComponent "tsconfig.json" :=
    (Path.isName_of_length (by decide) (by decide)).toIsComponent
  unfold ModulePaths.ofRepository
  dsimp only
  rw [h.isFile, h.refusal?, CompilerOptions.read_congr hread]
  rw [Path.fileName_child hname]
  decide

end FileTree.SameExcept

end SourceAtlas
