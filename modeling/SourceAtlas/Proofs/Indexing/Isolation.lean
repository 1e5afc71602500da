import SourceAtlas.Proofs.Indexing.OneFile
import SourceAtlas.Proofs.Scalars

/-!
# Files that fail on their own

Each source file has its record, whatever becomes of other files. A file that cannot be read, one
whose structure cannot be taken, and one whose references cannot be found lose what depends on it,
and no other file is touched.

* `Text.mem_of_mem_lines`, `Indexer.isFit_of_mem_listed`: names in a text that was decoded;
* `Extractor.arguments`, `Extractor.ofParser_congr`, **`Extractor.ofParser_of_error`**: what the
  search for references has a part in, for every parser;
* `Indexer.recordAt_congr`: a record depends on the text of its file alone, besides what is there;
* `Indexer.SameRecordsExcept`, `Indexer.exists_index_of_sameExcept`: two runs that differ in one
  file;
* **`Indexer.index_isolated`**: all of it, for the index of a repository.
-/

namespace SourceAtlas

/-! ## Names that are listed -/

/-- The points of the lines of a text stand in the text. -/
theorem Text.mem_of_mem_lines {t l : Text} {p : Point} (h : l ∈ lines t) (hp : p ∈ l) : p ∈ t := by
  fun_induction lines t generalizing l with
  | case1 => cases h
  | case2 t ih =>
    rcases List.mem_cons.1 h with rfl | h
    · cases hp
    · exact List.mem_cons_of_mem _ (List.mem_cons_of_mem _ (ih h hp))
  | case3 d t hd ih =>
    rcases List.mem_cons.1 h with rfl | h
    · cases hp
    · exact List.mem_cons_of_mem _ (ih h hp)
  | case4 =>
    rw [List.mem_singleton.1 h] at hp
    cases hp
  | case5 c t hc he ih =>
    rcases List.mem_cons.1 h with rfl | h
    · cases hp
    · exact List.mem_cons_of_mem _ (ih h hp)
  | case6 c t hc he hl ih =>
    rw [List.mem_singleton.1 h] at hp
    exact List.mem_cons.2 (.inl (List.mem_singleton.1 hp))
  | case7 c t hc he m ms hl ih =>
    rw [hl] at ih
    rcases List.mem_cons.1 h with rfl | h
    · rcases List.mem_cons.1 hp with rfl | hp
      · exact List.mem_cons_self
      · exact List.mem_cons_of_mem _ (ih List.mem_cons_self hp)
    · exact List.mem_cons_of_mem _ (ih (List.mem_cons_of_mem _ h) hp)

theorem Repository.listed_subset {excluded : List Text} {stdout f : Text}
    (h : f ∈ listed excluded stdout) : f ∈ Text.lines stdout :=
  List.mem_of_mem_filter (List.mem_of_mem_filter h)

/-! ## References that cannot be found -/

theorem ReferenceFinder.all_congr {finder finder' : ReferenceFinder} {texts : List Text}
    (h : ∀ a ∈ texts, finder' a = finder a) : finder'.all texts = finder.all texts := by
  induction texts with
  | nil => rfl
  | cons a texts ih =>
    rw [all, all, h a List.mem_cons_self, ih fun b hb => h b (List.mem_cons_of_mem a hb)]

namespace Extractor

variable {parse : Bytes → Tree} {finder finder' : ReferenceFinder} {fileName source message : Text}

/-- The decorator arguments of a source, in which references are looked for. -/
def arguments (parse : Bytes → Tree) (source : Text) : List Text :=
  let octets := Utf8.encode source
  decoratorArguments (Tree.classOutlines octets (parse octets))

/-- What is taken from a source whose references cannot be found. -/
def withoutReferences (parse : Bytes → Tree) (source message : Text) : Extraction :=
  let octets := Utf8.encode source
  let tree := parse octets
  { functions := Tree.functionOutlines octets tree
    classes := Tree.classOutlines octets tree
    interfaces := Tree.interfaceOutlines octets tree
    imports := Tree.importSpecifiers octets tree
    references := []
    compiled := Erasure.erase octets tree
    faults := [⟨.decoratorReferences, message⟩] }

/-- Only the arguments of a source tell how its references are found. -/
theorem ofParser_congr (h : ∀ a ∈ arguments parse source, finder' a = finder a) :
    ofParser parse finder' fileName source = ofParser parse finder fileName source := by
  unfold ofParser Utf8.encode?
  split
  · rw [Option.map_some, Option.map_some, Extraction.ofTree, Extraction.ofTree]
    rw [show finder'.all (decoratorArguments _) = _ from ReferenceFinder.all_congr h]
  · rfl

/-- **References that cannot be found** leave all other parts as they are. -/
theorem ofParser_of_error (hs : source.isScalar = true)
    (he : finder.all (arguments parse source) = .error message) :
    ofParser parse finder fileName source = some (withoutReferences parse source message) := by
  unfold ofParser Utf8.encode?
  rw [if_pos hs, Option.map_some, Extraction.ofTree]
  rw [show finder.all (decoratorArguments _) = _ from he]
  rfl

end Extractor

namespace Indexer

open FileTree (SameExcept)

variable {indexer : Indexer} {host : Host} {t u : FileTree} {repository root f : Text}
  {resolver : Resolver} {files : List Text} {i : Index}

/-! ## Two runs -/

theorem recordOf_congr (hfile : u.isFile = t.isFile) (hpresent : u.present = t.present) :
    recordOf u = recordOf t := by
  funext resolver root fileName source e
  rw [recordOf, recordOf, Resolver.resolve_congr hfile, resolveReference_congr hpresent]

/-- **A record depends on the text of its file**, and otherwise on what is there alone. -/
theorem recordAt_congr {indexer' : Indexer} {p : Text} (hfile : u.isFile = t.isFile)
    (hpresent : u.present = t.present) (hread : u.readText p = t.readText p)
    (he : ∀ source, t.readText p = .ok source →
      indexer'.extractor p source = indexer.extractor p source) :
    indexer'.recordAt u resolver root p = indexer.recordAt t resolver root p := by
  cases hp : t.readText p with
  | error fault => rw [recordAt_unreadable hp, recordAt_unreadable (hread.trans hp)]
  | ok source =>
    cases hx : indexer.extractor p source with
    | none => rw [recordAt_none hp hx, recordAt_none (hread.trans hp) ((he source hp).trans hx)]
    | some e =>
      rw [recordAt_some hp hx, recordAt_some (hread.trans hp) ((he source hp).trans hx),
        recordOf_congr hfile hpresent]

/-- Records of the same files, which are the same but for the file at a place. -/
def SameRecordsExcept (t : FileTree) (key : List Text) (rs rs' : List SourceRecord) : Prop :=
  List.Forall₂ (fun r r' => r'.fileName = r.fileName ∧ (t.place r.fileName ≠ key → r' = r)) rs rs'

/-- The path of a source file ends with the extension. -/
theorem endsWith_fileName_of_mem_sources {p : Text} (hext : indexer.sourceExtension = ".ts")
    (hp : p ∈ indexer.sources root files) : (Path.fileName p).endsWith ".ts" = true := by
  obtain ⟨f, -, hf, rfl⟩ := mem_sources.1 hp
  rw [hext] at hf
  obtain ⟨hends, hne⟩ := Path.endsWith_fileName (by decide) (by decide) hf
  rwa [Path.fileName_child_of_ne_nil hne]

/-- The two runs of a repository of which one source file differs, in what it holds or in what is
taken from it. -/
theorem exists_index_of_sameExcept {extractor : Extractor} (hext : indexer.sourceExtension = ".ts")
    (hi : indexer.index host t repository = .ok i)
    (hf : f ∈ i.records.map SourceRecord.fileName) (hu : SameExcept (t.place f) t u)
    (hgit : host.git u i.repository = host.git t i.repository)
    (he : ∀ p ∈ i.records.map SourceRecord.fileName, t.place p ≠ t.place f →
      ∀ source, t.readText p = .ok source → extractor p source = indexer.extractor p source) :
    ∃ j, { indexer with extractor }.index host u repository = .ok j ∧ j.files = i.files ∧
      SameRecordsExcept t (t.place f) i.records j.records := by
  obtain ⟨root, files, paths, hroot, hfiles, hpaths, hfit, rfl⟩ := index_eq_ok.1 hi
  rw [map_fileName_recordAt] at hf he
  refine ⟨_, index_eq_ok.2 ⟨root, files, paths, ?_, ?_, ?_, hfit, rfl⟩, rfl, ?_⟩
  · rwa [rootOf, hu.current]
  · obtain ⟨hd, stdout, stderr, hg, hl⟩ := Repository.trackedFiles_eq_ok.1 hfiles
    exact Repository.trackedFiles_eq_ok.2 ⟨hu.isDirectory ▸ hd, stdout, stderr, hgit.trans hg, hl⟩
  · rw [hu.ofRepository (endsWith_fileName_of_mem_sources hext hf), hpaths]
  · rw [SameRecordsExcept, List.forall₂_map_left_iff, List.forall₂_map_right_iff]
    refine List.forall₂_same.2 fun p hp => ?_
    rw [fileName_recordAt, fileName_recordAt]
    exact ⟨rfl, fun hne => recordAt_congr hu.isFile hu.present (hu.readText hne) (he p hp hne)⟩

/-! ## One run -/

/-- The names that a decoded text lists are fit for paths if they do not hold the point zero. -/
theorem isFit_of_mem_listed {excluded : List Text} {stdout : Text} (hs : stdout.isScalar = true)
    (hf : f ∈ Repository.listed excluded stdout) (hz : f.has Point.zero = false) :
    Path.isFit f = true := by
  refine List.all_eq_true.2 fun p hp => ?_
  have hmem : p ∈ stdout := Text.mem_of_mem_lines (Repository.listed_subset hf) hp
  have hscalar : p.isSurrogate = false := by simpa using List.all_eq_true.1 hs p hmem
  have hne : p ≠ Point.zero := fun he => Text.has_eq_false_iff.1 hz (he ▸ hp)
  simp [Point.isFit, Point.isLoneHalf, hscalar, hne]

/-- **Files fail on their own.** Where the tracked files of a repository are listed by a text that
was decoded and holds no point zero in a name, and its options can be read, each source file has a
record, in the order of the listing. The record of a file that cannot be read is bare, that of a file
without structure has its text besides, and that of a file whose references cannot be found has all
but these, whatever the parser. A run in which one file differs, in what it holds, in what is taken
from it, or in whether its references can be found, has the same records of all other files. The trees
are those of `FileTree`. -/
theorem index_isolated (indexer : Indexer) (host : Host) (t : FileTree)
    (repository root stdout stderr : Text) (paths : ModulePaths)
    (hext : indexer.sourceExtension = ".ts") (hroot : rootOf host t repository = .ok root)
    (hdir : t.isDirectory root = true) (hgit : host.git t root = .finished stdout stderr 0)
    (hdecoded : stdout.isScalar = true)
    (hzero : ∀ f ∈ Repository.listed indexer.excluded stdout, f.has Point.zero = false)
    (hpaths : ModulePaths.ofRepository t root = .ok paths) :
    let sources :=
      ((Repository.listed indexer.excluded stdout).filter fun f => f.endsWith ".ts").map
        (Path.child root)
    ∃ i, indexer.index host t repository = .ok i ∧
      i.records.map SourceRecord.fileName = sources ∧
      (∀ r ∈ i.records, ∀ fault, t.readText r.fileName = .error fault →
        r = .bare root r.fileName) ∧
      (∀ r ∈ i.records, ∀ source, t.readText r.fileName = .ok source →
        indexer.extractor r.fileName source = none →
          r = { SourceRecord.bare root r.fileName with sourceCode := source }) ∧
      (∀ parse finder, indexer.extractor = .ofParser parse finder → ∀ r ∈ i.records,
        ∀ source message, t.readText r.fileName = .ok source →
        finder.all (Extractor.arguments parse source) = .error message →
          let octets := Utf8.encode source
          let tree := parse octets
          r = { repository := root
                fileName := r.fileName
                imports := (Tree.importSpecifiers octets tree).map fun s =>
                  (paths.resolver ".ts").resolve t s r.fileName
                functions := Tree.functionOutlines octets tree
                classes := Tree.classOutlines octets tree
                interfaces := Tree.interfaceOutlines octets tree
                sourceCode := source
                compiledCode := Erasure.erase octets tree }) ∧
      (∀ f ∈ sources, ∀ u, SameExcept (t.place f) t u → host.git u root = host.git t root →
        (∀ extractor : Extractor,
          (∀ p ∈ sources, t.place p ≠ t.place f → ∀ source, t.readText p = .ok source →
            extractor p source = indexer.extractor p source) →
          ∃ j, { indexer with extractor }.index host u repository = .ok j ∧ j.files = i.files ∧
            SameRecordsExcept t (t.place f) i.records j.records) ∧
        ∀ parse finder finder', indexer.extractor = .ofParser parse finder →
          (∀ p ∈ sources, t.place p ≠ t.place f → ∀ source, t.readText p = .ok source →
            ∀ a ∈ Extractor.arguments parse source, finder' a = finder a) →
          ∃ j,
            { indexer with extractor := .ofParser parse finder' }.index host u repository = .ok j ∧
            j.files = i.files ∧ SameRecordsExcept t (t.place f) i.records j.records) := by
  intro sources
  have hsources : indexer.sources root (Repository.listed indexer.excluded stdout) = sources := by
    rw [Indexer.sources, hext]
  have hfit : ∀ p ∈ sources, Path.isFit p = true := by
    intro p hp
    rw [← hsources] at hp
    obtain ⟨f, hf, -, rfl⟩ := mem_sources.1 hp
    obtain ⟨n, hstat, -⟩ := FileTree.isDirectory_eq_true.1 hdir
    exact Path.fit_child (FileTree.stat_eq_ok.1 hstat).1.fit
      (isFit_of_mem_listed hdecoded hf (hzero f hf))
  have hindex := index_eq_ok.2 ⟨root, _, paths, hroot, Repository.trackedFiles_eq_ok.2
    ⟨hdir, stdout, stderr, hgit, rfl⟩, hpaths, hsources ▸ hfit, rfl⟩
  have hnames := @map_fileName_recordAt indexer t (paths.resolver indexer.sourceExtension) root
    (indexer.sources root (Repository.listed indexer.excluded stdout))
  refine ⟨_, hindex, hnames.trans hsources, ?_, ?_, ?_, fun f hf u hu hg => ?_⟩
  · intro r hr fault hfault
    obtain ⟨p, hp, rfl⟩ := List.mem_map.1 hr
    rw [fileName_recordAt] at hfault ⊢
    exact recordAt_unreadable hfault
  · intro r hr source hsource hnone
    obtain ⟨p, hp, rfl⟩ := List.mem_map.1 hr
    rw [fileName_recordAt] at hsource hnone ⊢
    exact recordAt_none hsource hnone
  · intro parse finder hfinder r hr source message hsource herror octets tree
    obtain ⟨p, hp, rfl⟩ := List.mem_map.1 hr
    rw [fileName_recordAt] at hsource ⊢
    have hextract : indexer.extractor p source =
        some (Extractor.withoutReferences parse source message) := by
      rw [hfinder]
      exact Extractor.ofParser_of_error (FileTree.isScalar_of_readText hsource) herror
    rw [recordAt_some hsource hextract, recordOf, hext]
    simp [Extractor.withoutReferences, octets, tree]
  · have htwo : ∀ extractor : Extractor,
        (∀ p ∈ sources, t.place p ≠ t.place f → ∀ source, t.readText p = .ok source →
          extractor p source = indexer.extractor p source) → _ :=
      fun extractor he => exists_index_of_sameExcept hext hindex (by rwa [hnames, hsources]) hu hg
        (by rwa [hnames, hsources])
    refine ⟨htwo, fun parse finder finder' hfinder hsame => htwo _ fun p hp hne source hsource => ?_⟩
    rw [hfinder]
    exact Extractor.ofParser_congr (hsame p hp hne source hsource)

/-- A repository of which one file has no structure and the other is locked, and is unlocked. -/
theorem index_isolated_twoFiles :
    let t : FileTree :=
      ⟨[(["r"], .directory), (["r", "a.ts"], .file [120]), (["r", "b.ts"], .locked)], "/"⟩
    let u := t.put ["r", "b.ts"] (.file [121])
    let extractor : Extractor := fun name _ =>
      if name = Text.ofString "/r/a.ts" then none else some ⟨[], [], [], ["./a"], [], [], []⟩
    let indexer : Indexer := ⟨extractor, [], ".ts"⟩
    let host : Host := ⟨"/", fun _ _ => .finished "a.ts\nc.json\nb.ts\n" [] 0⟩
    ∃ i j, indexer.index host t "/r" = .ok i ∧ indexer.index host u "/r" = .ok j ∧
      i.records.map SourceRecord.fileName =
        ([.ofString "/r/a.ts", .ofString "/r/b.ts"] : List Text) ∧
      SameRecordsExcept t ["r", "b.ts"] i.records j.records := by
  intro t u extractor indexer host
  have hplace : t.place "/r/b.ts" = ([.ofString "r", .ofString "b.ts"] : List Text) := by
    decide +kernel
  obtain ⟨i, hi, hnames, -, -, -, htwo⟩ := index_isolated indexer host t "/r" "/r"
    "a.ts\nc.json\nb.ts\n" [] ⟨"/r", []⟩ rfl (by rfl) (by decide +kernel) rfl (by decide)
    (by decide +kernel) (by rfl)
  have hu : SameExcept (t.place "/r/b.ts") t u := by
    rw [hplace]
    exact FileTree.sameExcept_put (by decide) ⟨.locked, by decide +kernel, rfl⟩ rfl
  obtain ⟨j, hj, -, hsame⟩ := (htwo "/r/b.ts" (by decide +kernel) u hu rfl).1 extractor
    fun _ _ _ _ _ => rfl
  exact ⟨i, j, hi, hj, hnames.trans (by decide +kernel), hplace ▸ hsame⟩

end Indexer

end SourceAtlas
