import SourceAtlas.Batch
import SourceAtlas.Proofs.Indexing.Records
import SourceAtlas.Proofs.Path.Names

/-!
# Files to summarize and files with records

An index names its source files twice: in its records, by the listing as seen from the root, and in
the files that are to be summarized, by the listing joined to the root and made normal. Both come to
the same paths, but for names in which nothing but full stops stands before the extension.

* `Path.extension_child`: the extension of a listed path as seen from a normal one;
* `Indexer.pending_fresh`: the files that a fresh index leaves to be summarized;
* **`Indexer.pending_eq_records`**: the source files to be summarized are those with records.
-/

namespace SourceAtlas

/-- **The extension of a listed path** as seen from a normal one: the path ends with it, and its
last component is not made of full stops and the extension. -/
theorem Path.extension_child {root f e : Text} (hroot : IsNormal root) (hf : IsListed f)
    (hdot : Point.ofChar '.' ∉ e) (hslash : Point.ofChar '/' ∉ e) (hl : 1 < e.length) :
    extension (child root f) = Point.ofChar '.' :: e ↔
      f.endsWith (Point.ofChar '.' :: e) = true ∧ isDotted e (child root f) = false := by
  have hne : components (child root f) ≠ [] := by
    rw [hf.components_child]
    exact fun h => hf.components_ne_nil (List.append_eq_nil_iff.1 h).2
  have hname := fileName_child_of_ne_nil hf.components_ne_nil root
  have hends : (fileName f).endsWith (Point.ofChar '.' :: e) = true ↔
      f.endsWith (Point.ofChar '.' :: e) = true := by
    constructor
    · intro h
      exact Text.endsWith_iff.2 ((Text.endsWith_iff.1 h).trans hf.fileName_suffix)
    · refine fun h => (endsWith_fileName ?_ ?_ h).1
      · rw [List.mem_cons, not_or]
        exact ⟨by decide, hslash⟩
      · rw [List.length_cons]
        omega
  rw [extension_eq_iff hdot (by rintro rfl; simp at hl), (hroot.child hf).afterLast_slash hne,
    hname, hends, isDotted, hname, decide_eq_false_iff_not]

namespace Indexer

variable {indexer : Indexer} {host : Host} {t : FileTree} {repository : Text} {i : Index}

/-- The files that a fresh index leaves to be summarized. -/
theorem pending_fresh (h : indexer.index host t repository = .ok i)
    (hlisted : ∀ f ∈ i.files, Path.IsListed f) (extensions : List Text) :
    Path.IsNormal i.repository ∧ i.pending extensions =
      (i.files.map (Path.child i.repository)).filter fun p =>
        extensions.contains (Path.extension p) := by
  obtain ⟨root, files, paths, hroot, -, -, -, rfl⟩ := index_eq_ok.1 h
  have hnormal := isNormal_rootOf hroot
  have hne : root ≠ [] := by
    rintro rfl
    exact hnormal.root_ne_nil rfl
  refine ⟨hnormal, ?_⟩
  have hpaths : files.map (fun f => Path.normalize (Path.join root f)) =
      files.map (Path.child root) :=
    List.map_congr_left fun f hf => hnormal.resolveFrom (hlisted f hf)
  rw [Index.pending, Index.root, if_neg (by simpa using hne), hpaths]
  simp [Index.isSummarized]

/-- **The source files to be summarized are those with records**, in the same order, but for names
of full stops and the extension alone. Each of them has a record, from which its prompt is made. -/
theorem pending_eq_records (indexer : Indexer) (host : Host) (t : FileTree) (repository : Text)
    (i : Index) (extensions : List Text) (hext : indexer.sourceExtension = ".ts")
    (h : indexer.index host t repository = .ok i) (hlisted : ∀ f ∈ i.files, Path.IsListed f)
    (hts : Text.ofString ".ts" ∈ extensions) :
    (i.pending extensions).filter (fun p => decide (Path.extension p = Text.ofString ".ts")) =
        (i.records.map SourceRecord.fileName).filter (fun p => !Path.isDotted "ts" p) ∧
      ∀ p ∈ i.pending extensions, Path.extension p = Text.ofString ".ts" →
        ∃ r ∈ i.records, i.recordFor? p = some r ∧ r.fileName = p ∧
          ∀ u, Context.prompt u i p = do
            return Prompt.file p r.sourceCode (← Context.contentsOfAll u (Context.imports r))
              r.compiledCode := by
  obtain ⟨hnormal, hpending⟩ := pending_fresh h hlisted extensions
  have hnames : i.records.map SourceRecord.fileName =
      (i.files.filter fun f => f.endsWith ".ts").map (Path.child i.repository) := by
    obtain ⟨root, files, paths, -, -, -, -, rfl⟩ := index_eq_ok.1 h
    rw [map_fileName_recordAt, sources, hext]
  have hfilter : (i.pending extensions).filter
      (fun p => decide (Path.extension p = Text.ofString ".ts")) =
        (i.records.map SourceRecord.fileName).filter (fun p => !Path.isDotted "ts" p) := by
    rw [hpending, hnames, List.filter_filter, List.filter_map, List.filter_map, List.filter_filter]
    refine congrArg _ (List.filter_congr fun f hf => ?_)
    have hiff := Path.extension_child (e := "ts") hnormal (hlisted f hf) (by decide) (by decide)
      (by decide)
    rw [Bool.eq_iff_iff]
    simp only [Function.comp_apply, Bool.and_eq_true, decide_eq_true_iff, List.contains_iff_mem,
      Bool.not_eq_true']
    constructor
    · rintro ⟨he, -⟩
      exact ⟨(hiff.1 he).2, (hiff.1 he).1⟩
    · rintro ⟨hd, hf⟩
      have he := hiff.2 ⟨hf, hd⟩
      exact ⟨he, he ▸ hts⟩
  refine ⟨hfilter, fun p hp hpts => ?_⟩
  have hmem : p ∈ (i.records.map SourceRecord.fileName).filter
      (fun p => !Path.isDotted "ts" p) := by
    rw [← hfilter, List.mem_filter]
    exact ⟨hp, decide_eq_true hpts⟩
  obtain ⟨r, hr, hrp⟩ := List.mem_map.1 (List.mem_filter.1 hmem).1
  obtain ⟨q, hq⟩ : ∃ q, i.recordFor? p = some q := by
    rw [← Option.isSome_iff_exists, Index.recordFor?, List.find?_isSome]
    exact ⟨r, hr, decide_eq_true hrp⟩
  refine ⟨q, List.mem_of_find?_eq_some hq, hq, by simpa using List.find?_some hq, fun u => ?_⟩
  exact Context.prompt_of_record hpts hq

/-- A repository with a source file whose name has nothing but full stops before the extension. -/
theorem pending_eq_records_dots :
    let t : FileTree :=
      ⟨[(["r"], .directory), (["r", "..ts"], .file [120]), (["r", "a.ts"], .locked)], "/"⟩
    let indexer : Indexer := ⟨fun _ _ => none, [], ".ts"⟩
    let host : Host := ⟨"/", fun _ _ => .finished "..ts\na.ts\nb.json\n" [] 0⟩
    ∃ i, indexer.index host t "/r" = .ok i ∧
      (i.pending summarizableExtensions).filter
          (fun p => decide (Path.extension p = Text.ofString ".ts")) =
        (i.records.map SourceRecord.fileName).filter (fun p => !Path.isDotted "ts" p) ∧
      i.records.map SourceRecord.fileName =
        ([.ofString "/r/..ts", .ofString "/r/a.ts"] : List Text) ∧
      i.pending summarizableExtensions =
        ([.ofString "/r/a.ts", .ofString "/r/b.json"] : List Text) := by
  intro t indexer host
  have hi := (@index_eq_ok indexer host t "/r" _).2 ⟨"/r", _, ⟨"/r", []⟩, by rfl,
    Repository.trackedFiles_eq_ok.2 ⟨by decide +kernel, "..ts\na.ts\nb.json\n", [], rfl, rfl⟩,
    by rfl, by decide +kernel, rfl⟩
  refine ⟨_, hi, (pending_eq_records indexer host t "/r" _ summarizableExtensions rfl hi
    (by decide +kernel) (by decide +kernel)).1, by decide +kernel, by decide +kernel⟩

end Indexer

end SourceAtlas
