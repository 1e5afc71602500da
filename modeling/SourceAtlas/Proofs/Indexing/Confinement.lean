import SourceAtlas.Proofs.Indexing.Records
import SourceAtlas.Proofs.Resolution

/-!
# Prompts that stay within their repository

A prompt shows a file with others that are related to it. All that is shown of these comes from
files below the root of the repository, whatever the sources import. What a source file imports from
there is shown, if it is recorded by its normal path.

* `Context.related`: the files that a prompt shows besides its own;
* `Context.exists_texts_of_prompt`: what a prompt is made of;
* `Indexer.resolved_of_mem_imports`: what a record imports is what its specifiers and references
  come to;
* `Indexer.place_prefix_of_mem_related`: where the related files are;
* **`Indexer.prompt_confined`**: what a prompt shows of them;
* `Indexer.doubleSlash_notShown`: a file below the root that is recorded by another path.
-/

namespace SourceAtlas

/-- A list is mapped item by item. -/
theorem Except.forall₂_of_mapM {ε α β : Type} {f : α → Except ε β} {xs : List α} {ys : List β}
    (h : xs.mapM f = .ok ys) : List.Forall₂ (fun x y => f x = .ok y) xs ys := by
  induction xs generalizing ys with
  | nil =>
    cases h
    exact .nil
  | cons x xs ih =>
    rw [List.mapM_cons, Except.bind_eq_ok] at h
    obtain ⟨y, hy, h⟩ := h
    obtain ⟨zs, hzs, h⟩ := Except.bind_eq_ok.1 h
    cases h
    exact .cons hy (ih hzs)

/-- What is found of some items is among what is shown of those that are kept, in the same order. -/
theorem Except.filterMap_sublist {ε α β : Type} {shown : α → Except ε β} {keep : α → Bool}
    {find : α → Option β} {xs : List α} {ys : List β}
    (h : List.Forall₂ (fun x y => shown x = .ok y) (xs.filter keep) ys)
    (hfind : ∀ x y, find x = some y → keep x = true ∧ shown x = .ok y) :
    (xs.filterMap find).Sublist ys := by
  induction xs generalizing ys with
  | nil => exact List.nil_sublist ys
  | cons x xs ih =>
    cases hf : find x with
    | none =>
      rw [List.filterMap_cons_none hf]
      cases hk : keep x with
      | false => exact ih (by rwa [List.filter_cons_of_neg (by simp [hk])] at h)
      | true =>
        rw [List.filter_cons_of_pos hk] at h
        cases h with
        | cons _ h => exact (ih h).cons _
    | some y =>
      obtain ⟨hk, hy⟩ := hfind x y hf
      rw [List.filterMap_cons_some hf]
      rw [List.filter_cons_of_pos hk] at h
      cases h with
      | cons hx h =>
        cases hx.symm.trans hy
        exact (ih h).cons_cons _

namespace Context

variable {t : FileTree} {i : Index} {fileName path text : Text}

/-- The files that a prompt shows besides its own. -/
def related (i : Index) (fileName : Text) : List Text :=
  if Path.extension fileName = Text.ofString ".ts" then
    match i.recordFor? fileName with
    | none => []
    | some r => imports r
  else if Path.extension fileName = Text.ofString ".html" then components i fileName
  else []

/-- The texts of those files that have normal paths, lie below a root and can be read. -/
def textsBelow (t : FileTree) (root : Text) (paths : List Text) : List Text :=
  paths.filterMap fun p =>
    if Path.absolute t.current p = p ∧ t.place root <+: t.place p then (t.readText p).toOption
    else none

/-- What is shown of a file that can be read is its text. -/
theorem readText_of_contents (h : contents t path = .ok text) (hne : text ≠ []) :
    t.readText (Path.tidy path) = .ok text := by
  unfold contents at h
  split at h
  · rename_i hr
    rw [hr, Except.ok.inj h]
  · cases h
  · cases h
    exact absurd rfl hne

theorem contentsOfAll_eq_ok {paths : List Text} : contentsOfAll t paths = .ok text ↔
    ∃ texts, paths.mapM (contents t) = .ok texts ∧ Text.joinWith "\n" texts = text := by
  rw [contentsOfAll, Except.bind_eq_ok]
  simp [pure, Except.pure]

/-- **What a prompt is made of**: the file itself, and the texts of the related files. -/
theorem exists_texts_of_prompt (h : prompt t i fileName = .ok text) :
    ∃ content compiled texts,
      text = Prompt.file fileName content (Text.joinWith "\n" texts) compiled ∧
      (related i fileName).mapM (contents t) = .ok texts ∧
      ∀ r, Path.extension fileName = Text.ofString ".ts" → i.recordFor? fileName = some r →
        content = r.sourceCode ∧ compiled = r.compiledCode := by
  unfold prompt at h
  unfold related
  split
  · rename_i hts
    rw [if_pos hts, sourcePrompt] at h
    cases hr : i.recordFor? fileName with
    | none =>
      rw [hr] at h
      obtain ⟨content, -, h⟩ := Except.bind_eq_ok.1 h
      cases h
      exact ⟨content, [], [], rfl, rfl, by simp⟩
    | some r =>
      rw [hr] at h
      obtain ⟨shown, hshown, h⟩ := Except.bind_eq_ok.1 h
      obtain ⟨texts, htexts, rfl⟩ := contentsOfAll_eq_ok.1 hshown
      cases h
      exact ⟨r.sourceCode, r.compiledCode, texts, rfl, htexts, by simp⟩
  · rename_i hts
    rw [if_neg hts] at h
    obtain ⟨content, -, h⟩ := Except.bind_eq_ok.1 h
    dsimp only at h
    split at h
    · rename_i hhtml
      obtain ⟨shown, hshown, h⟩ := Except.bind_eq_ok.1 h
      obtain ⟨texts, htexts, rfl⟩ := contentsOfAll_eq_ok.1 hshown
      cases h
      rw [if_pos hhtml]
      exact ⟨content, [], texts, rfl, htexts, fun _ h => absurd h hts⟩
    · rename_i hhtml
      cases h
      rw [if_neg hhtml]
      exact ⟨content, [], [], rfl, rfl, fun _ h => absurd h hts⟩

end Context

namespace Indexer

variable {indexer : Indexer} {host : Host} {t : FileTree} {resolver : Resolver}
  {repository root fileName p text : Text} {i : Index} {r : SourceRecord}

/-- What a record imports is what its specifiers and references come to. -/
theorem resolved_of_mem_imports
    (h : p ∈ (indexer.recordAt t resolver root fileName).imports) :
    Resolved t resolver.sourceExtension p := by
  rcases recordAt_cases indexer t resolver root fileName with hr | ⟨_, hr⟩ | ⟨_, e, hr⟩ <;>
    rw [hr] at h
  · cases h
  · cases h
  · rcases List.mem_append.1 h with h | h
    · obtain ⟨s, -, rfl⟩ := List.mem_map.1 h
      exact resolver.resolved_resolve t s fileName
    · obtain ⟨s, -, rfl⟩ := List.mem_map.1 h
      exact resolved_resolveReference t _ s fileName

/-- The records of an index: where their files are, and what they import. -/
structure Recorded (t : FileTree) (root : Text) (r : SourceRecord) : Prop where
  repository : r.repository = root
  place : t.place root <+: t.place r.fileName
  readable : ∀ p ∈ r.imports, ∀ text, Path.isWithin p root = true →
    t.readText (Path.tidy p) = .ok text → t.place root <+: t.place p

theorem recorded_of_index (h : indexer.index host t repository = .ok i)
    (hlisted : ∀ f ∈ i.files, Path.IsListed f) :
    Path.IsNormal i.repository ∧ ∀ r ∈ i.records, Recorded t i.repository r := by
  obtain ⟨root, files, paths, hroot, -, -, -, rfl⟩ := index_eq_ok.1 h
  have hn := isNormal_rootOf hroot
  refine ⟨hn, fun r hr => ?_⟩
  obtain ⟨path, hpath, rfl⟩ := List.mem_map.1 hr
  obtain ⟨f, hf, hends, rfl⟩ := mem_sources.1 hpath
  refine ⟨repository_recordAt, ?_, fun p hp text hw hread => ?_⟩
  · rw [fileName_recordAt, FileTree.place_child_of_isListed (hlisted f hf)]
    exact List.prefix_append _ _
  · exact (resolved_of_mem_imports hp).place_of_isWithin ((hlisted f hf).isEnding hends) hn hw hread

/-- **Where the related files are** of which something is shown. -/
theorem place_prefix_of_mem_related
    (hrecords : ∀ r ∈ i.records, Recorded t i.repository r) (hp : p ∈ Context.related i fileName)
    (hread : t.readText (Path.tidy p) = .ok text) : t.place i.repository <+: t.place p := by
  have himports : ∀ r ∈ i.records, p ∈ Context.imports r → t.place i.repository <+: t.place p := by
    intro r hr hp
    obtain ⟨hp, hw⟩ := List.mem_filter.1 hp
    rw [(hrecords r hr).repository] at hw
    exact (hrecords r hr).readable p hp text hw hread
  unfold Context.related at hp
  split at hp
  · cases hr : i.recordFor? fileName with
    | none =>
      rw [hr] at hp
      cases hp
    | some r =>
      rw [hr] at hp
      exact himports r (List.mem_of_find?_eq_some hr) hp
  · split at hp
    · obtain ⟨r, hr, hp⟩ := List.mem_flatMap.1 hp
      have hr := List.mem_of_mem_filter hr
      rcases List.mem_cons.1 hp with rfl | hp
      · exact (hrecords r hr).place
      · exact himports r hr (List.mem_of_mem_filter hp)
    · cases hp

/-- **Prompts stay within their repository.** Where the listed paths are made of names, a prompt
shows the texts of related files, one after the other. Each is empty or the text of a file below the
root of the repository. Of a source file with a record it shows the text and the erased text that are
recorded, and all imports that are recorded by their normal path, lie below the root and can be read,
in the order of the imports. -/
theorem prompt_confined (indexer : Indexer) (host : Host) (t : FileTree)
    (repository fileName text : Text) (i : Index)
    (h : indexer.index host t repository = .ok i) (hlisted : ∀ f ∈ i.files, Path.IsListed f)
    (hp : Context.prompt t i fileName = .ok text) :
    ∃ content compiled texts,
      text = Prompt.file fileName content (Text.joinWith "\n" texts) compiled ∧
      List.Forall₂ (fun p shown => Context.contents t p = .ok shown ∧
          (shown ≠ [] → ∃ octets decoded, t.node? (t.place p) = some (.file octets) ∧
            Utf8.decode octets = .ok decoded ∧ shown = decoded.normalizeNewlines ∧
            t.place i.repository <+: t.place p))
        (Context.related i fileName) texts ∧
      ∀ r, Path.extension fileName = Text.ofString ".ts" → i.recordFor? fileName = some r →
        content = r.sourceCode ∧ compiled = r.compiledCode ∧
        (Context.textsBelow t i.repository r.imports).Sublist texts := by
  obtain ⟨hn, hrecords⟩ := recorded_of_index h hlisted
  obtain ⟨content, compiled, texts, rfl, hmap, hcontent⟩ := Context.exists_texts_of_prompt hp
  have hshown := Except.forall₂_of_mapM hmap
  refine ⟨content, compiled, texts, rfl, ?_, fun r hts hr => ?_⟩
  · have hmem : List.Forall₂ (fun p shown => p ∈ Context.related i fileName ∧
        Context.contents t p = .ok shown) (Context.related i fileName) texts :=
      (List.forall₂_and_left _ _).2 ⟨fun _ hp => hp, hshown⟩
    refine hmem.imp fun p shown ⟨hp, hs⟩ => ⟨hs, fun hne => ?_⟩
    have hread := Context.readText_of_contents hs hne
    obtain ⟨octets, decoded, hoctets, hdecoded, rfl⟩ := FileTree.readText_eq_ok.1 hread
    refine ⟨octets, decoded, ?_, hdecoded, rfl, place_prefix_of_mem_related hrecords hp hread⟩
    rw [← FileTree.place_tidy]
    exact FileTree.node?_of_read hoctets
  · obtain ⟨hsource, herased⟩ := hcontent r hts hr
    refine ⟨hsource, herased, ?_⟩
    have hrelated : Context.related i fileName =
        r.imports.filter fun p => Path.isWithin p i.repository := by
      rw [Context.related, if_pos hts, hr, ← (hrecords r (List.mem_of_find?_eq_some hr)).repository]
      rfl
    rw [hrelated] at hshown
    refine Except.filterMap_sublist hshown fun p shown hfound => ?_
    split at hfound
    · rename_i habsolute
      have hnormal := Path.isNormal_of_absolute habsolute.1
      have hprefix := habsolute.2
      rw [hn.place, hnormal.place] at hprefix
      refine ⟨Path.isWithin_of_isNormal hn hnormal hprefix, ?_⟩
      rw [Context.contents, hnormal.tidy]
      cases hread : t.readText p with
      | error fault =>
        rw [hread] at hfound
        cases hfound
      | ok text =>
        rw [hread] at hfound
        cases hfound
        rfl
    · cases hfound

/-- A source file that imports a file beside it and, by way of the root, a file outside. -/
theorem prompt_confined_twoImports :
    let t : FileTree := ⟨[(["r"], .directory), (["r", "a.ts"], .file [120]),
      (["r", "b.ts"], .file [121]), (["e.ts"], .file [122])], "/"⟩
    let indexer : Indexer :=
      ⟨fun _ _ => some ⟨[], [], [], ["/r/../e", "./b"], [], [], []⟩, [], ".ts"⟩
    let host : Host := ⟨"/", fun _ _ => .finished "a.ts\nb.ts\n" [] 0⟩
    let r : SourceRecord :=
      { SourceRecord.bare "/r" "/r/a.ts" with imports := ["/e.ts", "/r/b.ts"], sourceCode := "x" }
    ∃ i text texts, indexer.index host t "/r" = .ok i ∧ i.recordFor? "/r/a.ts" = some r ∧
      Context.prompt t i "/r/a.ts" = .ok text ∧
      text = Prompt.file "/r/a.ts" "x" (Text.joinWith "\n" texts) [] ∧
      ([.ofString "y"] : List Text).Sublist texts := by
  intro t indexer host r
  let i : Index := ⟨"/r", Repository.listed [] "a.ts\nb.ts\n",
    (indexer.sources "/r" (Repository.listed [] "a.ts\nb.ts\n")).map
      (indexer.recordAt t ⟨"/r", [], ".ts"⟩ "/r"), [], none⟩
  have hi : indexer.index host t "/r" = .ok i := index_eq_ok.2 ⟨"/r", _, ⟨"/r", []⟩, by rfl,
    Repository.trackedFiles_eq_ok.2 ⟨by decide +kernel, "a.ts\nb.ts\n", [], rfl, rfl⟩, by rfl,
    by decide +kernel, rfl⟩
  have hr : i.recordFor? "/r/a.ts" = some r := by decide +kernel
  obtain ⟨text, htext⟩ := Context.exists_prompt t i "/r/a.ts" (by decide +kernel)
  obtain ⟨content, compiled, texts, rfl, -, hrecord⟩ :=
    prompt_confined indexer host t "/r" "/r/a.ts" text i hi (by decide +kernel) htext
  obtain ⟨rfl, rfl, hshown⟩ := hrecord r (by decide +kernel) hr
  have hbelow : Context.textsBelow t i.repository r.imports = ([.ofString "y"] : List Text) := by
    decide +kernel
  exact ⟨i, _, texts, hi, hr, htext, rfl, hbelow ▸ hshown⟩

/-- **A file below the root that is not shown**: it is imported by a path with two slashes at its
start, which is kept so, and which says nothing of the root by its text. -/
theorem doubleSlash_notShown :
    let t : FileTree := ⟨[(["r"], .directory), (["r", "a.ts"], .file [120]),
      (["r", "b.ts"], .file [121])], "/"⟩
    let indexer : Indexer :=
      ⟨fun _ _ => some ⟨[], [], [], ["//r/b.ts"], [], [], []⟩, [], ".ts"⟩
    let host : Host := ⟨"/", fun _ _ => .finished "a.ts\nb.ts\n" [] 0⟩
    let r : SourceRecord :=
      { SourceRecord.bare "/r" "/r/a.ts" with imports := ["//r/b.ts"], sourceCode := "x" }
    ∃ i, indexer.index host t "/r" = .ok i ∧ (∀ f ∈ i.files, Path.IsListed f) ∧
      i.recordFor? "/r/a.ts" = some r ∧ t.isFile "//r/b.ts" = true ∧
      (t.readText "//r/b.ts").toOption = some (Text.ofString "y") ∧
      t.place i.repository <+: t.place "//r/b.ts" ∧ Context.related i "/r/a.ts" = [] ∧
      Context.prompt t i "/r/a.ts" = .ok (Prompt.file "/r/a.ts" "x" [] []) := by
  intro t indexer host r
  let i : Index := ⟨"/r", Repository.listed [] "a.ts\nb.ts\n",
    (indexer.sources "/r" (Repository.listed [] "a.ts\nb.ts\n")).map
      (indexer.recordAt t ⟨"/r", [], ".ts"⟩ "/r"), [], none⟩
  have hi : indexer.index host t "/r" = .ok i := index_eq_ok.2 ⟨"/r", _, ⟨"/r", []⟩, by rfl,
    Repository.trackedFiles_eq_ok.2 ⟨by decide +kernel, "a.ts\nb.ts\n", [], rfl, rfl⟩, by rfl,
    by decide +kernel, rfl⟩
  have hr : i.recordFor? "/r/a.ts" = some r := by decide +kernel
  have himports : Context.imports r = [] := by decide +kernel
  have hts : Path.extension "/r/a.ts" = Text.ofString ".ts" := by decide +kernel
  refine ⟨i, hi, by decide +kernel, hr, by decide +kernel, by decide +kernel, by decide +kernel,
    ?_, ?_⟩
  · rw [Context.related, if_pos hts, hr]
    exact himports
  · rw [Context.prompt_of_record hts hr, himports]
    rfl

end Indexer

end SourceAtlas
