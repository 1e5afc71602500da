import SourceAtlas.CommandLine
import SourceAtlas.Proofs.Indexing.Records
import SourceAtlas.Proofs.Path.Directory

/-!
# The command that resolves imports

The command line names a repository, a file in it and a module specifier, and the command shows what
the specifier leads to. That is what indexing the repository records, though the two find the root,
the file and the options apart from each other.

* `Argument.of_operand`, `Given.read?_valued`, **`Command.ofArguments?_resolve`**: arguments that
  start with no hyphen are taken as they are;
* `Indexer.take_imports_recordAt`: what is recorded for the specifiers of a file;
* `Workplace.runResolve_eq`: what is shown of a repository with options;
* **`Workplace.run_resolve_recorded`**: the two are the same.
-/

namespace SourceAtlas

/-! ## Arguments -/

theorem Argument.of_operand {t : Text} (h : t.startsWith "-" = false) (options : List Text) :
    Argument.of options t = .operand := by
  rw [of, h]
  rfl

namespace Given

variable {names : OptionNames} {name value operand : Text} {wanted : Bool}

/-- An option that takes a value takes the next argument, if that starts with no hyphen. -/
theorem read?_valued (hs : name ≠ Argument.separator)
    (ho : Argument.of names.all name = .option name none) (hp : names.plain.contains name = false)
    (hv : names.valued.contains name = true) (h : value.startsWith "-" = false)
    (rest : List Text) : read? names wanted (name :: value :: rest) =
      (read? names wanted rest).map (withOption name value) := by
  have hvalue : value ≠ Argument.separator := by
    rintro rfl
    cases h
  rw [read?.eq_def]
  dsimp only
  rw [if_neg hs, ho]
  dsimp only
  rw [hp, hv, if_neg Bool.false_ne_true, Argument.of_operand h]
  simp [hvalue]

/-- An operand that is wanted ends the arguments. -/
theorem read?_operand (h : operand.startsWith "-" = false) :
    read? names true [operand] = some ⟨[], some operand⟩ := by
  have hoperand : operand ≠ Argument.separator := by
    rintro rfl
    cases h
  rw [read?.eq_def]
  dsimp only
  rw [if_neg hoperand, Argument.of_operand h]
  rfl

end Given

/-- **The command to resolve a specifier**, as its arguments name it. -/
theorem Command.ofArguments?_resolve {repository source specifier : Text}
    (hr : repository.startsWith "-" = false) (hs : source.startsWith "-" = false)
    (hm : specifier.startsWith "-" = false) :
    ofArguments? ["resolve", "--repository", repository, "--from-file", source, specifier] =
      some (.resolve repository source specifier) := by
  have hread : Given.read? ⟨[repositoryOption, sourceOption], []⟩ true
      ["--repository", repository, "--from-file", source, specifier] =
        some ⟨[(repositoryOption, repository), (sourceOption, source)], some specifier⟩ := by
    rw [Given.read?_valued (by decide) (by decide) (by decide) (by decide) hr,
      Given.read?_valued (by decide) (by decide) (by decide) (by decide) hs,
      Given.read?_operand hm]
    rfl
  have hcommand : Argument.of [Argument.help, logOption] "resolve" = .operand :=
    Argument.of_operand rfl _
  rw [ofArguments?, hcommand]
  show readResolve? _ = _
  rw [readResolve?, hread]
  rfl

/-! ## The two sides -/

namespace Indexer

variable {indexer : Indexer} {t : FileTree} {resolver : Resolver} {root path source : Text}
  {e : Extraction}

/-- What is recorded for the specifiers of a file comes first, in their order. -/
theorem take_imports_recordAt (h : t.readText path = .ok source)
    (he : indexer.extractor path source = some e) :
    (indexer.recordAt t resolver root path).imports.take e.imports.length =
      e.imports.map fun s => resolver.resolve t s path := by
  rw [recordAt_some h he, recordOf]
  simp

end Indexer

namespace Workplace

variable {w : Workplace} {t : FileTree} {repository root source specifier : Text}
  {paths : ModulePaths}

/-- What is shown of a directory whose options can be read. -/
theorem runResolve_eq (hroot : Indexer.rootOf w.host t repository = .ok root)
    (hd : t.isDirectory root = true) (hpaths : ModulePaths.ofRepository t root = .ok paths)
    (hfit : Path.isFit (Path.child root source) = true) :
    w.runResolve t repository source specifier =
      .succeeded t (.text ((paths.resolver ".ts").resolve t specifier
        (Path.absolute t.current (Path.child root source)) ++ "\n")) := by
  rw [runResolve, hroot]
  dsimp only
  rw [FileTree.refusal?_of_isDirectory hd]
  dsimp only
  rw [hd, Bool.not_true, if_neg Bool.false_ne_true, hpaths, absoluteBelow,
    Path.fault?_eq_none.2 hfit]

/-- **The command shows what is recorded.** Where a repository has an index, each source file in its
listing that has a relative path, be it normal or not, has a record; and the specifiers that are
taken from the file are recorded in their order, each as the text that the command line with the
same repository, the listed path and the specifier prints, if none of the three starts with a
hyphen. The command ends with code 0, complains of nothing and leaves all files as they are. -/
theorem run_resolve_recorded (w : Workplace) (indexer : Indexer) (t : FileTree)
    (repository f : Text) (i : Index) (hext : indexer.sourceExtension = ".ts")
    (hi : indexer.index w.host t repository = .ok i) (hf : f ∈ i.files)
    (hts : f.endsWith ".ts" = true) (hrelative : f.startsWith "/" = false)
    (hrepository : repository.startsWith "-" = false) (hfile : f.startsWith "-" = false) :
    (∃ r ∈ i.records, r.fileName = Path.child i.repository f) ∧
      ∀ r ∈ i.records, r.fileName = Path.child i.repository f → ∀ source e,
        t.readText r.fileName = .ok source → indexer.extractor r.fileName source = some e →
          List.Forall₂ (fun s p => s.startsWith "-" = false →
              w.run t ["resolve", "--repository", repository, "--from-file", f, s] =
                .succeeded t (.text (p ++ "\n")))
            e.imports (r.imports.take e.imports.length) := by
  obtain ⟨root, files, paths, hroot, hfiles, hpaths, hfit, rfl⟩ := Indexer.index_eq_ok.1 hi
  have hsource : Path.child root f ∈ indexer.sources root files :=
    Indexer.mem_sources.2 ⟨f, hf, hext ▸ hts, rfl⟩
  refine ⟨⟨_, List.mem_map_of_mem hsource, Indexer.fileName_recordAt⟩, ?_⟩
  rintro r hr hname source e hread he
  obtain ⟨path, -, rfl⟩ := List.mem_map.1 hr
  rw [Indexer.fileName_recordAt] at hname hread he
  subst hname
  -- With its extension the last component is a name, so that no parent is taken away behind it.
  obtain ⟨hlast, hne⟩ := Path.endsWith_fileName (by decide) (by decide) hts
  have hn : Path.IsName (Path.fileName (Path.child root f)) := by
    rw [Path.fileName_child_of_ne_nil hne]
    exact Path.isName_fileName (by decide) hlast
  have hslash : Path.root (Path.child root f) = "/" := by
    rw [Path.root_child_of_startsWith hrelative, (Indexer.isNormal_rootOf hroot).root]
  rw [Indexer.take_imports_recordAt hread he, List.forall₂_map_right_iff]
  refine List.forall₂_same.2 fun s _ hs => ?_
  rw [run, runWith, Command.ofArguments?_resolve hrepository hfile hs]
  dsimp only [runCommand]
  rw [runResolve_eq hroot (Repository.trackedFiles_eq_ok.1 hfiles).1 hpaths (hfit _ hsource),
    Resolver.resolve_absolute hslash (Path.tidy_child root f) hn, hext]

/-- An import by an alias, one beside the file that is missing and one from elsewhere, in a
repository that is named from the working directory. -/
theorem run_resolve_recorded_threeImports :
    let t : FileTree := ⟨[(["r"], .directory), (["r", "lib"], .directory),
      (["r", "src"], .directory), (["r", "tsconfig.json"], .file (Utf8.encode
        "\x7b\"compilerOptions\": \x7b\"paths\": \x7b\"@lib/*\": \"lib/*\"\x7d\x7d\x7d")),
      (["r", "lib", "b.ts"], .file []), (["r", "src", "a.ts"], .file [120])], "/work"⟩
    let indexer : Indexer := ⟨fun _ _ =>
      some ⟨[], [], [], ["@lib/b", "./c", "react"], ["../lib/b.ts"], [], []⟩, [], ".ts"⟩
    let host : Host := ⟨"/", fun _ _ => .finished "lib/b.ts\nsrc/a.ts\ntsconfig.json\n" [] 0⟩
    let w : Workplace := ⟨host, [], fun _ => .error (.reported []), List.length⟩
    let resolving (specifier : Text) : Run :=
      w.run t ["resolve", "--repository", "../r/", "--from-file", "src/a.ts", specifier]
    ∃ i r, indexer.index host t "../r/" = .ok i ∧ i.recordFor? "/r/src/a.ts" = some r ∧
      r.imports = ([.ofString "/r/lib/b.ts", .ofString "/r/src/c", .ofString "react",
        .ofString "/r/lib/b.ts"] : List Text) ∧
      resolving "@lib/b" = .succeeded t (.text "/r/lib/b.ts\n") ∧
      resolving "./c" = .succeeded t (.text "/r/src/c\n") ∧
      resolving "react" = .succeeded t (.text "react\n") := by
  intro t indexer host w resolving
  have hread : ModulePaths.ofRepository t "/r" = .ok ⟨"/r", [⟨"@lib/*", ["lib/*"]⟩]⟩ := by
    have hparts : (ModulePaths.ofRepository t "/r").toOption.map (fun p => (p.base, p.aliases)) =
        some (Text.ofString "/r", [⟨"@lib/*", ["lib/*"]⟩]) := by decide +kernel
    obtain ⟨⟨base, aliases⟩, hp, hparts⟩ := Option.map_eq_some_iff.1 hparts
    cases hparts
    exact Except.toOption_eq_some.1 hp
  let i : Index := ⟨"/r", Repository.listed [] "lib/b.ts\nsrc/a.ts\ntsconfig.json\n",
    (indexer.sources "/r" (Repository.listed [] "lib/b.ts\nsrc/a.ts\ntsconfig.json\n")).map
      (indexer.recordAt t ⟨"/r", [⟨"@lib/*", ["lib/*"]⟩], ".ts"⟩ "/r"), [], none⟩
  let r : SourceRecord := { SourceRecord.bare "/r" "/r/src/a.ts" with
    imports := ["/r/lib/b.ts", "/r/src/c", "react", "/r/lib/b.ts"], sourceCode := "x" }
  have hi : indexer.index host t "../r/" = .ok i := Indexer.index_eq_ok.2 ⟨"/r", _, _, by rfl,
    Repository.trackedFiles_eq_ok.2 ⟨by decide +kernel, _, [], rfl, rfl⟩, hread,
    by decide +kernel, rfl⟩
  have hr : i.recordFor? "/r/src/a.ts" = some r := by decide +kernel
  obtain ⟨-, hall⟩ := run_resolve_recorded w indexer t "../r/" "src/a.ts" i rfl hi
    (by decide +kernel) (by decide) (by decide) (by decide) (by decide)
  have hmem : r ∈ i.records := by
    unfold Index.recordFor? at hr
    exact List.mem_of_find?_eq_some hr
  have hsource : t.readText r.fileName = .ok (Text.ofString "x") := by decide +kernel
  have hshown := hall r hmem (by decide +kernel) "x" _ hsource rfl
  have htake : r.imports.take 3 = ["/r/lib/b.ts", "/r/src/c", "react"] := rfl
  dsimp only [List.length] at hshown
  rw [htake] at hshown
  obtain _ | ⟨hlib, _ | ⟨hc, _ | ⟨hreact, -⟩⟩⟩ := hshown
  exact ⟨i, r, hi, hr, rfl, hlib (by decide), hc (by decide), hreact (by decide)⟩

end Workplace

end SourceAtlas
