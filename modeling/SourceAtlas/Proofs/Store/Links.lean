import SourceAtlas.Proofs.LinkedTree
import SourceAtlas.Proofs.Store.Atomic

/-!
# Saves where names may be links

A save happens as a whole or not at all also where names may be links, if the temporary name is
none: the new artifact takes the place of a link at the path, and a file that stands there and at
other places stays at these. A link under the temporary name is followed, and what it leads to is
lost.

* `LinkedTree.fileAt?`: the link or the file at a place;
* `LinkedTree.SameFiles`: trees that differ in directories alone;
* `LinkedTree.spot?_temporary_ne`: the temporary name and the path name different entries;
* `LinkedTree.Prepared`, `LinkedTree.Prepared.moved`: what is there before the file is moved, and
  after;
* **`LinkedTree.save_atomic`**: both ways in which a save may end;
* `LinkedTree.save_followed`: saves that change another file;
* `FileOperations.Maps`, **`LinkedTree.saveBy_ofTree`**: a save in a tree without links is the one in
  the file tree.
-/

namespace SourceAtlas

namespace LinkedTree

variable {s u v : LinkedTree} {i : Index} {path temporary : Text} {k new : List Text}

/-! ## Files and links -/

/-- The link or the file at a place. A directory is neither. -/
def fileAt? (s : LinkedTree) (k : List Text) : Option (Text ⊕ FileTree.Node) :=
  match s.link? k with
  | some text => some (.inl text)
  | none => (s.tree.fileAt? k).map .inr

theorem fileAt?_congr (hl : u.link? k = s.link? k) (hn : u.tree.fileAt? k = s.tree.fileAt? k) :
    u.fileAt? k = s.fileAt? k := by
  rw [fileAt?, fileAt?, hl, hn]

theorem fileAt?_of_node {n : FileTree.Node} (hl : s.link? k = none) (hn : s.tree.node? k = some n)
    (hfile : n.isDirectory = false) : s.fileAt? k = some (.inr n) := by
  rw [fileAt?, hl, FileTree.fileAt?, hn]
  simp [Option.filter, hfile]

/-- A tree that differs in directories alone. -/
structure SameFiles (s u : LinkedTree) : Prop where
  links : u.links = s.links
  numbers : u.numbers = s.numbers
  current : u.tree.current = s.tree.current
  fileAt : ∀ k, u.tree.fileAt? k = s.tree.fileAt? k

theorem SameFiles.trans (h : SameFiles s u) (h' : SameFiles u v) : SameFiles s v :=
  ⟨h'.links.trans h.links, h'.numbers.trans h.numbers, h'.current.trans h.current,
    fun k => (h'.fileAt k).trans (h.fileAt k)⟩

theorem SameFiles.fileAt? (h : SameFiles s u) (k : List Text) : u.fileAt? k = s.fileAt? k :=
  fileAt?_congr (link?_of_links h.links k) (h.fileAt k)

theorem sameFiles_of_makeDirectory (h : s.makeDirectory path = .ok u) : SameFiles s u := by
  obtain ⟨key, hnone, rfl⟩ := makeDirectory_eq_ok h
  refine ⟨rfl, rfl, rfl, fun k => ?_⟩
  by_cases hk : k = key
  · rw [hk, FileTree.fileAt?, FileTree.fileAt?, hnone]
    by_cases hnil : key = []
    · rw [hnil, FileTree.node?_nil]
      rfl
    · rw [FileTree.node?_put hnil, if_pos rfl]
      rfl
  · exact FileTree.fileAt?_congr (FileTree.node?_put_of_ne hk _)

/-- Directories that are made are no files. -/
theorem sameFiles_of_makeDirectories (s : LinkedTree) (path : Text) :
    SameFiles s (operations.makeDirectories s path).2 :=
  FileOperations.of_makeDirectories path ⟨rfl, rfl, rfl, fun _ => rfl⟩ fun hu hm =>
    hu.trans (sameFiles_of_makeDirectory hm)

/-! ## The temporary name -/

/-- The temporary name stands in the directory of the path. -/
theorem components_temporary (s : LinkedTree) (h : Artifact.temporary? path = some temporary) :
    ∃ cs, s.components path = cs ++ [Path.fileName path] ∧
      s.components temporary = cs ++ [Path.fileName path ++ ".tmp"] := by
  have hname := Artifact.fileName_ne_nil h
  obtain ⟨hroot, hcomponents⟩ := Artifact.temporary_parts h
  refine ⟨(if (Path.root path).isEmpty then Path.components s.tree.current else []) ++
    (Path.components path).dropLast, ?_, ?_⟩
  · rw [components, List.append_assoc, ← Path.components_eq_concat (Path.components_ne_nil hname)]
  · rw [components, hroot, hcomponents, List.append_assoc]

/-- **The temporary name and the path name different entries.** -/
theorem spot?_temporary_ne (h : Artifact.temporary? path = some temporary)
    (ht : s.spot? temporary = some k) : s.spot? path ≠ some k := by
  intro hp
  obtain ⟨cs, hpath, htemporary⟩ := components_temporary s h
  have hup : Path.fileName path ++ Text.ofString ".tmp" ≠ Path.up :=
    (Artifact.isName_temporary (Artifact.fileName_ne_nil h)).ne_up
  rw [spot?_eq htemporary] at ht
  rw [spot?_eq hpath] at hp
  obtain ⟨d, hd, rfl⟩ := Option.map_eq_some_iff.1 ht
  rw [hd, Option.map_some, Option.some.injEq, next, next, if_neg hup] at hp
  split at hp
  · have hlength := congrArg List.length hp
    rw [List.length_dropLast, List.length_append, List.length_singleton] at hlength
    omega
  · have hlast : Path.fileName path = Path.fileName path ++ Text.ofString ".tmp" := by
      simpa using hp
    have htmp : (Text.ofString ".tmp").length = 4 := by decide
    have hlength := congrArg List.length hlast
    rw [List.length_append] at hlength
    omega

/-! ## Saves -/

/-- What is there before the file is moved: it stands under the temporary name, and nothing else has
changed but for directories. -/
structure Prepared (s u : LinkedTree) (temporary : Text) (k : List Text) (content : Bytes) :
    Prop where
  entry : s.spot? temporary = some k
  links : u.links = s.links
  numbers : u.numbers = s.numbers
  current : u.tree.current = s.tree.current
  node : u.tree.node? k = some (.file content)
  fileAt : ∀ k', k' ≠ k → u.fileAt? k' = s.fileAt? k'

theorem prepared_of_write {content : Bytes} (hplain : s.IsPlain temporary) (h : SameFiles s u)
    (hw : u.write temporary content = .ok v) : ∃ k, Prepared s v temporary k content := by
  obtain ⟨k, hk, hlacks, rfl⟩ := write_eq_ok (hplain.of_links h.links h.numbers h.current) hw
  rw [spot?_of_links h.links h.current] at hk
  refine ⟨k, hk, h.links, h.numbers, h.current, ?_, fun k' hk' => ?_⟩
  · rw [FileTree.node?_put hlacks.ne_nil, if_pos rfl]
  · rw [← h.fileAt? k']
    exact fileAt?_congr rfl (FileTree.fileAt?_congr (FileTree.node?_put_of_ne hk' _))

namespace Prepared

variable {content : Bytes}

theorem lacksDirectory (h : Prepared s u temporary k content) : u.tree.LacksDirectory k := by
  intro n hn
  rw [h.node] at hn
  cases hn
  rfl

/-- What the move leaves: the file at the entry of the path, nothing under the temporary name, and
all else as it was. -/
theorem moved (h : Prepared s u temporary k content) (hplain : s.IsPlain temporary)
    (hslash : path.endsWith "/" = false) (hm : u.move temporary path = .ok v) : ∃ new,
      s.spot? path = some new ∧ v.fileAt? new = some (.inr (.file content)) ∧
        (s.link? new = none → v.read path = .ok content) ∧
        (k ≠ new → v.link? k = none ∧ v.tree.node? k = none) ∧
        ∀ k', k' ≠ new → k' ≠ k → v.fileAt? k' = s.fileAt? k' := by
  have hentry : u.spot? temporary = some k := by
    rw [spot?_of_links h.links h.current]
    exact h.entry
  obtain ⟨new, hfit, hnew, hfree, htree, hlinks⟩ :=
    move_eq_ok (hplain.of_links h.links h.numbers h.current) hentry h.node hm
  have hlink : ∀ k', v.link? k' = if k' = new then none else s.link? k' := by
    intro k'
    rw [link?_filter hlinks, link?_of_links h.links]
  have hnode : v.tree.node? new = some (.file content) := by
    rw [htree, FileTree.node?_put hfree.ne_nil, if_pos rfl]
  have hlinkNew : v.link? new = none := by rw [hlink, if_pos rfl]
  refine ⟨new, ?_, fileAt?_of_node hlinkNew hnode rfl, fun hno => ?_, fun hne => ⟨?_, ?_⟩,
    fun k' hk' hk => ?_⟩
  · rw [← spot?_of_links h.links h.current]
    exact spot?_of_reachEntry hnew
  · have hkeeps : FileTree.KeepsDirectories u.tree v.tree :=
      htree ▸ (FileTree.KeepsDirectories.remove h.lacksDirectory).trans (.put (hfree.remove k) _)
    have hsame : v.links = u.links := by
      rw [hlinks]
      exact filter_links (by rwa [link?_of_links h.links])
    have hcurrent : v.tree.current = u.tree.current := by
      rw [htree]
      rfl
    obtain ⟨hne, hshort, hpass⟩ := reachEntry_eq_ok.1 hnew
    have hreach : v.reachEntry path = .ok new := by
      refine reachEntry_eq_ok.2 ⟨hne, hshort, ?_⟩
      rw [wayToEntry_of_links hsame hcurrent]
      exact Way.pass_mono hpass hkeeps
    exact read_of_entry hfit hslash hreach hlinkNew hnode
  · rw [hlink, if_neg hne]
    exact (hplain k h.entry).1
  · rw [htree, FileTree.node?_put_of_ne hne, FileTree.node?_remove h.lacksDirectory.ne_nil,
      if_pos rfl]
  · rw [← h.fileAt k' hk]
    refine fileAt?_congr ?_ (FileTree.fileAt?_congr ?_)
    · rw [hlink, if_neg hk', link?_of_links h.links]
    · rw [htree, FileTree.node?_put_of_ne hk', FileTree.node?_remove_of_ne hk]

end Prepared

/-- **A save happens as a whole or not at all**, where the temporary name is neither a symbolic link
nor one of several names of a file. For every file system with links and every index, at a path with
a last component: the save succeeds, and then the entry that the path names is a file that holds the
written form of the index, which is what the path reads unless a link stood there; nothing stands
under the temporary name, and every other file and link is as it was. Or its fault is reported, and
then every file and link but the one under the temporary name is as it was. -/
theorem save_atomic (htidy : Path.tidy path = path) (hname : Path.fileName path ≠ [])
    (s : LinkedTree) (i : Index) :
    ∃ temporary, Artifact.temporary? path = some temporary ∧ (s.IsPlain temporary →
      (∃ s' new, Artifact.saveBy operations s i path = (.ok (), s') ∧ s.spot? path = some new ∧
        s'.fileAt? new = some (.inr (.file (Utf8.encode i.toJson.indented))) ∧
        (s.link? new = none → s'.read path = .ok (Utf8.encode i.toJson.indented)) ∧
        (∀ k, s.spot? temporary = some k → s'.link? k = none ∧ s'.tree.node? k = none) ∧
        ∀ k, s.spot? path ≠ some k → s.spot? temporary ≠ some k → s'.fileAt? k = s.fileAt? k) ∨
      ∃ fault message s', Artifact.saveBy operations s i path = (.error fault, s') ∧
        fault.failure = .reported message ∧
        ∀ k, s.spot? temporary ≠ some k → s'.fileAt? k = s.fileAt? k) := by
  obtain ⟨temporary, ht⟩ := Artifact.exists_temporary_of_fileName hname
  refine ⟨temporary, ht, fun hplain => ?_⟩
  have hdirectories := sameFiles_of_makeDirectories s (Path.parent path)
  obtain ⟨result, s', h⟩ : ∃ result s', Artifact.saveBy operations s i path = (result, s') :=
    ⟨_, _, rfl⟩
  cases result with
  | ok result =>
    obtain ⟨temporary', s₁, s₂, ht', hmake, -, hwrite, hmove⟩ := Artifact.saveBy_eq_ok.1 h
    obtain rfl : temporary' = temporary := Option.some.inj (ht'.symm.trans ht)
    rw [hmake] at hdirectories
    obtain ⟨k, hprepared⟩ := prepared_of_write hplain hdirectories hwrite
    obtain ⟨new, hnew, hfile, hread, htemp, hothers⟩ :=
      hprepared.moved hplain (Path.noSlash_of_tidy htidy hname) hmove
    refine .inl ⟨s', new, h, hnew, hfile, hread, fun k' hk' => ?_, fun k' hp hk' => ?_⟩
    · obtain rfl : k' = k := Option.some.inj (hk'.symm.trans hprepared.entry)
      exact htemp fun he => spot?_temporary_ne ht hk' (he ▸ hnew)
    · exact hothers k' (fun he => hp (he ▸ hnew)) fun he => hk' (he ▸ hprepared.entry)
  | error fault =>
    rcases Artifact.saveBy_eq_error h with
      ⟨hnone, -⟩ | ⟨temporary', message, ht', rfl, rfl | ⟨s₁, hmake, hwrite⟩⟩
    · rw [hnone] at ht
      cases ht
    · exact .inr ⟨_, message, _, h, rfl, fun k _ => hdirectories.fileAt? k⟩
    · obtain rfl : temporary' = temporary := Option.some.inj (ht'.symm.trans ht)
      rw [hmake] at hdirectories
      obtain ⟨k, hprepared⟩ := prepared_of_write hplain hdirectories hwrite
      exact .inr ⟨_, message, s', h, rfl,
        fun k' hk' => hprepared.fileAt k' fun he => hk' (he ▸ hprepared.entry)⟩

/-- A link at the path, to a file that stands at two places, with a temporary file that was left. -/
def overLink : LinkedTree where
  tree := ⟨[(["store"], .directory), (["store", "old"], .file [0x31]), (["old"], .file [0x31]),
    (["store", "r.json.tmp"], .file [0x7b])], "/"⟩
  links := [(["store", "r.json"], "../old")]
  numbers := [(["store", "old"], 0), (["old"], 0)]

theorem save_atomic_overLink :
    Path.tidy "/store/r.json" = Text.ofString "/store/r.json" ∧
      Path.fileName "/store/r.json" ≠ [] ∧ overLink.IsPlain "/store/r.json.tmp" ∧
      ∃ s', Artifact.saveBy operations overLink ⟨"/r", ["a.ts"], [], [], none⟩ "/store/r.json" =
          (.ok (), s') ∧
        overLink.read "/store/r.json" = .ok [0x31] ∧
        s'.fileAt? ["store", "r.json"] = some (.inr (.file
          (Utf8.encode (Index.toJson ⟨"/r", ["a.ts"], [], [], none⟩).indented))) ∧
        s'.tree.node? ["store", "r.json.tmp"] = none ∧
        s'.fileAt? ["old"] = some (.inr (.file [0x31])) := by
  have htidy : Path.tidy "/store/r.json" = Text.ofString "/store/r.json" := by decide +kernel
  have hname : Path.fileName "/store/r.json" ≠ [] := by decide +kernel
  have htemporary : Artifact.temporary? "/store/r.json" =
      some (Text.ofString "/store/r.json.tmp") := by
    decide +kernel
  have hentry : overLink.spot? "/store/r.json" = some [Text.ofString "store", "r.json"] := by
    decide +kernel
  have htemp : overLink.spot? "/store/r.json.tmp" = some [Text.ofString "store", "r.json.tmp"] := by
    decide +kernel
  have hplain : overLink.IsPlain "/store/r.json.tmp" := by
    intro key hkey
    cases htemp.symm.trans hkey
    decide
  refine ⟨htidy, hname, hplain, ?_⟩
  obtain ⟨temporary, ht, hends⟩ := save_atomic htidy hname overLink ⟨"/r", ["a.ts"], [], [], none⟩
  obtain rfl : temporary = Text.ofString "/store/r.json.tmp" :=
    Option.some.inj (ht.symm.trans htemporary)
  rcases hends hplain with
    ⟨s', new, hsave, hnew, hfile, -, hnone, hothers⟩ | ⟨fault, message, s', hsave, -⟩
  · cases hnew.symm.trans hentry
    refine ⟨s', hsave, by rfl, hfile, (hnone _ htemp).2, ?_⟩
    rw [hothers ["old"] (by rw [hentry]; decide) (by rw [htemp]; decide)]
    rfl
  · have hok : (Artifact.saveBy operations overLink ⟨"/r", ["a.ts"], [], [], none⟩
        "/store/r.json").1 = .ok () := by rfl
    rw [hsave] at hok
    cases hok

/-- **A save through a link changes another file**: the one that the temporary name leads to, or
that stands under it as well. Directories that are made for a save remain when it fails. -/
theorem save_followed :
    let i : Index := ⟨"/r", [], [], [], none⟩
    let linked : LinkedTree :=
      ⟨⟨[(["store"], .directory), (["store", "other"], .file [0x31])], "/"⟩,
        [(["store", "r.json.tmp"], "other")], []⟩
    let shared : LinkedTree := ⟨⟨[(["store"], .directory), (["store", "other"], .file [0x31]),
      (["store", "r.json.tmp"], .file [0x31])], "/"⟩, [],
      [(["store", "other"], 0), (["store", "r.json.tmp"], 0)]⟩
    let empty : LinkedTree := ⟨⟨[], "/"⟩, [], []⟩
    (∀ s ∈ [linked, shared], ∃ s',
      Artifact.saveBy operations s i "/store/r.json" = (.ok (), s') ∧
        s.fileAt? ["store", "other"] = some (.inr (.file [0x31])) ∧
        s'.fileAt? ["store", "other"] = some (.inr (.file (Utf8.encode i.toJson.indented)))) ∧
    ∃ fault s', Artifact.saveBy operations empty i "/new/sub/a\x00.json" = (.error fault, s') ∧
      empty.tree.node? ["new"] = none ∧ s'.tree.node? ["new"] = some .directory := by
  intro i linked shared empty
  refine ⟨fun s hs => ?_, _, _, Prod.ext (by rfl) rfl, by rfl, by rfl⟩
  rcases List.mem_cons.1 hs with rfl | hs
  · exact ⟨_, Prod.ext (by rfl) rfl, by rfl, by rfl⟩
  · rcases List.mem_singleton.1 hs with rfl
    exact ⟨_, Prod.ext (by rfl) rfl, by rfl, by rfl⟩

end LinkedTree

/-! ## Trees without links -/

section Maps

variable {σ τ : Type} {A : FileOperations σ} {B : FileOperations τ} {f : σ → τ} {good : Text → Prop}
  {path temporary : Text} {i : Index}

/-- The operations of one file system are those of another one, seen through a map of their states,
for some paths. -/
structure FileOperations.Maps (A : FileOperations σ) (B : FileOperations τ) (f : σ → τ)
    (good : Text → Prop) : Prop where
  parent : ∀ {p}, good p → good (Path.parent p)
  isDirectory : ∀ {p} s, good p → B.isDirectory (f s) p = A.isDirectory s p
  makeDirectory : ∀ {p} s, good p → B.makeDirectory (f s) p = (A.makeDirectory s p).map f
  write : ∀ {p} s content, good p → B.write (f s) p content = (A.write s p content).map f
  move : ∀ {p q} s, good p → good q → B.move (f s) p q = (A.move s p q).map f

namespace FileOperations.Maps

variable (h : A.Maps B f good)
include h

theorem settle (hp : good path) (s : σ) (made : Except FileFault σ) :
    B.settle (f s) path (made.map f) = Prod.map id f (A.settle s path made) := by
  cases made with
  | ok u => rfl
  | error fault =>
    unfold FileOperations.settle
    dsimp only [Except.map]
    rw [h.isDirectory s hp]
    split <;> rfl

theorem makeDirectories (hp : good path) (s : σ) :
    B.makeDirectories (f s) path = Prod.map id f (A.makeDirectories s path) := by
  rw [FileOperations.makeDirectories, FileOperations.makeDirectories]
  generalize (Path.components path).length + 1 = bound
  induction bound generalizing path with
  | zero => rfl
  | succ bound ih =>
    rw [makeDirectoriesWithin, makeDirectoriesWithin, h.makeDirectory s hp]
    have hsettle := h.settle hp s (A.makeDirectory s path)
    rcases hm : A.makeDirectory s path with (⟨_ | _, _⟩ | _ | _) | u
    case error.refused.noEntry =>
      dsimp only [Except.map]
      split
      · rfl
      · rw [ih (h.parent hp)]
        rcases A.makeDirectoriesWithin bound s (Path.parent path) with ⟨_ | _, u⟩
        · rfl
        · dsimp only [Prod.map, id_eq]
          rw [h.makeDirectory u hp, h.settle hp]
          rfl
    all_goals
      rw [hm] at hsettle
      exact hsettle

/-- **A save by the one operations is a save by the other ones.** -/
theorem saveBy (hp : good path)
    (ht : ∀ temporary, Artifact.temporary? path = some temporary → good temporary) (s : σ)
    (i : Index) :
    Artifact.saveBy B (f s) i path = Prod.map id f (Artifact.saveBy A s i path) := by
  unfold Artifact.saveBy
  rcases htemp : Artifact.temporary? path with _ | temporary
  · rfl
  · dsimp only
    rw [h.makeDirectories (h.parent hp)]
    rcases A.makeDirectories s (Path.parent path) with ⟨_ | _, u⟩
    · rfl
    · dsimp only [Prod.map, id_eq]
      split
      · rfl
      · rw [h.write u _ (ht _ htemp)]
        rcases A.write u temporary (Utf8.encode i.text) with _ | v
        · rfl
        · dsimp only [Except.map]
          rw [h.move v (ht _ htemp) hp]
          rcases A.move v temporary path with _ | w <;> rfl

end FileOperations.Maps

end Maps

namespace LinkedTree

/-- A file tree as a tree with links, of which it has none. -/
def ofTree (t : FileTree) : LinkedTree := ⟨t, [], []⟩

/-- A path from a root that leads through no parents. -/
structure IsDirect (path : Text) : Prop where
  root_ne_nil : Path.root path ≠ []
  ne_up : ∀ c ∈ Path.components path, c ≠ Path.up

variable {t : FileTree} {path : Text} {d cs : List Text}

theorem advance_ofTree (h : ∀ c ∈ cs, c ≠ Path.up) :
    (ofTree t).advance d cs = (((ofTree t).advance d cs).1, .place (d ++ cs)) := by
  induction cs generalizing d with
  | nil => rw [List.append_nil]; rfl
  | cons c cs ih =>
    rw [advance_cons (.inr rfl), next, if_neg (h c List.mem_cons_self),
      ih fun c hc => h c (List.mem_cons_of_mem _ hc), List.append_assoc]
    rfl

theorem way_ofTree (h : ∀ c ∈ cs, c ≠ Path.up) :
    (ofTree t).way maxLinks d cs = ⟨((ofTree t).advance d cs).1, some (d ++ cs)⟩ := by
  rw [maxLinks, way, advance_ofTree h]

/-- A way without links and parents is the way in the file tree. -/
theorem pass_ofTree (h : ∀ c ∈ cs, c ≠ Path.up) : ((ofTree t).way maxLinks d cs).pass t = do
    FileTree.walk t d cs
    return d ++ cs := by
  have hsteps : (((ofTree t).advance d cs).1.forM fun step =>
      FileTree.enter (t.node? step.1) step.2) = FileTree.walk t d cs := by
    induction cs generalizing d with
    | nil => rfl
    | cons c cs ih =>
      rw [advance_cons (.inr rfl), next, if_neg (h c List.mem_cons_self)]
      exact congrArg (FileTree.enter (t.node? d) c >>= fun _ => ·)
        (ih fun c hc => h c (List.mem_cons_of_mem _ hc))
  rw [way_ofTree h, Way.pass, hsteps]
  rfl

theorem reach_ofTree (h : IsDirect path) : (ofTree t).reach path = t.reach path := by
  have hcomponents : (ofTree t).components path = Path.components path := by
    rw [components, if_neg (by simpa using h.root_ne_nil), List.nil_append]
  rw [reach, wayTo, hcomponents, FileTree.reach, FileTree.place_of_ne_up h.root_ne_nil h.ne_up]
  exact congrArg (Path.checked path) (pass_ofTree h.ne_up)

theorem reachEntry_ofTree (h : IsDirect path) : (ofTree t).reachEntry path = t.reach path := by
  rw [← reach_ofTree h, reachEntry, reach, wayTo_eq_wayToEntry fun _ _ => rfl]

theorem putFile_ofTree (content : Bytes) (key : List Text) :
    (ofTree t).putFile path content key = (t.putFile path content key).map ofTree := by
  show (t.putFile path content key >>= _) = _
  cases t.putFile path content key <;> rfl

theorem putDirectory_ofTree (key : List Text) :
    (ofTree t).putDirectory key = (t.putDirectory key).map ofTree := by
  show (t.putDirectory key >>= _) = _
  cases t.putDirectory key <;> rfl

theorem moveEntry_ofTree (old new : List Text) :
    (ofTree t).moveEntry old new = (t.moveNode old new).map ofTree := by
  show (t.moveNode old new >>= _) = _
  cases t.moveNode old new <;> rfl

/-- **The operations on a tree without links** are those on the file tree. -/
theorem maps_ofTree : FileTree.operations.Maps operations ofTree IsDirect where
  parent h := by
    refine ⟨by rw [Path.root_parent]; exact h.root_ne_nil, fun c hc => ?_⟩
    rw [Path.components_parent] at hc
    exact h.ne_up c (List.dropLast_subset _ hc)
  isDirectory t h := by
    show isDirectory _ _ = FileTree.isDirectory _ _
    unfold isDirectory FileTree.isDirectory stat FileTree.stat FileTree.atPlace
    rw [reach_ofTree h]
    rfl
  makeDirectory t h := by
    show FileFault.onPath _ _ = (FileFault.onPath _ _).map _
    rw [reachEntry_ofTree h, ← FileFault.onPath_map]
    cases t.reach _ with
    | error why => rfl
    | ok key => exact congrArg (FileFault.onPath _) (putDirectory_ofTree key)
  write t content h := by
    show FileFault.onPath _ _ = (FileFault.onPath _ _).map _
    rw [reach_ofTree h, ← FileFault.onPath_map]
    cases t.reach _ with
    | error why => rfl
    | ok key => exact congrArg (FileFault.onPath _) (putFile_ofTree content key)
  move t hp hq := by
    show FileFault.onPaths _ _ _ = (FileFault.onPaths _ _ _).map _
    rw [reachEntry_ofTree hp, reachEntry_ofTree hq, ← FileFault.onPaths_map]
    cases t.reach _ with
    | error why => rfl
    | ok old =>
      cases t.reach _ with
      | error why => rfl
      | ok new => exact congrArg (FileFault.onPaths _ _) (moveEntry_ofTree old new)

/-- **A save in a tree without links** is the save in the file tree. -/
theorem saveBy_ofTree (h : IsDirect path) (t : FileTree) (i : Index) :
    Artifact.saveBy operations (ofTree t) i path =
      ((Artifact.save t i path).1, ofTree (Artifact.save t i path).2) := by
  refine maps_ofTree.saveBy h (fun temporary ht => ?_) t i
  have hname := Artifact.isName_temporary (Artifact.fileName_ne_nil ht)
  obtain ⟨hroot, hcomponents⟩ := Artifact.temporary_parts ht
  refine ⟨by rw [hroot]; exact h.root_ne_nil, fun c hc => ?_⟩
  rw [hcomponents] at hc
  rcases List.mem_append.1 hc with hc | hc
  · exact h.ne_up c (List.dropLast_subset _ hc)
  · rw [List.mem_singleton.1 hc]
    exact hname.ne_up

end LinkedTree

end SourceAtlas
