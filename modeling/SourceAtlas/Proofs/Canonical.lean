import Mathlib.Data.List.DropRight
import SourceAtlas.Proofs.Resolution

/-!
# Canonical paths of imports

What an import comes to is a path from a root in its normal form, whichever way it was spelled, or
else it keeps its text. So paths can be compared by their texts.

* `Path.IsCanonical`: a path from a root that stays as it is when it is made normal;
* `Path.isCanonical_assemble`, `Path.isCanonical_normalize`: a root and names;
* `Path.join_assemble`, `Path.append_assemble`: one more name, and a longer last name;
* **`Path.isCanonical_index`**, **`Path.isCanonical_source`**: the forms in which a module is found;
* `Resolver.Reached`: what imports and references come to when they do not keep their texts;
* **`Resolver.resolve_canonical`**: canonical paths, of which those that are equal when made normal
  are equal.
-/

namespace SourceAtlas

namespace Path

variable {a b e name p q r : Text} {cs : List Text} {t : FileTree}

/-! ## Canonical paths -/

/-- A path from a root that stays as it is when it is made normal. -/
structure IsCanonical (p : Text) : Prop where
  startsWith_slash : p.startsWith "/" = true
  normalize : normalize p = p

/-- A root and names make a canonical path. -/
theorem isCanonical_assemble (hr : r = Text.ofString "//" ∨ r = Text.ofString "/")
    (h : ∀ c ∈ cs, IsName c) : IsCanonical (assemble r cs) := by
  have hcs : ∀ c ∈ cs, IsComponent c := fun c hc => (h c hc).toIsComponent
  have hroot := root_assemble (hr.imp_right .inl) hcs
  refine ⟨startsWith_slash_iff.2 ?_, ?_⟩
  · rw [hroot]
    rcases hr with rfl | rfl <;> exact List.cons_ne_nil _ _
  · have hup : collapse (!r.isEmpty) [] cs = cs := collapse_of_ne_up fun c hc => (h c hc).ne_up
    rw [Path.normalize, hroot, components_assemble (hr.imp_right .inl) hcs, hup]

/-- The normal form of a path from a root, by its parts. -/
theorem exists_assemble (h : p.startsWith "/" = true) :
    ∃ r cs, (r = Text.ofString "//" ∨ r = Text.ofString "/") ∧ (∀ c ∈ cs, IsName c) ∧
      normalize p = assemble r cs := by
  have hne := startsWith_slash_iff.1 h
  refine ⟨root p, components (normalize p), root_of_ne_nil hne,
    fun c hc => isName_of_mem_normalize hne hc, ?_⟩
  rw [components_normalize]
  rfl

theorem isCanonical_normalize (h : p.startsWith "/" = true) : IsCanonical (normalize p) := by
  obtain ⟨r, cs, hr, hcs, hp⟩ := exists_assemble h
  exact hp ▸ isCanonical_assemble hr hcs

theorem IsNormal.isCanonical (h : IsNormal p) : IsCanonical p :=
  ⟨startsWith_slash_iff.2 h.root_ne_nil, h.normalize⟩

/-! ## Names at the end -/

theorem assemble_of_root (hr : r = Text.ofString "//" ∨ r = Text.ofString "/") (cs : List Text) :
    assemble r cs = r ++ Text.joinWith "/" cs := by
  rcases hr with rfl | rfl <;> rfl

/-- One more name. -/
theorem join_assemble (hr : r = Text.ofString "//" ∨ r = Text.ofString "/")
    (hcs : ∀ c ∈ cs, IsComponent c) (hn : IsComponent name) :
    join (assemble r cs) name = assemble r (cs ++ [name]) := by
  have hslash := hn.startsWith_slash
  by_cases hne : cs = []
  · subst hne
    rcases hr with rfl | rfl <;> rw [join, hslash] <;> rfl
  · have htidy := tidy_assemble (hr.imp_right .inl) hcs
    have hc : components (assemble r cs) ≠ [] := by
      rwa [components_assemble (hr.imp_right .inl) hcs]
    have hnil : (assemble r cs).isEmpty = false := by
      rw [List.isEmpty_eq_false_iff]
      exact assemble_ne_nil fun c hc => (hcs c hc).nonempty
    rw [join, hslash, noSlash_of_tidy htidy (fileName_ne_nil hc), hnil, assemble_of_root hr,
      assemble_of_root hr, Text.joinWith_concat hne]
    simp

/-- A longer last name. -/
theorem append_assemble (hr : r = Text.ofString "//" ∨ r = Text.ofString "/") (cs : List Text)
    (name e : Text) : assemble r (cs ++ [name]) ++ e = assemble r (cs ++ [name ++ e]) := by
  have hlast := Text.joinWith_append_joinWith "/" name e cs []
  rw [assemble_of_root hr, assemble_of_root hr, List.append_assoc, ← hlast]
  rfl

/-- A name is one also with something behind it. -/
theorem IsName.append (h : IsName name) (he : Point.ofChar '/' ∉ e) : IsName (name ++ e) := by
  have hprefix : name <+: name ++ e := List.prefix_append name e
  have hstarts : ∀ z ∈ up.inits ++ here.inits, z = [] ∨ z = here ∨ z = up := by decide
  have hne : ∀ w, (∀ z ∈ w.inits, z = [] ∨ z = here ∨ z = up) → name ++ e ≠ w := by
    rintro w hw rfl
    rcases hw name ((List.mem_inits _ _).2 hprefix) with rfl | rfl | rfl
    · exact h.nonempty rfl
    · exact h.ne_here rfl
    · exact h.ne_up rfl
  refine ⟨⟨fun hnil => h.nonempty (List.append_eq_nil_iff.1 hnil).1, ?_, ?_⟩, ?_⟩
  · rw [List.mem_append, not_or]
    exact ⟨h.noSlash, he⟩
  · exact hne here fun z hz => hstarts z (List.mem_append_right _ hz)
  · exact hne up fun z hz => hstarts z (List.mem_append_left _ hz)

/-! ## The forms of a module -/

/-- **The index file of a directory** has a canonical path. -/
theorem isCanonical_index (hp : p.startsWith "/" = true) (he : Point.ofChar '/' ∉ e) :
    IsCanonical (join (normalize p) ("index" ++ e)) := by
  obtain ⟨r, cs, hr, hcs, hp⟩ := exists_assemble hp
  have hname : IsName "index" := by decide
  have hindex : IsName ("index" ++ e) := hname.append he
  rw [hp, join_assemble hr (fun c hc => (hcs c hc).toIsComponent) hindex.toIsComponent]
  exact isCanonical_assemble hr (List.forall_mem_append.2 ⟨hcs, List.forall_mem_singleton.2 hindex⟩)

/-- A root with one or two full stops behind it is no file. -/
theorem isFile_root_append (hr : r = Text.ofString "//" ∨ r = Text.ofString "/")
    (he : e = here ∨ e = up) : t.isFile (r ++ e) = false := by
  have hroot : root (r ++ e) ≠ [] := by
    rcases hr with rfl | rfl <;> rcases he with rfl | rfl <;> decide
  have hplace : t.place (r ++ e) = [] := by
    rw [FileTree.place_of_root hroot]
    rcases hr with rfl | rfl <;> rcases he with rfl | rfl <;> decide
  rw [← Bool.not_eq_true, FileTree.isFile_eq_true]
  rintro ⟨n, hstat, hn⟩
  have hnode := (FileTree.stat_eq_ok.1 hstat).2.2.1
  rw [hplace, FileTree.node?_nil] at hnode
  cases hnode
  cases hn

/-- **The source file of a module** has a canonical path, where it is a file: at a root, an
extension of full stops makes no name. -/
theorem isCanonical_source (hp : p.startsWith "/" = true) (he : Point.ofChar '/' ∉ e)
    (h : t.isFile (normalize p ++ e) = true) : IsCanonical (normalize p ++ e) := by
  obtain ⟨r, cs, hr, hcs, hp⟩ := exists_assemble hp
  rw [hp] at h ⊢
  rcases List.eq_nil_or_concat' cs with rfl | ⟨ds, name, rfl⟩
  · have hroot : assemble r [] = r := (assemble_of_root hr []).trans (List.append_nil r)
    rw [hroot] at h ⊢
    by_cases hn : IsName e
    · have hone : r ++ e = assemble r [e] := (assemble_of_root hr [e]).symm
      exact hone ▸ isCanonical_assemble hr (List.forall_mem_singleton.2 hn)
    · by_cases hnil : e = []
      · rw [hnil, List.append_nil, ← hroot]
        exact isCanonical_assemble hr hcs
      · have hdots : e = here ∨ e = up := by
          by_contra hne
          rw [not_or] at hne
          exact hn ⟨⟨hnil, he, hne.1⟩, hne.2⟩
        rw [isFile_root_append hr hdots] at h
        cases h
  · obtain ⟨hds, hname⟩ := List.forall_mem_append.1 hcs
    have hlast := (List.forall_mem_singleton.1 hname).append he
    rw [append_assemble hr]
    exact isCanonical_assemble hr
      (List.forall_mem_append.2 ⟨hds, List.forall_mem_singleton.2 hlast⟩)

/-! ## Paths that are put together -/

theorem startsWith_slash_append (h : a.startsWith "/" = true) (b : Text) :
    Text.startsWith (a ++ b) "/" = true := by
  rw [Text.startsWith_iff] at *
  exact h.trans (List.prefix_append a b)

/-- What is seen from a directory with a path from a root has such a path. -/
theorem startsWith_slash_join (h : a.startsWith "/" = true) (b : Text) :
    Text.startsWith (join a b) "/" = true := by
  unfold join
  split
  · assumption
  · split
    · exact startsWith_slash_append h b
    · exact startsWith_slash_append (startsWith_slash_append h _) b

theorem isCanonical_resolveFrom (h : a.startsWith "/" = true) (b : Text) :
    IsCanonical (resolveFrom a b) :=
  isCanonical_normalize (startsWith_slash_join h b)

/-- The directory of a path from a root. -/
theorem startsWith_slash_directory (h : p.startsWith "/" = true) :
    Text.startsWith (directory p) "/" = true := by
  obtain ⟨u, rfl⟩ := Text.startsWith_iff.1 h
  unfold directory
  cases hc : Text.cutLast? '/' (Text.ofString "/" ++ u) with
  | none => exact absurd (List.mem_cons_self (a := Point.ofChar '/')) (Text.cutLast?_eq_none.1 hc)
  | some ab =>
    obtain ⟨a, b⟩ := ab
    obtain ⟨hab, -⟩ := Text.cutLast?_eq_some.1 hc
    have ha : a ++ Text.ofString "/" <+: Text.ofString "/" ++ u := by
      rw [hab]
      exact (List.prefix_append_right_inj a).2 ⟨b, rfl⟩
    have hstart : ∀ w : Text, w ≠ [] → w <+: a ++ Text.ofString "/" →
        Text.startsWith w "/" = true := by
      intro w hw hwa
      obtain ⟨c, w, rfl⟩ := List.exists_cons_of_ne_nil hw
      obtain ⟨v, hv⟩ := hwa.trans ha
      rw [Text.startsWith_iff]
      exact ⟨w, congrArg (· :: w) (List.cons.inj hv).1.symm⟩
    dsimp only
    split
    · exact hstart _ (by simp [Text.ofString]) List.prefix_rfl
    · rename_i hne
      refine hstart _ (by simpa using hne) ?_
      have htrim : (a.reverse.dropWhile fun c => decide (c = Point.ofChar '/')).reverse <+: a :=
        List.rdropWhile_prefix _ a
      exact htrim.trans (List.prefix_append a _)

end Path

/-! ## Imports and references -/

namespace Resolver

variable {r : Resolver} {t : FileTree} {base candidate fromFile p q reference specifier : Text}

theorem isCanonical_of_probe (hb : base.startsWith "/" = true)
    (he : Point.ofChar '/' ∉ r.sourceExtension)
    (h : r.probe t (Path.resolveFrom base candidate) = some p) :
    Path.IsCanonical p ∧ t.isFile p = true := by
  have hmem := List.mem_of_find?_eq_some h
  have hfile : t.isFile p = true := List.find?_some h
  have hjoin := Path.startsWith_slash_join hb candidate
  simp only [List.mem_cons, List.not_mem_nil, or_false] at hmem
  rcases hmem with rfl | rfl | rfl
  · exact ⟨Path.isCanonical_normalize hjoin, hfile⟩
  · exact ⟨Path.isCanonical_index hjoin he, hfile⟩
  · exact ⟨Path.isCanonical_source hjoin he hfile, hfile⟩

theorem isCanonical_of_isRelative (he : Point.ofChar '/' ∉ r.sourceExtension)
    (hf : fromFile.startsWith "/" = true) (hs : isRelative specifier = true) :
    Path.IsCanonical (r.resolve t specifier fromFile) := by
  have hd := Path.startsWith_slash_directory hf
  rw [resolve, if_pos hs]
  dsimp only
  cases h : r.probe t (Path.resolveFrom (Path.directory fromFile) specifier) with
  | none => exact Path.isCanonical_resolveFrom hd specifier
  | some p => exact (isCanonical_of_probe hd he h).1

theorem isCanonical_or_eq_of_not_isRelative (hb : r.base.startsWith "/" = true)
    (he : Point.ofChar '/' ∉ r.sourceExtension) (hs : isRelative specifier = false) :
    r.resolve t specifier fromFile = specifier ∨
      Path.IsCanonical (r.resolve t specifier fromFile) ∧
        t.isFile (r.resolve t specifier fromFile) = true := by
  rw [resolve, if_neg (by simp [hs])]
  cases ha : r.aliases.findSome? (r.probeAlias t specifier) with
  | some p =>
    obtain ⟨a, -, h⟩ := List.exists_of_findSome?_eq_some ha
    obtain ⟨wild, -, h⟩ := Option.bind_eq_some_iff.1 h
    obtain ⟨target, -, h⟩ := List.exists_of_findSome?_eq_some h
    exact .inr (isCanonical_of_probe hb he h)
  | none =>
    cases hp : r.probe t (Path.resolveFrom r.base specifier) with
    | some p => exact .inr (isCanonical_of_probe hb he hp)
    | none => exact .inl rfl

theorem isCanonical_or_eq_of_reference (hf : fromFile.startsWith "/" = true) :
    resolveReference t reference fromFile = reference ∨
      Path.IsCanonical (resolveReference t reference fromFile) ∧
        t.present (resolveReference t reference fromFile) = true := by
  unfold resolveReference
  dsimp only
  split
  · rename_i h
    exact .inr ⟨Path.isCanonical_resolveFrom (Path.startsWith_slash_directory hf) reference, h⟩
  · exact .inl rfl

/-- What an import or a reference in a file with a path from the root comes to, if it is relative or
does not keep its text. -/
inductive Reached (r : Resolver) (t : FileTree) : Text → Prop where
  | relative {specifier fromFile : Text} : fromFile.startsWith "/" = true →
      isRelative specifier = true → Reached r t (r.resolve t specifier fromFile)
  | found {specifier fromFile : Text} : fromFile.startsWith "/" = true →
      r.resolve t specifier fromFile ≠ specifier → Reached r t (r.resolve t specifier fromFile)
  | reference {reference fromFile : Text} : fromFile.startsWith "/" = true →
      resolveReference t reference fromFile ≠ reference →
      Reached r t (resolveReference t reference fromFile)

theorem Reached.isCanonical (h : r.Reached t p) (hb : r.base.startsWith "/" = true)
    (he : Point.ofChar '/' ∉ r.sourceExtension) : Path.IsCanonical p := by
  cases h with
  | relative hf hs => exact isCanonical_of_isRelative he hf hs
  | @found specifier fromFile hf hne =>
    cases hs : isRelative specifier with
    | true => exact isCanonical_of_isRelative he hf hs
    | false => exact ((isCanonical_or_eq_of_not_isRelative hb he hs).resolve_left hne).1
  | reference hf hne => exact ((isCanonical_or_eq_of_reference hf).resolve_left hne).1

/-- **What imports and references come to.** A relative import comes to a canonical path; any other
one keeps its text or comes to the canonical path of a file; a reference keeps its text or comes to
the canonical path of something that is there. So paths that were reached are equal if they are when
made normal, to one another and to the normal paths of files. The trees are those of `FileTree`. -/
theorem resolve_canonical (r : Resolver) (t : FileTree) (hb : r.base.startsWith "/" = true)
    (he : Point.ofChar '/' ∉ r.sourceExtension) :
    (∀ specifier fromFile, fromFile.startsWith "/" = true →
      (isRelative specifier = true → Path.IsCanonical (r.resolve t specifier fromFile)) ∧
      (isRelative specifier = false → r.resolve t specifier fromFile = specifier ∨
        Path.IsCanonical (r.resolve t specifier fromFile) ∧
          t.isFile (r.resolve t specifier fromFile) = true)) ∧
      (∀ reference fromFile, fromFile.startsWith "/" = true →
        resolveReference t reference fromFile = reference ∨
          Path.IsCanonical (resolveReference t reference fromFile) ∧
            t.present (resolveReference t reference fromFile) = true) ∧
      ∀ p q, r.Reached t p → r.Reached t q ∨ Path.IsNormal q →
        Path.normalize p = Path.normalize q → p = q := by
  refine ⟨fun specifier fromFile hf => ⟨isCanonical_of_isRelative he hf,
    isCanonical_or_eq_of_not_isRelative hb he⟩, fun reference fromFile hf =>
      isCanonical_or_eq_of_reference hf, fun p q hp hq hpq => ?_⟩
  have hcanonical : Path.IsCanonical q := by
    rcases hq with hq | hq
    · exact hq.isCanonical hb he
    · exact hq.isCanonical
  rw [← (hp.isCanonical hb he).normalize, hpq, hcanonical.normalize]

/-- One module, by a relative import, by an alias and from the base directory. -/
theorem resolve_canonical_spellings :
    let r : Resolver := ⟨"/r/", [⟨"@lib/*", ["./lib/*"]⟩], ".ts"⟩
    let t : FileTree := ⟨[(["r"], .directory), (["r", "lib"], .directory),
      (["r", "lib", "b.ts"], .file [])], "/"⟩
    r.base.startsWith "/" = true ∧ Point.ofChar '/' ∉ r.sourceExtension ∧
      Text.startsWith "/r/src/a.ts" "/" = true ∧
      r.resolve t "../lib//b" "/r/src/a.ts" = r.resolve t "@lib/b" "/r/c.ts" ∧
      r.resolve t "@lib/b" "/r/c.ts" = r.resolve t "lib/../lib/b.ts" "/r/c.ts" ∧
      r.resolve t "../lib//b" "/r/src/a.ts" = "/r/lib/b.ts" := by
  intro r t
  have hb : r.base.startsWith "/" = true := by decide
  have he : Point.ofChar '/' ∉ r.sourceExtension := by decide
  have hfile : Text.startsWith "/r/src/a.ts" "/" = true := by decide
  have hfile' : Text.startsWith "/r/c.ts" "/" = true := by decide
  have hrelative : r.Reached t (r.resolve t "../lib//b" "/r/src/a.ts") :=
    .relative hfile (by decide)
  have halias : r.Reached t (r.resolve t "@lib/b" "/r/c.ts") := .found hfile' (by decide)
  have hbase : r.Reached t (r.resolve t "lib/../lib/b.ts" "/r/c.ts") := .found hfile' (by decide)
  have hnormal : Path.IsNormal "/r/lib/b.ts" := ⟨by decide, by decide⟩
  obtain ⟨-, -, hequal⟩ := resolve_canonical r t hb he
  exact ⟨hb, he, hfile, hequal _ _ hrelative (.inl halias) (by decide),
    hequal _ _ halias (.inl hbase) (by decide), hequal _ _ hrelative (.inr hnormal) (by decide)⟩

end Resolver

end SourceAtlas
