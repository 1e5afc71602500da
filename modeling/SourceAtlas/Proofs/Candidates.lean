import SourceAtlas.Resolution
import SourceAtlas.Proofs.Affixes

/-!
# Candidates for an import

An import is looked for along one list of candidates: the targets of all aliases that fit, in their
order, and last the specifier as seen from the base directory. The first file among the forms of the
candidates is taken.

* `Alias.Stands`: what the wild card of a pattern stands for in a specifier;
* `Alias.matches?_eq_some`: a pattern is matched in this sense;
* `Resolver.AliasCandidates`, `Resolver.Candidates`: the candidates in their order;
* `Resolver.forms`: a candidate, its index file and its source file;
* **`Resolver.resolve_eq_first`**: the first file among the forms of all candidates.
-/

namespace SourceAtlas

/-! ## Patterns -/

namespace Alias

/-- What the wild card of the pattern stands for in a specifier: nothing where there is none and the
specifier is the pattern itself, else what stands between the parts around the first wild card. The
parts may not overlap. -/
inductive Stands (a : Alias) (s : Text) : Text → Prop where
  | whole : Point.ofChar '*' ∉ a.pattern → s = a.pattern → Stands a s []
  | between (before after w : Text) : a.pattern = before ++ Point.ofChar '*' :: after →
      Point.ofChar '*' ∉ before → s = before ++ w ++ after → Stands a s w

variable {a : Alias} {s w : Text}

theorem withoutLastNewline_eq_none (h : Point.ofChar '\n' ∉ s) : withoutLastNewline s = none := by
  rw [Option.eq_none_iff_forall_ne_some]
  intro t ht
  rw [withoutLastNewline, Text.before?_eq_some] at ht
  rw [ht] at h
  exact h (List.mem_append_right t List.mem_cons_self)

theorem between?_eq_some {before after : Text} (h : Point.ofChar '\n' ∉ s) :
    between? before after s = some w ↔ s = before ++ w ++ after := by
  unfold between?
  simp only [Option.bind_eq_bind, Option.bind_eq_some_iff, Text.after?_eq_some,
    Text.before?_eq_some]
  constructor
  · rintro ⟨u, rfl, v, rfl, hv⟩
    split at hv
    · cases hv
    · rw [← Option.some.inj hv, List.append_assoc]
  · rintro rfl
    have hw : Text.has w (Point.ofChar '\n') = false :=
      Text.has_eq_false_iff.2 fun hm => h (List.mem_append_left after (List.mem_append_right before hm))
    exact ⟨w ++ after, List.append_assoc .., w, rfl, by rw [hw]; rfl⟩

/-- **A pattern is matched** where its wild card stands for something. -/
theorem matches?_eq_some (h : Point.ofChar '\n' ∉ s) : a.matches? s = some w ↔ a.Stands s w := by
  unfold matches?
  rw [withoutLastNewline_eq_none h]
  cases hc : Text.cut? (Point.ofChar '*') a.pattern with
  | none =>
    have hstar := Text.cut?_eq_none.1 hc
    simp only [reduceCtorEq, or_false, Option.ite_none_right_eq_some, Option.some.injEq]
    constructor
    · rintro ⟨hs, rfl⟩
      exact .whole hstar hs
    · intro hw
      cases hw with
      | whole _ hs => exact ⟨hs, rfl⟩
      | between before after _ hp => exact absurd (by rw [hp]; simp) hstar
  | some parts =>
    obtain ⟨before, after⟩ := parts
    obtain ⟨hp, hb⟩ := Text.cut?_eq_some.1 hc
    simp only [Option.bind_none, Option.or_none, between?_eq_some h]
    constructor
    · exact .between before after w hp hb
    · intro hw
      cases hw with
      | whole hstar => exact absurd (by rw [hp]; simp) hstar
      | between before' after' _ hp' hb' hs =>
        rw [hp', Text.cut?_append hb'] at hc
        cases hc
        exact hs

end Alias

/-! ## Candidates -/

namespace Resolver

/-- The candidates that aliases give, in the order of the aliases and of their targets: for each alias
that fits, its targets as seen from the base directory, with what the wild card stands for in place of
their first wild card. -/
inductive AliasCandidates (base s : Text) : List Alias → List Text → Prop where
  | nil : AliasCandidates base s [] []
  | fits {a : Alias} {as : List Alias} {cs : List Text} {w : Text} : a.Stands s w →
      AliasCandidates base s as cs → AliasCandidates base s (a :: as)
        (a.targets.map (fun target => Path.resolveFrom base (Text.replaceFirst '*' w target)) ++ cs)
  | passed {a : Alias} {as : List Alias} {cs : List Text} : (∀ w, ¬ a.Stands s w) →
      AliasCandidates base s as cs → AliasCandidates base s (a :: as) cs

/-- The candidates for a specifier in a file, in their order: for a relative one the path as seen from
the directory of the file, for all others those of the aliases and the path as seen from the base
directory. -/
inductive Candidates (r : Resolver) (s fromFile : Text) : List Text → Prop where
  | relative : isRelative s = true →
      Candidates r s fromFile [Path.resolveFrom (Path.directory fromFile) s]
  | absolute {cs : List Text} : isRelative s = false → AliasCandidates r.base s r.aliases cs →
      Candidates r s fromFile (cs ++ [Path.resolveFrom r.base s])

/-- A candidate itself, its index file and its source file. -/
def forms (r : Resolver) (c : Text) : List Text :=
  [c, Path.join c ("index" ++ r.sourceExtension), c ++ r.sourceExtension]

variable {r : Resolver} {t : FileTree} {s fromFile base : Text} {as : List Alias} {cs cs' : List Text}

theorem exists_aliasCandidates (base s : Text) (as : List Alias) :
    ∃ cs, AliasCandidates base s as cs := by
  induction as with
  | nil => exact ⟨[], .nil⟩
  | cons a as ih =>
    obtain ⟨cs, h⟩ := ih
    by_cases hw : ∃ w, a.Stands s w
    · obtain ⟨w, hw⟩ := hw
      exact ⟨_, .fits hw h⟩
    · exact ⟨cs, .passed (not_exists.1 hw) h⟩

theorem AliasCandidates.unique (hs : Point.ofChar '\n' ∉ s) (h : AliasCandidates base s as cs)
    (h' : AliasCandidates base s as cs') : cs = cs' := by
  induction h generalizing cs' with
  | nil =>
    cases h'
    rfl
  | fits hw _ ih =>
    cases h' with
    | fits hw' h' =>
      have := ((Alias.matches?_eq_some hs).2 hw).symm.trans ((Alias.matches?_eq_some hs).2 hw')
      rw [ih h', Option.some.inj this]
    | passed hn _ => exact absurd hw (hn _)
  | passed hn _ ih =>
    cases h' with
    | fits hw _ => exact absurd hw (hn _)
    | passed _ h' => exact ih h'

/-- Every specifier has one list of candidates. -/
theorem existsUnique_candidates (r : Resolver) (hs : Point.ofChar '\n' ∉ s) (fromFile : Text) :
    ∃! cs, r.Candidates s fromFile cs := by
  cases hr : isRelative s with
  | true =>
    refine ⟨_, .relative hr, fun cs h => ?_⟩
    cases h with
    | relative => rfl
    | absolute hr' => cases hr.symm.trans hr'
  | false =>
    obtain ⟨cs, hcs⟩ := exists_aliasCandidates r.base s r.aliases
    refine ⟨_, .absolute hr hcs, fun cs' h => ?_⟩
    cases h with
    | relative hr' => cases hr.symm.trans hr'
    | absolute _ hcs' => rw [hcs.unique hs hcs']

/-! ## The search -/

/-- The aliases are searched along their candidates. -/
theorem findSome?_probeAlias (hs : Point.ofChar '\n' ∉ s) (h : AliasCandidates r.base s as cs) :
    as.findSome? (r.probeAlias t s) = (cs.flatMap r.forms).find? t.isFile := by
  induction h with
  | nil => rfl
  | @fits a as cs w hw _ ih =>
    have ha : r.probeAlias t s a = ((a.targets.map fun target =>
        Path.resolveFrom r.base (Text.replaceFirst '*' w target)).flatMap r.forms).find? t.isFile := by
      rw [probeAlias, (Alias.matches?_eq_some hs).2 hw, Option.bind_some, List.flatMap_map,
        List.find?_flatMap]
      rfl
    rw [List.flatMap_append, List.find?_append, ← ha, ← ih, List.findSome?_cons]
    cases r.probeAlias t s a <;> rfl
  | @passed a as cs hn _ ih =>
    have ha : r.probeAlias t s a = none := by
      have hm : a.matches? s = none :=
        Option.eq_none_iff_forall_ne_some.2 fun w hw => hn w ((Alias.matches?_eq_some hs).1 hw)
      rw [probeAlias, hm, Option.bind_none]
    rw [List.findSome?_cons, ha, ih]

/-- **An import is the first file among the forms of its candidates**, of which there is one list.
Where none of them is a file, a relative specifier comes to its candidate and any other one keeps its
text. The trees are those of `FileTree`. -/
theorem resolve_eq_first (r : Resolver) (t : FileTree) {s : Text} (fromFile : Text)
    (hs : Point.ofChar '\n' ∉ s) :
    (∃! cs, r.Candidates s fromFile cs) ∧ ∀ cs, r.Candidates s fromFile cs →
      r.resolve t s fromFile = ((cs.flatMap r.forms).find? t.isFile).getD
        (if isRelative s then Path.resolveFrom (Path.directory fromFile) s else s) := by
  refine ⟨existsUnique_candidates r hs fromFile, fun cs h => ?_⟩
  cases h with
  | relative hr =>
    rw [resolve, if_pos hr, if_pos hr, List.flatMap_singleton]
    rfl
  | @absolute cs hr hcs =>
    rw [resolve, if_neg (by simp [hr]), if_neg (by simp [hr]), List.flatMap_append,
      List.find?_append, ← findSome?_probeAlias hs hcs, List.flatMap_singleton]
    rfl

/-- Two aliases: the parts of the first one would overlap, and of the targets of the second one the
latter has an index file. -/
theorem resolve_eq_first_index :
    let r : Resolver := ⟨"/r", [⟨"@a/b*b/x", ["none/*"]⟩, ⟨"@a/*", ["gone/*", "lib/*"]⟩], ".ts"⟩
    let t : FileTree := ⟨[(["r"], .directory), (["r", "lib"], .directory),
      (["r", "lib", "b"], .directory), (["r", "lib", "b", "x"], .directory),
      (["r", "lib", "b", "x", "index.ts"], .file [])], "/"⟩
    Point.ofChar '\n' ∉ Text.ofString "@a/b/x" ∧
      r.Candidates "@a/b/x" "/r/a.ts" ["/r/gone/b/x", "/r/lib/b/x", "/r/@a/b/x"] ∧
      r.resolve t "@a/b/x" "/r/a.ts" = "/r/lib/b/x/index.ts" := by
  intro r t
  have hs : Point.ofChar '\n' ∉ Text.ofString "@a/b/x" := by decide
  have hoverlap : ∀ w, ¬ Alias.Stands ⟨"@a/b*b/x", ["none/*"]⟩ "@a/b/x" w := by
    intro w hw
    have hm : Alias.matches? ⟨"@a/b*b/x", ["none/*"]⟩ "@a/b/x" = none := by decide
    cases hm.symm.trans ((Alias.matches?_eq_some hs).2 hw)
  have hfits : Alias.Stands ⟨"@a/*", ["gone/*", "lib/*"]⟩ "@a/b/x" "b/x" :=
    .between "@a/" [] "b/x" rfl (by decide) rfl
  have hrelative : isRelative "@a/b/x" = false := by decide
  have hc : r.Candidates "@a/b/x" "/r/a.ts" ["/r/gone/b/x", "/r/lib/b/x", "/r/@a/b/x"] := by
    have halias : AliasCandidates r.base "@a/b/x" r.aliases _ := .passed hoverlap (.fits hfits .nil)
    exact Candidates.absolute hrelative halias
  refine ⟨hs, hc, ?_⟩
  rw [(resolve_eq_first r t "/r/a.ts" hs).2 _ hc]
  decide

end Resolver

end SourceAtlas
