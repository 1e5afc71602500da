import SourceAtlas.LinkedTree
import SourceAtlas.Proofs.FileTree

/-!
# Changes of file trees with links

A way depends on the links alone, whether it is open on the directories. No change but a move
touches a link.

* `LinkedTree.way_of_links`: a way by the links on it;
* `LinkedTree.way_concat`, **`LinkedTree.wayTo_eq_wayToEntry`**: a path leads to the entry that it
  names, unless that is a link;
* `LinkedTree.Way.pass_eq_ok`, `LinkedTree.Way.pass_mono`: when a way is open;
* `LinkedTree.spot?`, `LinkedTree.IsPlain`: the place of an entry, and entries of files that stand
  nowhere else;
* `LinkedTree.makeDirectory_eq_ok`, `LinkedTree.write_eq_ok`, `LinkedTree.move_eq_ok`: changes.
-/

namespace SourceAtlas.LinkedTree

variable {s u : LinkedTree} {key d k old new : List Text} {c path source target : Text}
  {content : Bytes}

/-! ## Links -/

theorem link?_of_links (h : u.links = s.links) (key : List Text) : u.link? key = s.link? key := by
  rw [link?, link?, h]

theorem number?_of_numbers (h : u.numbers = s.numbers) (key : List Text) :
    u.number? key = s.number? key := by
  rw [number?, number?, h]

theorem others_of_number? (h : s.number? key = none) : s.others key = [] := by rw [others, h]

/-- The links at other places are kept when those at one place are taken away. -/
theorem link?_filter (h : u.links = s.links.filter fun l => l.1 ≠ key) :
    u.link? k = if k = key then none else s.link? k := by
  rw [link?, link?, h, List.find?_filter]
  split
  · rename_i he
    subst he
    simp
  · rename_i he
    congr 2
    funext l
    by_cases hl : l.1 = k
    · simp [hl, he]
    · simp [hl]

/-- Nothing is taken away where there is no link. -/
theorem filter_links (h : s.link? key = none) : s.links.filter (fun l => l.1 ≠ key) = s.links := by
  rw [link?, Option.map_eq_none_iff, List.find?_eq_none] at h
  exact List.filter_eq_self.2 fun l hl => by simpa using h l hl

/-! ## Ways -/

theorem advance_of_links (h : u.links = s.links) (d rest : List Text) :
    u.advance d rest = s.advance d rest := by
  induction rest generalizing d with
  | nil => rfl
  | cons c cs ih => rw [advance, advance, link?_of_links h, ih, ih]

/-- **A way by the links on it.** -/
theorem way_of_links (h : u.links = s.links) (n : Nat) (d rest : List Text) :
    u.way n d rest = s.way n d rest := by
  induction n generalizing d rest with
  | zero => rw [way, way, advance_of_links h]
  | succ n ih =>
    rw [way, way, advance_of_links h]
    cases s.advance d rest with
    | mk steps stop =>
      cases stop with
      | place key => rfl
      | link d' rest' =>
        dsimp only
        rw [ih]

theorem components_of_current (h : u.tree.current = s.tree.current) (path : Text) :
    u.components path = s.components path := by
  rw [components, components, h]

theorem wayToEntry_of_links (h : u.links = s.links) (hc : u.tree.current = s.tree.current)
    (path : Text) : u.wayToEntry path = s.wayToEntry path := by
  unfold wayToEntry
  rw [components_of_current hc, way_of_links h]

/-- A step to a name that is no link. -/
theorem advance_cons (hc : c = Path.up ∨ s.link? (d ++ [c]) = none) (cs : List Text) :
    s.advance d (c :: cs) = ((d, c) :: (s.advance (next d c) cs).1, (s.advance (next d c) cs).2) := by
  rw [advance, next]
  split
  · rfl
  · rename_i hup
    rw [hc.resolve_left hup]

/-- One more name after a way. -/
theorem advance_concat (d cs : List Text) (c : Text) : s.advance d (cs ++ [c]) =
    match s.advance d cs with
    | (steps, .place key) => (steps ++ (s.advance key [c]).1, (s.advance key [c]).2)
    | (steps, .link d' rest) => (steps, .link d' (rest ++ [c])) := by
  induction cs generalizing d with
  | nil => rfl
  | cons x cs ih =>
    rw [List.cons_append]
    by_cases hx : x = Path.up ∨ s.link? (d ++ [x]) = none
    · rw [advance_cons hx, advance_cons hx, ih]
      cases s.advance (next d x) cs with
      | mk steps stop => cases stop <;> rfl
    · obtain ⟨hup, hlink⟩ := not_or.1 hx
      obtain ⟨text, htext⟩ := Option.ne_none_iff_exists'.1 hlink
      rw [advance, advance, if_neg hup, if_neg hup, htext]
      simp

/-- **One more name after a way**, unless it is a link. -/
theorem way_concat {n : Nat} {cs : List Text}
    (h : ∀ key, (s.way n d cs).goal = some key → c = Path.up ∨ s.link? (key ++ [c]) = none) :
    s.way n d (cs ++ [c]) = (s.way n d cs).extend c := by
  induction n generalizing d cs with
  | zero =>
    unfold way at h ⊢
    rw [advance_concat]
    rcases ha : s.advance d cs with ⟨steps, key | ⟨d', rest⟩⟩
    · rw [ha] at h
      dsimp only
      rw [advance_cons (h key rfl)]
      rfl
    · rfl
  | succ n ih =>
    unfold way at h ⊢
    rw [advance_concat]
    rcases ha : s.advance d cs with ⟨steps, key | ⟨d', rest⟩⟩
    · rw [ha] at h
      dsimp only
      rw [advance_cons (h key rfl)]
      rfl
    · rw [ha] at h
      dsimp only at h ⊢
      rw [ih h]
      rcases s.way n d' rest with ⟨steps', _ | key⟩
      · rfl
      · simp [Way.extend]

/-! ## Entries -/

/-- The place of the entry that a path names, whether it can be found or not. -/
def spot? (s : LinkedTree) (path : Text) : Option (List Text) := (s.wayToEntry path).goal

/-- The entry that a path names is no link, and no file that stands at other places as well. -/
def IsPlain (s : LinkedTree) (path : Text) : Prop :=
  ∀ key, s.spot? path = some key → s.link? key = none ∧ s.number? key = none

theorem spot?_of_links (h : u.links = s.links) (hc : u.tree.current = s.tree.current)
    (path : Text) : u.spot? path = s.spot? path :=
  congrArg Way.goal (wayToEntry_of_links h hc path)

theorem IsPlain.of_links (hplain : s.IsPlain path) (h : u.links = s.links)
    (hn : u.numbers = s.numbers) (hc : u.tree.current = s.tree.current) : u.IsPlain path := by
  intro key hkey
  rw [spot?_of_links h hc] at hkey
  rw [link?_of_links h, number?_of_numbers hn]
  exact hplain key hkey

theorem wayToEntry_eq {cs : List Text} (h : s.components path = cs ++ [c]) :
    s.wayToEntry path = (s.way maxLinks [] cs).extend c := by
  unfold wayToEntry
  rw [h, List.getLast?_concat, List.dropLast_concat]

theorem Way.goal_extend (w : Way) (c : Text) :
    (w.extend c).goal = w.goal.map fun d => next d c := by
  unfold extend
  split
  · rename_i h
    rw [h]
    rfl
  · rename_i h
    rw [h]
    rfl

theorem spot?_eq {cs : List Text} (h : s.components path = cs ++ [c]) :
    s.spot? path = (s.way maxLinks [] cs).goal.map fun d => next d c := by
  rw [spot?, wayToEntry_eq h, Way.goal_extend]

/-- **A path leads to the entry that it names**, unless that is a link. -/
theorem wayTo_eq_wayToEntry (h : ∀ key, s.spot? path = some key → s.link? key = none) :
    s.wayTo path = s.wayToEntry path := by
  rcases List.eq_nil_or_concat (s.components path) with hnil | ⟨cs, c, hcs⟩
  · rw [wayTo, wayToEntry, hnil]
    rfl
  · rw [List.concat_eq_append] at hcs
    rw [spot?_eq hcs] at h
    rw [wayToEntry_eq hcs, wayTo, hcs]
    refine way_concat fun d hd => ?_
    by_cases hup : c = Path.up
    · exact .inl hup
    · have hlink := h (next d c) (by rw [hd]; rfl)
      rw [next, if_neg hup] at hlink
      exact .inr hlink

/-! ## Open ways -/

theorem Way.pass_eq_ok {w : Way} {t : FileTree} : w.pass t = .ok key ↔
    (∀ step ∈ w.steps, t.node? step.1 = some .directory ∧ Path.isShortName step.2 = true) ∧
      w.goal = some key := by
  obtain ⟨steps, goal⟩ := w
  have hsteps : ∀ steps : List (List Text × Text),
      (steps.forM fun step => FileTree.enter (t.node? step.1) step.2) = .ok () ↔
        ∀ step ∈ steps, t.node? step.1 = some .directory ∧ Path.isShortName step.2 = true := by
    intro steps
    induction steps with
    | nil => exact iff_of_true rfl (List.forall_mem_nil _)
    | cons step steps ih =>
      rw [List.forall_mem_cons, ← ih, ← FileTree.enter_eq_ok]
      exact Except.bind_eq_ok.trans ⟨fun ⟨_, h⟩ => h, fun h => ⟨(), h⟩⟩
  rw [Way.pass, Except.bind_eq_ok]
  constructor
  · rintro ⟨_, h, hgoal⟩
    refine ⟨(hsteps _).1 h, ?_⟩
    cases goal with
    | none => cases hgoal
    | some key' =>
      cases hgoal
      rfl
  · rintro ⟨h, rfl⟩
    exact ⟨(), (hsteps _).2 h, rfl⟩

/-- A way stays open when no directory is taken away. -/
theorem Way.pass_mono {w : Way} {t t' : FileTree} (h : w.pass t = .ok key)
    (hkeeps : FileTree.KeepsDirectories t t') : w.pass t' = .ok key := by
  obtain ⟨hsteps, hgoal⟩ := Way.pass_eq_ok.1 h
  exact Way.pass_eq_ok.2 ⟨fun step hs => ⟨hkeeps _ _ rfl (hsteps step hs).1, (hsteps step hs).2⟩,
    hgoal⟩

theorem reach_eq_ok : s.reach path = .ok key ↔
    path ≠ [] ∧ Path.isShort path = true ∧ (s.wayTo path).pass s.tree = .ok key :=
  Path.checked_eq_ok

theorem reachEntry_eq_ok : s.reachEntry path = .ok key ↔
    path ≠ [] ∧ Path.isShort path = true ∧ (s.wayToEntry path).pass s.tree = .ok key :=
  Path.checked_eq_ok

theorem spot?_of_reachEntry (h : s.reachEntry path = .ok key) : s.spot? path = some key :=
  (Way.pass_eq_ok.1 (reachEntry_eq_ok.1 h).2.2).2

/-! ## Changes -/

/-- A directory is made where neither a node nor a link stands. -/
theorem makeDirectory_eq_ok (h : s.makeDirectory path = .ok u) : ∃ key,
    s.tree.node? key = none ∧ u = { s with tree := s.tree.put key .directory } := by
  obtain ⟨-, h⟩ := FileFault.onPath_eq_ok.1 h
  obtain ⟨key, -, hput⟩ := Except.bind_eq_ok.1 h
  unfold putDirectory at hput
  split at hput
  · cases hput
  · obtain ⟨t, ht, hu⟩ := Except.bind_eq_ok.1 hput
    cases hu
    obtain ⟨hnone, rfl⟩ := FileTree.putDirectory_eq_ok.1 ht
    exact ⟨key, hnone, rfl⟩

/-- **A file that is written under a plain entry** is written there and nowhere else. -/
theorem write_eq_ok (hplain : s.IsPlain path) (h : s.write path content = .ok u) : ∃ key,
    s.spot? path = some key ∧ s.tree.LacksDirectory key ∧
      u = { s with tree := s.tree.put key (.file content) } := by
  obtain ⟨-, h⟩ := FileFault.onPath_eq_ok.1 h
  obtain ⟨key, hkey, hput⟩ := Except.bind_eq_ok.1 h
  obtain ⟨t, ht, hu⟩ := Except.bind_eq_ok.1 hput
  have hway := wayTo_eq_wayToEntry fun k hk => (hplain k hk).1
  have hentry : s.spot? path = some key := by
    rw [spot?, ← hway]
    exact (Way.pass_eq_ok.1 (reach_eq_ok.1 hkey).2.2).2
  obtain ⟨-, hfile, rfl⟩ := FileTree.putFile_eq_ok.1 ht
  refine ⟨key, hentry, fun n hn => ?_, ?_⟩
  · obtain ⟨old, rfl⟩ := hfile n hn
    rfl
  · rw [others_of_number? (hplain key hentry).2] at hu
    cases hu
    rfl

/-- **A file that is moved from a plain entry** takes the place of a file or a link. -/
theorem move_eq_ok (hplain : s.IsPlain source) (hentry : s.spot? source = some old)
    (hfile : s.tree.node? old = some (.file content)) (h : s.move source target = .ok u) :
    ∃ new, Path.isFit target = true ∧ s.reachEntry target = .ok new ∧ s.tree.LacksDirectory new ∧
      u.tree = (s.tree.remove old).put new (.file content) ∧
      u.links = s.links.filter fun l => l.1 ≠ new := by
  obtain ⟨-, hfit, h⟩ := FileFault.onPaths_eq_ok.1 h
  obtain ⟨old', hold, h⟩ := Except.bind_eq_ok.1 h
  obtain ⟨new, hnew, h⟩ := Except.bind_eq_ok.1 h
  obtain rfl : old' = old := Option.some.inj ((spot?_of_reachEntry hold).symm.trans hentry)
  obtain ⟨hlink, hnumber⟩ := hplain _ hentry
  have hsame : s.isSame old' new = false := by
    rw [isSame, hlink, hnumber]
    cases (s.link? new).isNone <;> rfl
  simp only [moveEntry, hsame, hlink, Bool.false_eq_true, if_false] at h
  obtain ⟨t, ht, hu⟩ := Except.bind_eq_ok.1 h
  obtain ⟨hfree, rfl⟩ := (FileTree.moveNode_eq_ok hfile).1 ht
  cases hu
  exact ⟨new, hfit, hnew, hfree, rfl, rfl⟩

/-- The content of a file at the entry that a path names. -/
theorem read_of_entry (hfit : Path.isFit path = true) (hslash : path.endsWith "/" = false)
    (hreach : s.reachEntry path = .ok key) (hlink : s.link? key = none)
    (hnode : s.tree.node? key = some (.file content)) : s.read path = .ok content := by
  have hentry := spot?_of_reachEntry hreach
  have hway : s.wayTo path = s.wayToEntry path := by
    refine wayTo_eq_wayToEntry fun k hk => ?_
    obtain rfl : k = key := Option.some.inj (hk.symm.trans hentry)
    exact hlink
  have hstat : s.stat path = .ok (.file content) := by
    refine FileFault.onPath_eq_ok.2 ⟨hfit, Except.bind_eq_ok.2 ⟨key, ?_, ?_⟩⟩
    · rw [reach, hway]
      exact hreach
    · exact FileTree.standing_eq_ok.2 ⟨hnode, .inr hslash⟩
  rw [read, hstat]
  rfl

end SourceAtlas.LinkedTree
