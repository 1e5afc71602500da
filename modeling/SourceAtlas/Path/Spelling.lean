import SourceAtlas.Path
import SourceAtlas.Text.Quoted

/-!
# Texts that the system takes as paths

The system knows a path by its octets. A text has octets if no point of it is half of a surrogate
pair, but for the halves that stand for single octets; and it is a path if none of them is zero. Names
and paths that are too long are refused.

* `Point.isFit`, `Path.isFit`, `PathFault`, `Path.fault?`: the texts that are paths, and why others are
  none;
* `Path.octets`, `Path.isShortName`, `Path.isShort`: how long names and paths may be.
-/

namespace SourceAtlas

namespace Point

/-- The point zero, which no path may hold. -/
def zero : Point := '\x00'

/-- Half of a surrogate pair that stands for an octet which is no part of a text. -/
def isEscape (p : Point) : Bool := 0xDC80 ≤ p.toNat && p.toNat ≤ 0xDCFF

/-- Half of a surrogate pair that has no octets. -/
def isLoneHalf (p : Point) : Bool := p.isSurrogate && !p.isEscape

/-- A point that has octets, none of which is zero. -/
def isFit (p : Point) : Bool := !p.isLoneHalf && p ≠ zero

/-- The number of octets of a point in a path. -/
def octets (p : Point) : Nat :=
  if p.toNat < 0x80 || p.isEscape then 1
  else if p.toNat < 0x800 then 2
  else if p.toNat < 0x10000 then 3
  else 4

end Point

/-- Why a text is no path: it holds the point zero, or halves of surrogate pairs without octets. Of
the halves the first place is named, and those that follow it at once. -/
inductive PathFault where
  | zero
  | halves (position : Nat) (found : Text)
deriving DecidableEq

/-- A fault in words: one half is named, of several the first and the last place. -/
def PathFault.message : PathFault → Text
  | zero => "embedded null byte"
  | halves position found =>
    let place : Text :=
      match found with
      | [p] => "character '\\u" ++ Text.hex 4 p.toNat ++ "' in position " ++ Text.ofNat position
      | _ => "characters in position " ++ Text.ofNat position ++ "-" ++
          Text.ofNat (position + found.length - 1)
    "'utf-8' codec can't encode " ++ place ++ ": surrogates not allowed"

namespace Path

/-! ## Octets -/

/-- Every point has octets, and none of them is zero. -/
def isFit (path : Text) : Bool := path.all Point.isFit

/-- Why a text is no path, if it is none. Octets are asked for before zeros. -/
def fault? (path : Text) : Option PathFault :=
  if path.any Point.isLoneHalf then
    let rest := path.dropWhile fun p => !p.isLoneHalf
    some (.halves (path.length - rest.length) (rest.takeWhile Point.isSurrogate))
  else if path.has Point.zero then some .zero
  else none

theorem fault?_eq_none {path : Text} : fault? path = none ↔ isFit path = true := by
  have hzero : path.has Point.zero = true ↔ Point.zero ∈ path := by simp [Text.has]
  rw [fault?, isFit, List.all_eq_true]
  split
  · rename_i h
    obtain ⟨p, hp, hl⟩ := List.any_eq_true.1 h
    refine iff_of_false (by simp) fun hall => ?_
    simpa [Point.isFit, hl] using hall p hp
  · rename_i h
    rw [List.any_eq_true] at h
    rw [ite_eq_right_iff, hzero]
    constructor
    · intro hz p hp
      have hne : p ≠ Point.zero := fun he => absurd (hz (he ▸ hp)) (by simp)
      simpa [Point.isFit, hne] using fun hl => h ⟨p, hp, hl⟩
    · intro hall hz
      simpa [Point.isFit] using hall _ hz

theorem exists_fault {path : Text} (h : isFit path = false) : ∃ why, fault? path = some why := by
  refine Option.ne_none_iff_exists'.1 fun hn => ?_
  rw [fault?_eq_none.1 hn] at h
  cases h

/-! ## Lengths -/

/-- The number of octets of a text in a path. -/
def octets (t : Text) : Nat := t.foldr (fun p n => p.octets + n) 0

/-- A name that is not too long. -/
def isShortName (name : Text) : Bool := octets name ≤ 255

/-- A path that is not too long. -/
def isShort (path : Text) : Bool := octets path < 4096

/-- The system takes the text as a path. -/
structure Valid (path : Text) : Prop where
  fit : isFit path = true
  nonempty : path ≠ []
  short : isShort path = true

instance (path : Text) : Decidable (Valid path) :=
  decidable_of_iff (isFit path = true ∧ path ≠ [] ∧ isShort path = true)
    ⟨fun h => ⟨h.1, h.2.1, h.2.2⟩, fun h => ⟨h.fit, h.nonempty, h.short⟩⟩

end Path

end SourceAtlas
