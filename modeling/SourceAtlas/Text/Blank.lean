import SourceAtlas.Text.Basic

/-!
# Blank points and lines

The white space of Unicode with the four information separators, and the cuts that go by it.

* `Point.isBlank`, `Point.isSpacing`, `Point.endsLine`;
* `Text.trim`, `Text.trimStart`, `Text.trimEnd`, `Text.trimPoints`;
* `Text.words`: the maximal runs of points that are not blank;
* `Text.lines`: the lines of a text, whatever ends them.
-/

namespace SourceAtlas

/-- White space. -/
def Point.isBlank (p : Point) : Bool :=
  let n := p.toNat
  (9 ≤ n && n ≤ 13) || (28 ≤ n && n ≤ 32) || n = 0x85 || n = 0xA0 || n = 0x1680 ||
    (0x2000 ≤ n && n ≤ 0x200A) || n = 0x2028 || n = 0x2029 || n = 0x202F || n = 0x205F || n = 0x3000

/-- White space other than the information separators. -/
def Point.isSpacing (p : Point) : Bool := p.isBlank && !(28 ≤ p.toNat && p.toNat ≤ 31)

/-- A point that ends a line. -/
def Point.endsLine (p : Point) : Bool :=
  let n := p.toNat
  (10 ≤ n && n ≤ 13) || (28 ≤ n && n ≤ 30) || n = 0x85 || n = 0x2028 || n = 0x2029

namespace Text

/-- The text without the points of class `p` at its start. -/
def trimStartBy (p : Point → Bool) (t : Text) : Text := t.dropWhile p

/-- The text without the points of class `p` at its end. -/
def trimEndBy (p : Point → Bool) (t : Text) : Text := (t.reverse.dropWhile p).reverse

def trimStart (t : Text) : Text := trimStartBy Point.isBlank t

def trimEnd (t : Text) : Text := trimEndBy Point.isBlank t

/-- The text without blank points at both ends. -/
def trim (t : Text) : Text := trimEnd (trimStart t)

/-- The text without the points of `set` at both ends. -/
def trimPoints (t set : Text) : Text :=
  trimEndBy (fun c => set.elem c) (trimStartBy (fun c => set.elem c) t)

/-- The maximal runs of points that are not blank. -/
def words (t : Text) : List Text := go t []
where
  /-- The words of `t` when the points of `w`, last one first, stand right before it. -/
  go : Text → Text → List Text
    | [], w => if w.isEmpty then [] else [w.reverse]
    | c :: t, w =>
      if c.isBlank then (if w.isEmpty then go t [] else w.reverse :: go t [])
      else go t (c :: w)

/-- The lines of a text without their ends; a carriage return and a line feed end one line. A text
that ends with a line end has no empty last line. -/
def lines : Text → List Text
  | [] => []
  | c :: t =>
    if c = '\r' then
      match t with
      | d :: t' => if d = '\n' then [] :: lines t' else [] :: lines (d :: t')
      | [] => [[]]
    else if c.endsLine then [] :: lines t
    else match lines t with
      | [] => [[c]]
      | l :: ls => (c :: l) :: ls

/-- Each of the three line ends of text files becomes a line feed. -/
def normalizeNewlines : Text → Text
  | [] => []
  | c :: t =>
    if c = '\r' then
      match t with
      | d :: t' =>
        if d = '\n' then '\n' :: normalizeNewlines t' else '\n' :: normalizeNewlines (d :: t')
      | [] => [Point.ofChar '\n']
    else c :: normalizeNewlines t

end Text

end SourceAtlas
