import SourceAtlas.Text.Printable

/-!
# Quoted texts

A text inside quotes, on one line and with every point visible: the form in which a list or a
mapping shows the texts it holds.

* `Text.hex`: a number in hexadecimal, with leading zeros up to a width;
* `Text.quoted`: single quotes, or double quotes where the text holds only single ones.
-/

namespace SourceAtlas.Text

/-- The digits of `n` to base sixteen, at least `width` of them. -/
def hex (width n : Nat) : Text :=
  let ds := Nat.toDigits 16 n
  (List.replicate (width - ds.length) '0' ++ ds).map Point.ofChar

/-- How `p` is written between two `quote` marks. -/
def quotedPoint (quote p : Point) : Text :=
  if p = quote ∨ p = '\\' then ['\\', p]
  else if p = '\t' then "\\t"
  else if p = '\n' then "\\n"
  else if p = '\r' then "\\r"
  else if p.isPrintable then [p]
  else if p.toNat < 0x100 then "\\x" ++ hex 2 p.toNat
  else if p.toNat < 0x10000 then "\\u" ++ hex 4 p.toNat
  else "\\U" ++ hex 8 p.toNat

/-- The quote that `t` is written with. -/
def quoteFor (t : Text) : Point := if t.has '\'' && !t.has '"' then '"' else '\''

def quoted (t : Text) : Text :=
  let q := quoteFor t
  q :: t.flatMap (quotedPoint q) ++ [q]

end SourceAtlas.Text
