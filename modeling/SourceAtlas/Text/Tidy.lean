import SourceAtlas.Text.Blank

/-!
# Tidy texts

No blank points at line ends, no two blank lines in a row, and none at the start or the end.

* `Text.tidyLines`: the kept lines of a list of lines;
* `Text.tidy`.
-/

namespace SourceAtlas.Text

/-- The lines that are kept: a blank one only between two others, and once. -/
def tidyLines : (pending : Bool) → (seen : Bool) → List Text → List Text
  | _, _, [] => []
  | pending, seen, l :: ls =>
    let line := trimEnd l
    if line.isEmpty then tidyLines true seen ls
    else if pending && seen then [] :: line :: tidyLines false true ls
    else line :: tidyLines false true ls

/-- The text without white space at line ends and without surplus blank lines. -/
def tidy (t : Text) : Text := joinWith "\n" (tidyLines false false (lines t))

end SourceAtlas.Text
