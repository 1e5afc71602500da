import SourceAtlas.FileTree

/-!
# Resolution of imports

A module specifier names a file relative to the importing file, by an alias, or relative to a base
directory. What cannot be found keeps its text.

* `Alias`, `Alias.matches?`: a pattern with at most one wild card that counts, and its targets;
* `Resolver`: the base directory, the aliases in order, and the extension of source files;
* `Resolver.probe`: the file, index file or source file that a path stands for;
* `Resolver.resolve`: the path of an imported module;
* `resolveReference`: the path of a file that is referred to.
-/

namespace SourceAtlas

/-- A specifier pattern and the targets that it stands for, in order. -/
structure Alias where
  pattern : Text
  targets : List Text
deriving DecidableEq

namespace Alias

/-- The part of `s` between `before` and `after`, which may not overlap, on one line. -/
def between? (before after s : Text) : Option Text := do
  let inner ← (← s.after? before).before? after
  if Text.has inner '\n' then none else some inner

/-- The text without a line feed at its end. -/
def withoutLastNewline (s : Text) : Option Text := s.before? "\n"

/-- The text that the wild card of the pattern stands for in a specifier; empty when the pattern
has none. A line feed at the end of the specifier is passed over. -/
def matches? (a : Alias) (specifier : Text) : Option Text :=
  match Text.cut? '*' a.pattern with
  | none =>
    if specifier = a.pattern ∨ withoutLastNewline specifier = some a.pattern then some [] else none
  | some (before, after) =>
    (between? before after specifier).or
      ((withoutLastNewline specifier).bind (between? before after))

end Alias

/-- Where modules are looked for. -/
structure Resolver where
  base : Text
  aliases : List Alias
  sourceExtension : Text

/-- `b` as seen from `a`, normalized. -/
def Path.resolveFrom (a b : Text) : Text := Path.normalize (Path.join a b)

/-- The specifier is relative to the importing file. -/
def isRelative (specifier : Text) : Bool := specifier.startsWith "./" || specifier.startsWith "../"

namespace Resolver

/-- The first of a path itself, its index file and its source file that is a file. -/
def probe (r : Resolver) (t : FileTree) (candidate : Text) : Option Text :=
  [candidate, Path.join candidate ("index" ++ r.sourceExtension),
    candidate ++ r.sourceExtension].find?
    t.isFile

/-- The first target of an alias that is found, if the alias fits. -/
def probeAlias (r : Resolver) (t : FileTree) (specifier : Text) (a : Alias) : Option Text :=
  (a.matches? specifier).bind fun wild =>
    a.targets.findSome? fun target =>
      r.probe t (Path.resolveFrom r.base (Text.replaceFirst '*' wild target))

/-- The path of an imported module, or the best text for what cannot be found. -/
def resolve (r : Resolver) (t : FileTree) (specifier fromFile : Text) : Text :=
  if isRelative specifier then
    let candidate := Path.resolveFrom (Path.directory fromFile) specifier
    (r.probe t candidate).getD candidate
  else
    ((r.aliases.findSome? (r.probeAlias t specifier)).or
      (r.probe t (Path.resolveFrom r.base specifier))).getD specifier

end Resolver

/-- The path of a file that is referred to from another, or the reference itself. -/
def resolveReference (t : FileTree) (reference fromFile : Text) : Text :=
  let candidate := Path.resolveFrom (Path.directory fromFile) reference
  if t.present candidate then candidate else reference

end SourceAtlas
