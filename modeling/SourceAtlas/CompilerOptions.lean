import SourceAtlas.Failure
import SourceAtlas.Json.Reader
import SourceAtlas.Json.Writer
import SourceAtlas.Resolution

/-!
# Compiler options

The options of a repository that tell where modules are: `baseUrl` and `paths` in the file
`tsconfig.json` and in the files that it extends.

* `stripComments`: a JSON text without comments and without commas after last items;
* `CompilerOptions`, `CompilerOptions.read`: the options along a chain of files, the nearest first;
* `ModulePaths`, `ModulePaths.ofRepository`: base directory and aliases of a repository.
-/

namespace SourceAtlas

/-! ## JSON with comments -/

/-- Where in a JSON text with comments a point stands. -/
inductive CommentState where
  | code
  | string
  | lineComment
  | blockComment
deriving DecidableEq

/-- The text without comments. Inside strings all is kept. -/
def dropComments : CommentState → Text → Text
  | _, [] => []
  | .string, c :: t =>
    if c = '\\' then
      match t with
      | d :: t => c :: d :: dropComments .string t
      | [] => [c]
    else if c = '"' then c :: dropComments .code t
    else c :: dropComments .string t
  | .lineComment, c :: t =>
    if c = '\n' then c :: dropComments .code t else dropComments .lineComment t
  | .blockComment, c :: t =>
    match t with
    | d :: t' =>
      if c = '*' ∧ d = '/' then dropComments .code t' else dropComments .blockComment (d :: t')
    | [] => []
  | .code, c :: t =>
    if c = '"' then c :: dropComments .string t
    else match t with
      | d :: t' =>
        if c = '/' ∧ d = '/' then dropComments .lineComment t'
        else if c = '/' ∧ d = '*' then dropComments .blockComment t'
        else c :: dropComments .code (d :: t')
      | [] => [c]

/-- A closing bracket or brace, perhaps after blank points, starts the text. -/
def closesNext (t : Text) : Bool :=
  match t.trimStart with
  | c :: _ => c = ']' || c = '}'
  | [] => false

/-- The text without each comma that a closing bracket or brace follows. -/
def dropLastCommas : Text → Text
  | [] => []
  | c :: t => if c = ',' ∧ closesNext t then dropLastCommas t else c :: dropLastCommas t

/-- A JSON text without comments and without commas after last items. -/
def stripComments (t : Text) : Text := dropLastCommas (dropComments .code t)

/-! ## Options along a chain of files -/

/-- Why the options cannot be used. -/
inductive OptionsFault where
  /-- The base directory is no text. -/
  | baseNotText
  /-- The aliases are no object. -/
  | pathsNotObject
  | tooManyDigits (count : Nat)
  | file (fault : FileFault)
  | noFileName (path : Text)
deriving DecidableEq

/-- The breakdown that a fault leads to. -/
def OptionsFault.breakdown : OptionsFault → Breakdown
  | baseNotText => ⟨.type, []⟩
  | pathsNotObject => ⟨.attribute, []⟩
  | tooManyDigits count => ⟨.value, Json.tooManyDigitsMessage count⟩
  | file fault => fault.breakdown
  | noFileName path => ⟨.value, "PosixPath(" ++ path.quoted ++ ") has an empty name"⟩

/-- The options that matter, and the directory of the file that gave the base. -/
structure CompilerOptions where
  baseUrl : Option Json
  paths : Option Json
  baseDirectory : Option Text

namespace CompilerOptions

def empty : CompilerOptions := ⟨none, none, none⟩

/-- The options with those of the file in `directory` put over them. -/
def override (o : CompilerOptions) (directory : Text) (compiler : Json) : CompilerOptions where
  baseUrl := (compiler.get? "baseUrl").or o.baseUrl
  paths := (compiler.get? "paths").or o.paths
  baseDirectory :=
    if (compiler.get? "baseUrl").isSome then some directory
    else ((compiler.get? "__base_dir__").map Json.shown).or o.baseDirectory

/-- The file that a file in `directory` extends, with the extension that such files have. -/
def parentFile (directory extended : Text) : Except OptionsFault Text :=
  let path := Path.tidy (Path.resolveFrom directory extended)
  if Path.suffix path = Text.ofString ".json" then .ok path
  else match Path.withFileName path (Path.fileName path ++ ".json") with
    | some p => .ok p
    | none => .error (.noFileName path)

/-- The options of a file over those of the files that it extends, at most `count` files. What
cannot be read has no options. -/
def read (t : FileTree) : (count : Nat) → (path : Text) → Except OptionsFault CompilerOptions
  | 0, _ => .ok empty
  | count + 1, path =>
    match t.readText path with
    | .error (.file (.unfit why)) => .error (.file (.unfit why))
    | .error _ => .ok empty
    | .ok text =>
      match Json.read (stripComments text) with
      | .error (.tooManyDigits n) => .error (.tooManyDigits n)
      | .error (.malformed _) => .ok empty
      | .ok (.object ms) => do
        let document := Json.object ms
        let directory := Path.parent path
        let inherited ←
          match document.get? "extends" with
          | some (.text extended) =>
            if isRelative extended ∧ count ≠ 0 then do
              read t count (← parentFile directory extended)
            else .ok empty
          | _ => .ok empty
        match document.get? "compilerOptions" with
        | some (.object options) => return inherited.override directory (.object options)
        | _ => return inherited
      | .ok _ => .ok empty

/-- No chain is followed further than this many files. -/
def maxFiles : Nat := 6

end CompilerOptions

/-! ## Where modules are -/

/-- The base directory of a repository and the aliases in their order. -/
structure ModulePaths where
  base : Text
  aliases : List Alias

namespace ModulePaths

/-- The alias of a member of `paths`; other values than texts and lists are passed over. -/
def aliasOf? : Text × Json → Option Alias
  | (pattern, .text target) => some ⟨pattern, [target]⟩
  | (pattern, .list targets) => some ⟨pattern, targets.map Json.shown⟩
  | _ => none

/-- The aliases that `paths` gives. -/
def aliasesOf : Json → Except OptionsFault (List Alias)
  | .object ms => .ok (ms.filterMap aliasOf?)
  | v => if v.isTruthy then .error .pathsNotObject else .ok []

/-- The base directory that the options give. -/
def baseOf (root : Text) (o : CompilerOptions) : Except OptionsFault Text :=
  match o.baseUrl with
  | some (.text url) =>
    if url.isEmpty then .ok root
    else .ok (Path.tidy (Path.resolveFrom (o.baseDirectory.getD root) url))
  | some v => if v.isTruthy then .error .baseNotText else .ok root
  | none => .ok root

/-- Where the modules of a repository are, its root being a tidy path. -/
def ofRepository (t : FileTree) (root : Text) : Except OptionsFault ModulePaths :=
  let file := Path.child root "tsconfig.json"
  match t.refusal? file with
  | some fault => .error (.file fault)
  | none =>
    if t.isFile file then do
      let options ← CompilerOptions.read t CompilerOptions.maxFiles file
      let base ← baseOf root options
      let aliases ← aliasesOf (options.paths.getD .null)
      return ⟨base, aliases⟩
    else .ok ⟨root, []⟩

/-- The resolver for modules with these paths. -/
def resolver (p : ModulePaths) (sourceExtension : Text) : Resolver :=
  ⟨p.base, p.aliases, sourceExtension⟩

end ModulePaths

end SourceAtlas
