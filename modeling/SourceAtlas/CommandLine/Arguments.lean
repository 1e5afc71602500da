import SourceAtlas.Text.Basic
import SourceAtlas.Text.Integer

/-!
# Arguments

A command line names a command, its options and at most one operand. An option may be shortened to a
prefix that no other option shares; its value follows it or an equals sign. After `--` there is no
option.

* `Argument`, `Argument.of`: what an argument stands for;
* `Given`, `Given.read?`: the options and the operand that arguments give;
* `Command`, `Command.ofArguments?`: the command of a command line.
-/

namespace SourceAtlas

/-! ## Single arguments -/

/-- What an argument stands for. A wrong argument is neither an operand nor one option alone. -/
inductive Argument where
  | operand
  | option (name : Text) (value : Option Text)
  | wrong
deriving DecidableEq

namespace Argument

/-- What separates the options from an operand that looks like one. -/
def separator : Text := "--"

/-- The option that explains the program. -/
def help : Text := "--help"

/-- A minus sign with digits after it, and perhaps a point before the last of them. A newline may
stand at the end. -/
def isNegativeNumber : Text → Bool
  | m :: t =>
    let digits (t : Text) : Bool := t.all fun c => c.digitValue?.isSome
    let t := (Text.before? t "\n").getD t
    m = '-' && !t.isEmpty && match Text.cutLast? '.' t with
      | some (whole, part) => digits whole && !part.isEmpty && digits part
      | none => digits t
  | [] => false

/-- The options of a name, which may be shortened. The whole name of an option names it alone. -/
def named (options : List Text) (name : Text) : List Text :=
  if options.contains name then [name] else options.filter fun o => o.startsWith name

/-- An argument that starts with two hyphens. Without an option of its name it is an operand if it
has a blank. -/
def long (options : List Text) (t : Text) : Argument :=
  let (name, value) : Text × Option Text := match Text.cut? '=' t with
    | some (name, value) => (name, some value)
    | none => (t, none)
  match named options name with
  | [o] => option o value
  | [] => if t.has ' ' then operand else wrong
  | _ => wrong

/-- What an argument stands for beside these options. -/
def of (options : List Text) (t : Text) : Argument :=
  if !t.startsWith "-" || t = Text.ofString "-" then operand
  else if t.startsWith separator then long options t
  else if t.startsWith "-h" then wrong
  else if isNegativeNumber t || t.has ' ' then operand
  else wrong

end Argument

/-! ## The arguments of a command -/

/-- The options in their order, and the operand. -/
structure Given where
  options : List (Text × Text)
  operand : Option Text
deriving DecidableEq

/-- The options that a command has: with a value, and without. -/
structure OptionNames where
  valued : List Text
  plain : List Text

namespace OptionNames

/-- All options. -/
def all (o : OptionNames) : List Text := Argument.help :: (o.valued ++ o.plain)

end OptionNames

namespace Given

/-- One more option. -/
def withOption (name value : Text) (g : Given) : Given :=
  { g with options := (name, value) :: g.options }

/-- The value that an option is given last. -/
def value? (g : Given) (name : Text) : Option Text :=
  (g.options.reverse.find? fun o => o.1 = name).map Prod.snd

/-- The options and the operand that arguments give; `none` when an argument is wrong, a value is
missing, or an operand is one too many. `wanted` says that an operand may still come. -/
def read? (names : OptionNames) : (wanted : Bool) → List Text → Option Given
  | _, [] => some ⟨[], none⟩
  | wanted, a :: rest =>
    if a = Argument.separator then
      match wanted, rest with
      | true, [operand] => some ⟨[], some operand⟩
      | _, _ => none
    else match Argument.of names.all a with
      | .operand =>
        if !wanted then none
        else if rest = [Argument.separator] then some ⟨[], some a⟩
        else (read? names false rest).map fun g => { g with operand := some a }
      | .option name (some value) =>
        if names.valued.contains name then (read? names wanted rest).map (withOption name value)
        else none
      | .option name none =>
        if names.plain.contains name then (read? names wanted rest).map (withOption name [])
        else if !names.valued.contains name then none
        else match rest with
          | value :: rest =>
            if value = Argument.separator || Argument.of names.all value ≠ .operand then none
            else (read? names wanted rest).map (withOption name value)
          | [] => none
      | .wrong => none

end Given

/-! ## Commands -/

/-- How summaries are written. -/
inductive Format where
  | table
  | json
deriving DecidableEq

/-- The format of a name. -/
def Format.ofName? (t : Text) : Option Format :=
  if t = Text.ofString "table" then some table
  else if t = Text.ofString "json" then some json
  else none

/-- The commands: to index the configured repositories, perhaps again; to summarize one repository
or all; to view the summaries of a repository; to resolve a module specifier in a file. -/
inductive Command where
  | index (again : Bool)
  | summarize (repository : Option Text)
  | view (repository : Text) (format : Format)
  | resolve (repository source specifier : Text)
deriving DecidableEq

namespace Command

def reindexOption : Text := "--reindex"
def repositoryOption : Text := "--repository"
def formatOption : Text := "--format"
def sourceOption : Text := "--from-file"
def logOption : Text := "--log-file"

def readIndex? (arguments : List Text) : Option Command := do
  let g ← Given.read? ⟨[], [reindexOption]⟩ false arguments
  return index (g.value? reindexOption).isSome

def readSummarize? (arguments : List Text) : Option Command := do
  let g ← Given.read? ⟨[repositoryOption], []⟩ false arguments
  return summarize (g.value? repositoryOption)

/-- Each format that is given has to be one, though the last one counts. -/
def readView? (arguments : List Text) : Option Command := do
  let g ← Given.read? ⟨[repositoryOption, formatOption], []⟩ false arguments
  let formats ← (g.options.filter fun o => o.1 = formatOption).mapM fun o => Format.ofName? o.2
  return view (← g.value? repositoryOption) (formats.getLastD .table)

def readResolve? (arguments : List Text) : Option Command := do
  let g ← Given.read? ⟨[repositoryOption, sourceOption], []⟩ true arguments
  return resolve (← g.value? repositoryOption) (← g.value? sourceOption) (← g.operand)

/-- The commands by name. -/
def readers : List (Text × (List Text → Option Command)) :=
  [("index", readIndex?), ("summarize", readSummarize?), ("show", readView?),
    ("resolve", readResolve?)]

/-- The command of a command line; `none` when there is none or its arguments are wrong. Before the
command stands nothing but the wish for a log, which changes no answer. -/
def ofArguments? : List Text → Option Command
  | [] => none
  | a :: rest =>
    match Argument.of [Argument.help, logOption] a with
    | .operand => do (← (readers.find? fun r => r.1 = a).map Prod.snd) rest
    | .option name value => if name = logOption && value.isNone then ofArguments? rest else none
    | .wrong => none

end Command

end SourceAtlas
