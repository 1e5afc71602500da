import SourceAtlas.Environment.Assignments
import SourceAtlas.FileTree
import SourceAtlas.Provider
import SourceAtlas.Validation

/-!
# The environment

What the environment of a run names: the configuration file, and the provider with its URL and key.
Variables are taken from the environment, or else from the file `.env` in the working directory;
capitals and small letters in their names are not told apart.

* `Environment`, `Environment.load`;
* `EnvironmentFault`, `EnvironmentFault.failure`.
-/

namespace SourceAtlas

/-- What the environment of a run names. -/
structure Environment where
  configuration : Text
  provider : Provider
  url : Text
  key : Option Text
deriving DecidableEq

/-- Why the environment names nothing: variables are missing or wrong, or the file of variables
cannot be read. -/
inductive EnvironmentFault where
  | misfits (misfits : List Misfit)
  | unreadable (fault : ReadFault)

/-- The failure that a fault leads to. -/
def EnvironmentFault.failure : EnvironmentFault → Failure
  | misfits ms => .reported ("Invalid environment: " ++ Misfit.report "Environment" ms)
  | unreadable (.file fault) => .broken fault.breakdown
  | unreadable (.decoding fault) => .broken ⟨.decoding, fault.message⟩

namespace Environment

/-- Variables by their names. Of two with one name the later counts. -/
abbrev Variables := List (Text × Option Text)

/-- The value of a variable, if it has one. -/
def Variables.value? (vs : Variables) (name : Text) : Option Text :=
  (vs.reverse.find? fun v => v.1 = name).bind Prod.snd

/-- The variables with their names in small letters. -/
def Variables.lowered (vs : Variables) : Variables := vs.map fun (k, v) => (k.toLowerAscii, v)

/-- The file of variables in the working directory. -/
def fileName : Text := ".env"

/-- The variables of the file, if there is one. -/
def fileVariables (t : FileTree) (environment : List (Text × Text)) :
    Except EnvironmentFault Variables :=
  match t.refusal? fileName with
  | some fault => .error (.unreadable (.file fault))
  | none =>
    if t.isFile fileName then
      match t.readText fileName with
      | .ok text => .ok (Assignment.resolve environment (Assignment.read text))
      | .error fault => .error (.unreadable fault)
    else .ok []

/-- The providers by name. -/
def providers : List (Text × Provider) := [("openai", .openai), ("ollama", .ollama)]

/-- The first value of a variable in the sources, under the first of its names that has one. -/
def find? (sources : List Variables) (names : List Text) : Option Text :=
  names.findSome? fun name => sources.findSome? fun vs => vs.value? name

/-- What variables name, the better source first. -/
def ofSources (sources : List Variables) : Checked Environment :=
  let ask (name : String) : Option Json :=
    (find? sources ["codeindex_" ++ Text.ofString name]).map Json.text
  let found : List (Text × Json) := ["config", "provider", "provider_url"].filterMap fun name =>
    (ask name).map fun v => (Text.ofString name, v)
  let key := find? sources ["openai_api_key", "codeindex_openai_api_key"]
  (fun configuration provider url => ⟨configuration, provider, url, key⟩) <$>
    Member.required ⟨["config"]⟩ Checked.path found <*>
    Member.orElse ⟨["provider"]⟩ .openai (Checked.choice providers) found <*>
    Member.orElse ⟨["provider_url"]⟩ Provider.defaultUrl Checked.text found

/-- What the environment and the file of variables name. -/
def load (t : FileTree) (environment : List (Text × Text)) :
    Except EnvironmentFault Environment := do
  let fromFile ← fileVariables t environment
  let given : Variables := environment.map fun (k, v) => (k, some v)
  (ofSources [given.lowered, fromFile.lowered]).toExcept .misfits

end Environment

end SourceAtlas
