import SourceAtlas.Batch
import SourceAtlas.Failure
import SourceAtlas.FileTree
import SourceAtlas.Refinement
import SourceAtlas.Validation

/-!
# Configurations

A configuration names the repositories, the store, the model tiers and the limits of the work. It is
a JSON document in which nothing else may stand.

* `Configuration`, `Configuration.check`: the configuration that a JSON value holds, or its misfits;
* `ConfigurationFault`, `ConfigurationFault.failure`;
* `Configuration.load`: the configuration of a file.
-/

namespace SourceAtlas

/-- What is configured. -/
structure Configuration where
  repositories : List Text
  excluded : List Text
  specs : List Text
  directory : Text
  tiers : List Tier
  rounds : Int
  batchSize : Int
  keptPoints : Int
deriving DecidableEq

/-- The limits of the work. -/
structure Configuration.Limits where
  rounds : Int
  batchSize : Int
  keptPoints : Int

/-- How many files are summarized between two saves when nothing else is configured. -/
def Batches.defaultSize : Nat := 50

namespace Configuration

/-- A record in which nothing else may stand than its members. -/
def closedRecord {α : Type} (name : Text) (members : List Member)
    (read : List (Text × Json) → Checked α) : Json → Checked α :=
  Checked.record name fun ms =>
    Member.scalarKeys ms ((fun a _ => a) <$> read ms <*> Member.noOthers members ms)

/-! ## Tiers -/

def nameMember : Member := ⟨["name"]⟩
def modelMember : Member := ⟨["model"]⟩
def maxTokensMember : Member := ⟨["maxTokens", "max_tokens"]⟩

def checkTier : Json → Checked Tier :=
  closedRecord "TierSettings" [nameMember, modelMember, maxTokensMember] fun ms =>
    Tier.mk <$> nameMember.required Checked.text ms <*> modelMember.required Checked.text ms <*>
      maxTokensMember.required Checked.positive ms

/-- At least one tier. -/
def checkTiers (v : Json) : Checked (List Tier) :=
  (Checked.listOf checkTier v).require (fun ts => !ts.isEmpty) .noItems

/-! ## Limits -/

def defaultLimits : Limits := ⟨Refiner.defaultRounds, Batches.defaultSize, Prompt.defaultKeptPoints⟩

def roundsMember : Member := ⟨["rounds"]⟩
def batchSizeMember : Member := ⟨["batchSize", "batch_size"]⟩
def keptPointsMember : Member := ⟨["truncateChars", "truncate_chars"]⟩

def checkLimits : Json → Checked Limits :=
  closedRecord "SummarizationSettings" [roundsMember, batchSizeMember, keptPointsMember] fun ms =>
    Limits.mk <$> roundsMember.orElse defaultLimits.rounds Checked.positive ms <*>
      batchSizeMember.orElse defaultLimits.batchSize Checked.positive ms <*>
      keptPointsMember.orElse defaultLimits.keptPoints Checked.positive ms

/-! ## Configurations -/

def directoryMember : Member := ⟨["directory"]⟩

/-- The directory of the store. -/
def checkStore : Json → Checked Text :=
  closedRecord "StoreSettings" [directoryMember] (directoryMember.required Checked.path)

def repositoriesMember : Member := ⟨["repositories"]⟩
def excludedMember : Member := ⟨["excludedProjects", "excluded_projects"]⟩
def specsMember : Member := ⟨["specs"]⟩
def storeMember : Member := ⟨["store"]⟩
def tiersMember : Member := ⟨["tiers"]⟩
def limitsMember : Member := ⟨["summarization"]⟩

def members : List Member :=
  [repositoriesMember, excludedMember, specsMember, storeMember, tiersMember, limitsMember]

/-- The name of the record in reports. -/
def recordName : Text := "InputConfiguration"

/-- The configuration of the parts that are checked one by one. -/
def ofParts (repositories excluded specs : List Text) (directory : Text) (tiers : List Tier)
    (limits : Limits) : Configuration :=
  { repositories, excluded, specs, directory, tiers
    rounds := limits.rounds, batchSize := limits.batchSize, keptPoints := limits.keptPoints }

/-- The configuration that a value holds. -/
def check : Json → Checked Configuration :=
  closedRecord recordName members fun ms =>
    ofParts <$> repositoriesMember.required (Checked.listOf Checked.text) ms <*>
      excludedMember.orElse [] (Checked.listOf Checked.text) ms <*>
      specsMember.orElse [] (Checked.listOf Checked.text) ms <*>
      storeMember.required checkStore ms <*>
      tiersMember.orElse Tier.defaults checkTiers ms <*>
      limitsMember.orElse defaultLimits checkLimits ms

end Configuration

/-! ## Files -/

/-- Why a file gives no configuration. -/
inductive ConfigurationFault where
  | noHome
  | unreadable (path : Text) (fault : ReadFault)
  | malformed (path text : Text) (fault : Json.Fault)
  | tooManyDigits (count : Nat)
  | misfits (path : Text) (misfits : List Misfit)

/-- The failure that a fault leads to. -/
def ConfigurationFault.failure : ConfigurationFault → Failure
  | noHome => .broken ⟨.runtime, "Could not determine home directory."⟩
  | unreadable _ (.file (.unfit why)) => .broken (FileFault.unfit why).breakdown
  | unreadable path (.file fault) =>
    .reported ("Cannot read configuration file " ++ path ++ ": " ++ fault.message)
  | unreadable _ (.decoding fault) => .broken ⟨.decoding, fault.message⟩
  | malformed path text fault =>
    .reported ("Configuration file " ++ path ++ " is not valid JSON: " ++ fault.message text)
  | tooManyDigits count => .broken ⟨.value, Json.tooManyDigitsMessage count⟩
  | misfits path ms =>
    .reported ("Invalid configuration file " ++ path ++ ": " ++
      Misfit.report Configuration.recordName ms)

namespace Configuration

/-- The configuration of a file, given by a tidy path that may start at a home directory. -/
def load (home : Text) (t : FileTree) (given : Text) : Except ConfigurationFault Configuration :=
  match Path.expandHome home given with
  | none => .error .noHome
  | some path =>
    match t.readText path with
    | .error fault => .error (.unreadable path fault)
    | .ok text =>
      match Json.read text with
      | .error (.malformed fault) => .error (.malformed path text fault)
      | .error (.tooManyDigits count) => .error (.tooManyDigits count)
      | .ok v => (check v).toExcept (.misfits path)

end Configuration

end SourceAtlas
