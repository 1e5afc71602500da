import SourceAtlas.Json.Writer
import SourceAtlas.Validation

/-!
# Summaries

A summary describes one file: what it does, its main role, and if known its elements, its
algorithms, its business logic and its flow.

* `Summary`, `Summary.Tag`, `Summary.Algorithms`, `Summary.Business`, `Summary.Flow`;
* `Summary.check`: the summary that a JSON value holds, or its misfits;
* `Summary.toJson`: the written form, without what is null.
-/

namespace SourceAtlas

/-- The main role of a file. -/
inductive Summary.Tag where
  | ui
  | dataAccess
  | utility
  | feature
deriving DecidableEq

/-- How the algorithms of a file work, and why they were chosen. -/
structure Summary.Algorithms where
  description : Text
  rationale : Text
  others : List (Text × Json)

/-- The business rules and workflows of a file. -/
structure Summary.Business where
  rules : Text
  workflows : Text
  others : List (Text × Json)

/-- How the flow in a file starts, and its steps. -/
structure Summary.Flow where
  initialization : Text
  steps : List Text
  others : List (Text × Json)

/-- The description of one file. -/
structure Summary where
  description : Text
  tag : Summary.Tag
  elements : Json
  algorithms : Option Summary.Algorithms
  business : Option Summary.Business
  flow : Option Summary.Flow

namespace Summary

/-! ## Tags -/

def Tag.name : Tag → Text
  | ui => "ui"
  | dataAccess => "dataAccess"
  | utility => "utility"
  | feature => "feature"

def Tag.all : List Tag := [.ui, .dataAccess, .utility, .feature]

/-! ## Checks -/

/-- A record that may be null. -/
def orNull {α : Type} (read : Json → Checked α) : Json → Checked (Option α)
  | .null => .fits none
  | v => (read v).map some

namespace Algorithms

def descriptionMember : Member := ⟨["description"]⟩
def rationaleMember : Member := ⟨["rationale"]⟩
def members : List Member := [descriptionMember, rationaleMember]

def check : Json → Checked Algorithms :=
  Checked.record "AlgorithmicLogic" fun ms => Member.scalarKeys ms <|
    (fun d r => ⟨d, r, Member.others members ms⟩) <$>
      descriptionMember.orElse [] Checked.text ms <*>
      rationaleMember.orElse [] Checked.text ms

def toJson (a : Algorithms) : Json :=
  .object ([(Text.ofString "description", .text a.description), ("rationale", .text a.rationale)] ++
    a.others.filter fun m => m.2 != .null)

end Algorithms

namespace Business

def rulesMember : Member := ⟨["rules"]⟩
def workflowsMember : Member := ⟨["workflows"]⟩
def members : List Member := [rulesMember, workflowsMember]

def check : Json → Checked Business :=
  Checked.record "BusinessLogic" fun ms => Member.scalarKeys ms <|
    (fun r w => ⟨r, w, Member.others members ms⟩) <$> rulesMember.orElse [] Checked.text ms <*>
      workflowsMember.orElse [] Checked.text ms

def toJson (b : Business) : Json :=
  .object ([(Text.ofString "rules", .text b.rules), ("workflows", .text b.workflows)] ++
    b.others.filter fun m => m.2 != .null)

end Business

namespace Flow

def initializationMember : Member := ⟨["initialization"]⟩
def stepsMember : Member := ⟨["processingSteps"]⟩
def members : List Member := [initializationMember, stepsMember]

/-- The steps; one text stands for a list of one step. -/
def checkSteps : Json → Checked (List Text)
  | .text t => .fits [t]
  | v => Checked.listOf Checked.text v

def check : Json → Checked Flow :=
  Checked.record "FlowDescription" fun ms => Member.scalarKeys ms <|
    (fun i s => ⟨i, s, Member.others members ms⟩) <$>
      initializationMember.orElse [] Checked.text ms <*>
      stepsMember.orElse [] checkSteps ms

def toJson (f : Flow) : Json :=
  .object ([(Text.ofString "initialization", .text f.initialization),
      ("processingSteps", .list (f.steps.map .text))] ++
    f.others.filter fun m => m.2 != .null)

end Flow

/-! ## Summaries -/

def descriptionMember : Member := ⟨["fileDescription", "file_description"]⟩
def tagMember : Member := ⟨["tag"]⟩
def elementsMember : Member := ⟨["elementsDetail", "elements_detail"]⟩
def algorithmsMember : Member := ⟨["algorithmicLogic", "algorithmic_logic"]⟩
def businessMember : Member := ⟨["businessLogic", "business_logic"]⟩
def flowMember : Member := ⟨["flowDescription", "flow_description"]⟩

/-- The name of the record in reports. -/
def recordName : Text := "FileSummary"

/-- The summary that a value holds. Members that a summary does not have are left out. -/
def check : Json → Checked Summary :=
  Checked.record recordName fun ms =>
    Summary.mk <$> descriptionMember.required Checked.properText ms <*>
      tagMember.required (Checked.choice (Tag.all.map fun t => (t.name, t))) ms <*>
      elementsMember.orElse .null .fits ms <*>
      algorithmsMember.orElse none (orNull Algorithms.check) ms <*>
      businessMember.orElse none (orNull Business.check) ms <*>
      flowMember.orElse none (orNull Flow.check) ms

/-- The written form. What is null is left out, of the parts as well as of their other members. -/
def toJson (s : Summary) : Json :=
  .object (
    [(Text.ofString "fileDescription", .text s.description), ("tag", .text s.tag.name)] ++
    (if s.elements == .null then [] else [(Text.ofString "elementsDetail", s.elements)]) ++
    (s.algorithms.map fun a => (Text.ofString "algorithmicLogic", a.toJson)).toList ++
    (s.business.map fun b => (Text.ofString "businessLogic", b.toJson)).toList ++
    (s.flow.map fun f => (Text.ofString "flowDescription", f.toJson)).toList)

end Summary

end SourceAtlas
