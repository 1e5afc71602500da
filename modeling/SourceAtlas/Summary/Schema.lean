import SourceAtlas.Json.Writer

/-!
# The schema of summaries

What models are told about the form of a summary: a JSON schema.

* `Summary.schema`: the schema as a JSON value;
* `Summary.instructions`: the demand for such an object.
-/

namespace SourceAtlas.Summary

open Json (fields)

/-- The schema of a text that may be missing. -/
def textSchema (title description : String) : Json :=
  fields [("default", .text ""), ("description", .text description), ("title", .text title),
    ("type", .text "string")]

/-- The schema of a record with these members and any others. -/
def recordSchema (title : String) (members : List (String × Json)) : Json :=
  fields [("additionalProperties", .bool true), ("properties", fields members),
    ("title", .text title), ("type", .text "object")]

/-- The schema of a record that may be null or missing. -/
def partSchema (title : String) : Json :=
  fields [("anyOf", .list [fields [("$ref", .text ("#/$defs/" ++ title))],
    fields [("type", .text "null")]]), ("default", .null)]

def algorithmsSchema : Json :=
  recordSchema "AlgorithmicLogic" [
    ("description", textSchema "Description" "How the algorithms in the file work."),
    ("rationale", textSchema "Rationale" "Why the algorithms were chosen.")]

def businessSchema : Json :=
  recordSchema "BusinessLogic" [
    ("rules", textSchema "Rules" "Business rules implemented by the file."),
    ("workflows", textSchema "Workflows" "Business workflows the code executes.")]

def flowSchema : Json :=
  recordSchema "FlowDescription" [
    ("initialization", textSchema "Initialization" "How the flow in the file starts."),
    ("processingSteps", fields [
      ("description", .text "Ordered processing steps of the flow."),
      ("items", fields [("type", .text "string")]),
      ("title", .text "Processingsteps"),
      ("type", .text "array")])]

/-- The schema of a summary. -/
def schema : Json :=
  fields [
    ("$defs", fields [("AlgorithmicLogic", algorithmsSchema), ("BusinessLogic", businessSchema),
      ("FlowDescription", flowSchema)]),
    ("description", .text "Schema-validated description of one file."),
    ("properties", fields [
      ("fileDescription", fields [
        ("description", .text "What the file does and its role in the codebase."),
        ("minLength", .int 1),
        ("title", .text "Filedescription"),
        ("type", .text "string")]),
      ("tag", fields [
        ("description", .text "Primary role category of the file."),
        ("enum", .list [.text "ui", .text "dataAccess", .text "utility", .text "feature"]),
        ("title", .text "Tag"),
        ("type", .text "string")]),
      ("elementsDetail", fields [
        ("default", .null),
        ("description", .text "Per-element breakdown of functions, variables and methods."),
        ("title", .text "Elementsdetail")]),
      ("algorithmicLogic", partSchema "AlgorithmicLogic"),
      ("businessLogic", partSchema "BusinessLogic"),
      ("flowDescription", partSchema "FlowDescription")]),
    ("required", .list [.text "fileDescription", .text "tag"]),
    ("title", .text "FileSummary"),
    ("type", .text "object")]

/-- The demand for an object of the schema. -/
def instructions : Text :=
  "The output must be a JSON object that validates against this JSON schema. Do not wrap it in prose.\n" ++
    schema.indented

end SourceAtlas.Summary
