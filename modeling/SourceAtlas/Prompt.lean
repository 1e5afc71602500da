import SourceAtlas.Text.Basic

/-!
# Prompts

The conversations with the model. What is put into a prompt is kept as it is, braces included.

* `Role`, `Message`: a turn of a conversation;
* `Prompt.system`, `Prompt.file`: the instructions, and a file with what is related to it;
* `Prompt.verification`, `Prompt.correction`: questions about a draft, and their answers;
* `Prompt.density`: a better draft; `Prompt.repair`: the same content as proper JSON.
-/

namespace SourceAtlas

/-- Who speaks. -/
inductive Role where
  | system
  | user
  | assistant
deriving DecidableEq

def Role.name : Role → Text
  | system => "system"
  | user => "user"
  | assistant => "assistant"

/-- A turn of a conversation. -/
structure Message where
  role : Role
  content : Text
deriving DecidableEq

namespace Prompt

/-- What stands for a value that does not apply. -/
def notApplicable : Text := "Not Applicable Here"

/-! ## Texts -/

/-- The instructions for a draft. -/
def systemText (format : Text) : Text :=
  "You are an experienced software engineer documenting one file of a larger codebase. Explain the business logic and the algorithmic logic of the file in precise detail and return the result as JSON. Work through these steps:

1. Overview: read the file against the rest of the codebase and write an accurate description of what the file does and why it exists.

2. Category: choose exactly one tag for the file's main role:
    - ui: the file implements user interface elements where users interact with the application.
    - dataAccess: the file reads or writes data in a database or other storage, or fetches data and manages application state on the frontend.
    - utility: the file is a collection of reusable helpers offering general functionality.
    - feature: the file delivers a distinct business capability, such as a large frontend component or a module.

3. Elements: break the file into its functions, variables and methods. For each one explain its purpose, how it interacts with other code and where it sits in the hierarchy.

4. Logic:
    a. Algorithmic logic: describe how the algorithms are structured, how data moves through them and which decisions they take, with the reasoning behind each choice.
    b. Business logic: describe the rules and workflows the code implements and how they become concrete operations.
    c. Flow: describe the sequence of events from start to finish, including method calls, state changes and interactions between objects.

5. Output: return a single JSON object following this template:

\x7b
    \"fileDescription\": \"<detailed description>\",
    \"tag\": \"<ui | dataAccess | utility | feature>\",
    \"elementsDetail\": \x7b
        \"functions\": \x7b\"<functionName>\": \x7b\"description\": \"<purpose>\", \"interactions\": \"<collaborators>\"\x7d\x7d,
        \"variables\": \x7b\"<variableName>\": \x7b\"description\": \"<role>\", \"interactions\": \"<usage>\"\x7d\x7d,
        \"methods\": \x7b\"<methodName>\": \x7b\"description\": \"<purpose>\", \"interactions\": \"<collaborators>\"\x7d\x7d
    \x7d,
    \"algorithmicLogic\": \x7b\"description\": \"<structures and flow>\", \"rationale\": \"<why>\"\x7d,
    \"businessLogic\": \x7b\"rules\": \"<business rules>\", \"workflows\": \"<workflows>\"\x7d,
    \"flowDescription\": \x7b\"initialization\": \"<how the flow starts>\", \"processingSteps\": [\"<step>\", \"<step>\"]\x7d
\x7d

Fill only the sections that apply to the file. \"fileDescription\" and \"tag\" are always required; write \"" ++ notApplicable ++ "\" for a required value you cannot determine.

6. Review: check the JSON once more and make sure it gives a technical, detailed account of the mechanisms, data flow and structure of the file.

" ++ format

/-- The text, or what stands for a value that does not apply. -/
def orNotApplicable (t : Text) : Text := if t.isEmpty then notApplicable else t

/-- A file with the files related to it and its erased text. -/
def file (fileName content related compiled : Text) : Text :=
  "MAIN FILE START
File Name: " ++ fileName ++ "
Content:
" ++ content ++ "
MAIN FILE END

Everything below only adds context to the main file above. Keep the focus on the main file.

RELATED FILES START
" ++ orNotApplicable related ++ "
RELATED FILES END

COMPILED FILE START
The same source with types and comments removed, if available. Use it only as supporting context.
" ++ orNotApplicable compiled ++ "
COMPILED FILE END
"

/-- What stands before the questions in the demand for a better draft. -/
def densityLead : Text :=
  "Check whether your previous answer fully follows the instructions and improve it where it does not.

Go deeper into the main file: its elements, how they relate and what they do. Keep the wording tight so every sentence adds information, and keep exactly the JSON structure described earlier.

An independent reviewer examined the file. Rely on this review to correct and extend your answer.
Reviewer questions:
"

/-- What stands between the questions and the answers. -/
def densityLink : Text := "

Answers taken from the file:
"

/-- What stands after the answers. -/
def densityEnd : Text := "

Focus on the main file. Return only the JSON object."

/-- The demand for a better draft. -/
def densityText (questions answers : Text) : Text :=
  densityLead ++ questions ++ densityLink ++ answers ++ densityEnd

/-- The instructions for questions about a draft. -/
def verificationText : Text :=
  "You are a software engineering expert.
Read the file summary below and write questions whose answers would show whether the summary is accurate."

/-- What stands before the questions in the instructions for answers. -/
def correctionLead : Text :=
  "You are a software engineering expert.
Answer the following questions using only the file shared with you.
Questions:
"

/-- The instructions for answers from the file. -/
def correctionText (questions : Text) : Text := correctionLead ++ questions

/-- What stands before the error in the demand for proper JSON. -/
def repairLead : Text := "Your previous output could not be parsed as the required JSON object.
Error: "

/-- What stands between the error and the format. -/
def repairLink : Text := "

Return the same content again as one valid JSON object and nothing else.
"

/-- What stands between the format and the output. -/
def repairEnd : Text := "

Previous output:
"

/-- The demand for the same content as proper JSON. -/
def repairText (output error format : Text) : Text :=
  repairLead ++ error ++ repairLink ++ format ++ repairEnd ++ output

/-! ## Conversations -/

def system (format : Text) : Message := ⟨.system, systemText format⟩

def verification (draft : Text) : List Message := [⟨.system, verificationText⟩, ⟨.user, draft⟩]

def correction (questions filePrompt : Text) : List Message :=
  [⟨.system, correctionText questions⟩, ⟨.user, filePrompt⟩]

def density (systemMessage : Message) (filePrompt draft questions answers : Text) : List Message :=
  [systemMessage, ⟨.user, filePrompt⟩, ⟨.assistant, draft⟩, ⟨.user, densityText questions answers⟩]

def repair (output error format : Text) : List Message := [⟨.user, repairText output error format⟩]

end Prompt

end SourceAtlas
