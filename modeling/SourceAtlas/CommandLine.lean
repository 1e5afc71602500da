import SourceAtlas.CommandLine.Arguments
import SourceAtlas.Configuration
import SourceAtlas.Environment
import SourceAtlas.Indexing
import SourceAtlas.Table

/-!
# The command line

A run carries out one command on the files. It prints a text or a table, or complains and ends with
code 2; a breakdown ends it without a code.

* `Output`, `Run`: what a run comes to;
* `Libraries`: the parser and the console, which are taken from libraries;
* `Workplace`: what a run works with beside the files;
* `Workplace.runIndex`, `Workplace.runSummarize`, `Workplace.runView`, `Workplace.runResolve`: the
  runs of the commands;
* `Workplace.runWith`, `Workplace.run`: the run of a command line, with any libraries and with plain
  ones.
-/

namespace SourceAtlas

/-! ## Runs -/

/-- What a run prints. -/
inductive Output where
  | text (t : Text)
  | table (t : Table)
deriving DecidableEq

/-- What a run comes to: its exit code or the breakdown that ends it, what it prints and what it
complains of, the files after it, the client that it makes if any, and its calls to models. -/
structure Run where
  ending : Except Breakdown Nat
  output : Output
  complaint : Text
  files : FileTree
  client : Option Client
  calls : List Call

namespace Run

/-- The run that printed something and went well. -/
def succeeded (files : FileTree) (output : Output) : Run := ⟨.ok 0, output, [], files, none, []⟩

/-- The run that complained. -/
def refused (files : FileTree) (complaint : Text) : Run :=
  ⟨.ok 2, .text [], complaint, files, none, []⟩

/-- The run that broke down. -/
def brokenDown (files : FileTree) (why : Breakdown) : Run :=
  ⟨.error why, .text [], [], files, none, []⟩

/-- The run that printed what came of it, or broke down over that. -/
def printed (files : FileTree) : Except Breakdown Output → Run
  | .ok output => succeeded files output
  | .error why => brokenDown files why

/-- The run that a failure ended. A report is a complaint, under a title. -/
def failed (files : FileTree) (title : Text) : Failure → Run
  | .reported message => refused files (title ++ ": " ++ message ++ "\n")
  | .broken why => brokenDown files why

/-- The run that complains of a repository without an artifact. -/
def withoutIndex (files : FileTree) (repository : Text) : Run :=
  refused files ("No index found for repository: " ++ repository ++ "\n")

end Run

/-- What a run works with beside the files: the host, the variables of the environment, what answers
for the models, and how tokens are counted. -/
structure Workplace where
  host : Host
  environment : List (Text × Text)
  responder : Responder
  countTokens : Text → Nat

/-! ## Libraries -/

/-- What is taken from libraries: the parser of sources, and a console that shows texts and tables in
its own form, or breaks down over them. -/
structure Libraries where
  parse : Bytes → Tree
  showText : Text → Except Breakdown Text
  showTable : Table → Except Breakdown Table

namespace Libraries

/-- A parser for most of TypeScript, and a console without markup. -/
def plain : Libraries where
  parse := TypeScript.parse
  showText := .ok
  showTable t := .ok { t with rows := t.rows.map fun row => row.map Table.cell }

/-- An output as the console shows it. -/
def shown (l : Libraries) : Output → Except Breakdown Output
  | .text t => .text <$> l.showText t
  | .table t => .table <$> l.showTable t

end Libraries

/-! ## Tables -/

/-- The table of runs over indexes. -/
def Statistics.table (results : List Statistics) : Table where
  header := ["index", "pending", "summarized", "failed", "batches"]
  rows := results.map fun s =>
    [s.path, Text.ofNat s.total, Text.ofNat s.summarized, Text.ofNat s.failed.length,
      Text.ofNat s.batches]

/-- The text of a member of a summary, empty when it is missing. -/
def Summary.shownMember (key : Text) (ms : List (Text × Json)) : Text :=
  ((Json.member? key ms).map Json.shown).getD []

/-- The row of a file, if its summary is an object. -/
def Summary.row? (fileName : Text) : Json → Option (List Text)
  | .object ms =>
    some [fileName, shownMember "tag" ms, shownMember "fileDescription" ms]
  | _ => none

/-- The table of the summaries of files, by the names of the files. -/
def Summary.table? (summaries : List (Text × Json)) : Option Table := do
  let ordered := summaries.mergeSort fun a b => Text.le a.1 b.1
  let rows ← ordered.mapM fun (fileName, v) => row? fileName v
  return ⟨["file_name", "tag", "file_description"], rows⟩

/-! ## Commands -/

/-- The client that the environment names. A provider without keys gets none. -/
def Environment.client (e : Environment) : Client where
  provider := e.provider
  url := e.url
  key := match e.provider with
    | .openai => e.key
    | .ollama => none
  temperature := .int 0

namespace Workplace

/-- What a command makes of the environment and the configuration that it names. -/
def withConfiguration (w : Workplace) (t : FileTree) (go : Environment → Configuration → Run) :
    Run :=
  match Environment.load t w.environment with
  | .error fault => .failed t "Configuration error" fault.failure
  | .ok e =>
    match Configuration.load w.host.home t e.configuration with
    | .error fault => .failed t "Configuration error" fault.failure
    | .ok c => go e c

/-- The store that a configuration names. -/
def storeOf (c : Configuration) : IndexStore FileTree := .onFiles c.directory

/-! ### Indexing -/

/-- What is indexed under a configuration. -/
def indexerOf (l : Libraries) (c : Configuration) : Indexer :=
  ⟨.ofParser l.parse .byKey, c.excluded, ".ts"⟩

/-- What the failure to index is complained of as. -/
def indexingTitle : IndexingFault → Text
  | .repository _ => "Repository error"
  | _ => "Persistence error"

/-- Indexes the configured repositories and prints the paths of the artifacts that were written. -/
def runIndex (w : Workplace) (l : Libraries) (t : FileTree) (again : Bool) (c : Configuration) :
    Run :=
  match (indexerOf l c).indexAll w.host (storeOf c) again c.repositories t with
  | (.error fault, t) => .failed t (indexingTitle fault) fault.failure
  | (.ok paths, t) => .succeeded t (.text (paths.flatMap fun p => p ++ "\n"))

/-! ### Summarizing -/

/-- The refiner of a configuration. -/
def refinerOf (w : Workplace) (c : Configuration) : Except Text Refiner := do
  let tiers ← (TierTable.ofList c.tiers).mapError TierError.message
  Refiner.ofSettings tiers w.countTokens c.rounds none c.keptPoints

/-- The work on the prompt of a file. -/
def refine (w : Workplace) (r : Refiner) (prompt : Text) :
    Except Breakdown (Option Summary) × Refiner.Talk Unit :=
  r.summarize w.responder.service prompt ()

/-- Summarizes files as a refiner does. -/
def summarizerOf (w : Workplace) (r : Refiner) : Summarizer := fun fileName prompt =>
  match (w.refine r prompt).1 with
  | .error _ => .raised
  | .ok none => .answered []
  | .ok (some s) => .answered [(fileName, s)]

/-- Summarizes the index of one repository, or all indexes of the store. -/
def summarizeStored (b : Batches) (store : IndexStore FileTree) (t : FileTree) :
    Option Text → Batches.StoreRun FileTree
  | some repository => b.summarizePaths store [store.pathFor repository] t
  | none => b.summarizeStore store t

/-- The run that runs over indexes came to. -/
def reportOf (l : Libraries) (r : Batches.StoreRun FileTree) : Run :=
  match r.result with
  | .ok results => .printed r.state (l.shown (.table (Statistics.table results)))
  | .error (.load fault) => .failed r.state "Persistence error" fault.failure
  | .error (.save fault) => .failed r.state "Persistence error" fault.failure

/-- Why the artifacts of all repositories cannot be listed, if they are asked for. -/
def unlisted? (t : FileTree) (c : Configuration) : Option Text → Option FileFault
  | some _ => none
  | none => Artifact.listRefusal? c.directory t

/-- Summarizes one repository or all, by a refiner. -/
def summarizeWith (w : Workplace) (l : Libraries) (t : FileTree) (repository : Option Text)
    (c : Configuration) (r : Refiner) : Run :=
  match Batches.ofSize (w.summarizerOf r) c.batchSize summarizableExtensions with
  | .error message => .brokenDown t ⟨.value, message⟩
  | .ok b =>
    match unlisted? t c repository with
    | some fault => .brokenDown t fault.breakdown
    | none =>
      let stored := summarizeStored b (storeOf c) t repository
      { reportOf l stored with
        calls := stored.requests.flatMap fun q => (w.refine r q.prompt).2.calls }

/-- Why it cannot be told whether the repository that is asked for has an artifact. -/
def unknown? (t : FileTree) (c : Configuration) (repository : Option Text) : Option FileFault :=
  (repository.filter fun r => !r.isEmpty).bind ((storeOf c).refusal? t)

/-- The repository that is asked for, if it has a name and no artifact. -/
def missing? (t : FileTree) (c : Configuration) (repository : Option Text) : Option Text :=
  repository.filter fun r => !r.isEmpty && !(storeOf c).holds t r

/-- Summarizes one repository or all, and prints what came of it. -/
def runSummarize (w : Workplace) (l : Libraries) (t : FileTree) (repository : Option Text)
    (e : Environment) (c : Configuration) : Run :=
  match unknown? t c repository, missing? t c repository with
  | some fault, _ => .brokenDown t fault.breakdown
  | none, some r => .withoutIndex t r
  | none, none =>
    let run := match w.refinerOf c with
      | .error message => Run.brokenDown t ⟨.value, message⟩
      | .ok r => w.summarizeWith l t repository c r
    { run with client := some e.client }

/-! ### Viewing -/

/-- What is printed of summaries. Of a summary that is no object there is no row. -/
def viewOf (summaries : List (Text × Json)) : Format → Option Output
  | .json => some (.text ((Json.object summaries).sortKeys.indented ++ "\n"))
  | .table => (Summary.table? summaries).map Output.table

/-- Prints the summaries of a repository. -/
def runView (l : Libraries) (t : FileTree) (repository : Text) (format : Format)
    (c : Configuration) : Run :=
  let store := storeOf c
  match store.refusal? t repository with
  | some fault => .brokenDown t fault.breakdown
  | none =>
    if !store.holds t repository then .withoutIndex t repository
    else match store.load t (store.pathFor repository) with
      | .error fault => .failed t "Persistence error" fault.failure
      | .ok i =>
        match viewOf i.fileSummaries format with
        | some output => .printed t (l.shown output)
        | none => .brokenDown t ⟨.attribute, []⟩

/-! ### Resolving -/

/-- The path from the root of a path that is given below another. -/
def absoluteBelow (t : FileTree) (root path : Text) : Except FileFault Text :=
  match Path.fault? (Path.child root path) with
  | some why => .error (.unfit why)
  | none => .ok (Path.absolute t.current (Path.child root path))

/-- Prints what a module specifier in a file of a repository leads to. -/
def runResolve (w : Workplace) (t : FileTree) (repository source specifier : Text) : Run :=
  match Indexer.rootOf w.host t repository with
  | .error fault => .failed t [] fault.failure
  | .ok root =>
    match t.refusal? root with
    | some fault => .brokenDown t fault.breakdown
    | none =>
      if !t.isDirectory root then .refused t ("Path does not exist: " ++ root ++ "\n")
      else match ModulePaths.ofRepository t root with
        | .error fault => .brokenDown t fault.breakdown
        | .ok paths =>
          match absoluteBelow t root source with
          | .error fault => .brokenDown t fault.breakdown
          | .ok file =>
            .succeeded t (.text ((paths.resolver ".ts").resolve t specifier file ++ "\n"))

/-! ### All commands -/

/-- Carries out a command. -/
def runCommand (w : Workplace) (l : Libraries) (t : FileTree) : Command → Run
  | .index again => w.withConfiguration t fun _ c => w.runIndex l t again c
  | .summarize repository => w.withConfiguration t (w.runSummarize l t repository)
  | .view repository format => w.withConfiguration t fun _ c => runView l t repository format c
  | .resolve repository source specifier => w.runResolve t repository source specifier

/-- The run of a command line. Wrong arguments are refused. -/
def runWith (w : Workplace) (l : Libraries) (t : FileTree) (arguments : List Text) : Run :=
  match Command.ofArguments? arguments with
  | none => .refused t []
  | some command => w.runCommand l t command

/-- The run of a command line with a plain parser and a plain console. -/
def run (w : Workplace) (t : FileTree) (arguments : List Text) : Run :=
  w.runWith .plain t arguments

end Workplace

end SourceAtlas
