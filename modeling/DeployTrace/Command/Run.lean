/-
  DeployTrace/Command/Run.lean --- answering a request.

  WHAT THIS FILE IS FOR.  A request is answered from the files it names: settings first, then the
  workflow, then the infrastructure.  The first fault ends the answer; one that a user can mend is
  reported, any other ends the program without a word.
-/
import DeployTrace.Command.Request
import DeployTrace.Files.Workflow
import DeployTrace.Files.Settings
import DeployTrace.Infra.Load
import DeployTrace.Report.Result

set_option autoImplicit false

namespace DeployTrace.Command

/-! ## Outcomes -/

/-- What is written. -/
inductive Output where
  | lines (lines : List String)
  | data (tree : Tree)
  deriving Repr

/-- What is written, and the code with which the program ends. -/
structure Outcome where
  exitCode : Nat
  output : Output
  deriving Repr

/-- The outcome of arguments that are no request. -/
def Outcome.misused : Outcome := { exitCode := 2, output := .lines [] }

/-- The outcome of a fault that is not reported. -/
def Outcome.ended : Outcome := { exitCode := 1, output := .lines [] }

/-- The outcome of a fault that is reported. -/
def Outcome.reported (message : String) : Outcome :=
  match Report.lines? [.message (Report.styled "red" "Error:" ++ " " ++ Report.Markup.escape message)] with
  | some lines => { exitCode := 1, output := .lines lines }
  | none => .ended

/-- An output as text. -/
def Output.text : Output → String
  | lines texts => String.join (texts.map (· ++ "\n"))
  | data tree => Json.pretty 0 tree ++ "\n"

/-! ## Faults -/

/-- What can keep a request from being answered. -/
inductive Fault where
  | file (fault : FileFault)
  | setting (fault : SettingFault)
  | crossReference (fault : CrossReferenceFault)

/-- The message of a fault that is reported. -/
def Fault.message? : Fault → Option String
  | file fault => fault.message?
  | setting fault => if fault.isReported then some fault.message else none
  | crossReference (.workflow fault) => some fault.message
  | crossReference (.link _) => none

/-- The outcome of a fault. -/
def Fault.outcome (f : Fault) : Outcome :=
  match f.message? with
  | some message => .reported message
  | none => .ended

/-! ## Answers -/

/-- The options that settings and a request give; the request wins. -/
def Request.options (r : Request) (settings : Table) : Except SettingFault CrossReferenceOptions := do
  let set ← DetectorOptions.ofSettings settings
  .ok { detector := { set with
          minConfidence := (r.minConfidence.map Number.int).getD set.minConfidence,
          maxFlows := r.maxFlows.getD set.maxFlows,
          debug := r.debug || set.debug },
        linker := .ofSettings settings }

/-- The infrastructure that a request asks for. -/
def Request.infrastructure (digest : Digest) (find : FileLookup) (r : Request) :
    Except FileFault (Option Infrastructure) :=
  match r.infra with
  | none => .ok none
  | some path => (InfraReading.load digest find path).map fun reading => some reading.nodes

/-- The result that a request asks for. -/
def Request.result (digest : Digest) (find : FileLookup) (r : Request) : Except Fault CrossReference := do
  let settings ← (settingsFor find none r.config).mapError .file
  let options ← (r.options settings).mapError .setting
  let workflow ← (readWorkflow find r.workflow).mapError .file
  let infra ← (r.infrastructure digest find).mapError .file
  (crossReferenceWithin .standard digest options (.table workflow) (Text.Path.tidy r.workflow) infra).mapError
    .crossReference

/-- A result in a style; nothing if a report cannot be laid out. -/
def Style.show? (time : Option RunTime) (x : CrossReference) : Style → Option Output
  | count => some (.lines [Int.repr x.analysis.summary.totalFlows])
  | data => some (.data (x.toTree time))
  | report verbose => (Report.lines? (Report.parts verbose x)).map .lines

/-- The answer to a request. -/
def Request.answer (digest : Digest) (find : FileLookup) (time : Option RunTime) (r : Request) : Outcome :=
  match r.result digest find with
  | .error fault => fault.outcome
  | .ok x =>
    match r.style.show? time x with
    | some output => { exitCode := if x.analysis.errors.isEmpty then 0 else 1, output := output }
    | none => .ended

/-! ## Commands -/

/-- Whether what a path leads to is a file. -/
def isFile (find : FileLookup) (path : String) : Bool :=
  match find path with
  | some (.file _) => true
  | _ => false

/-- Whether what a path leads to is a directory. -/
def isDirectory (find : FileLookup) (path : String) : Bool :=
  match find path with
  | some (.directory _) => true
  | _ => false

/-- Whether all paths of a request lead to what they should. -/
def Request.isAnswerable (find : FileLookup) (r : Request) : Bool :=
  isFile find r.workflow && r.infra.all (isDirectory find) && r.config.all (isFile find)

/-- How the command is used. -/
def help : List String := [
  "Usage: main [OPTIONS] WORKFLOW",
  "",
  "  tfxref - Terraform to Helm Cross-Reference",
  "",
  "  Finds where Terraform outputs feed Helm values inside a GitHub Actions or",
  "  GitLab CI workflow.",
  "",
  "  WORKFLOW is the workflow YAML file. With --infra, jobs are also linked to the",
  "  Terraform outputs, modules and Helm charts found in that directory.",
  "",
  "  Confidence Interpretation:",
  "    80-100: High, explicit data path",
  "    50-79:  Medium, indirect but supported",
  "    0-49:   Low, heuristic only",
  "",
  "Options:",
  "  --infra DIRECTORY               Directory with .tf files and Helm charts",
  "  --config FILE                   Path to tfxref.toml",
  "  --min-confidence INTEGER RANGE  Drop flows below this confidence",
  "                                  [0<=x<=100]",
  "  --max-flows INTEGER RANGE       Maximum number of flows to report  [x>=1]",
  "  -v, --verbose                   Show evidence for each flow",
  "  -j, --json                      Output as JSON",
  "  -q, --quiet                     Only output the flow count (for scripting)",
  "  --debug                         Enable debug logging",
  "  --help                          Show this message and exit."]

/-- The outcome of a command.  Help is given whatever else is asked for, as long as all options are
known. -/
def run (digest : Digest) (find : FileLookup) (time : Option RunTime) (texts : List String) : Outcome :=
  match Arguments.read? texts with
  | none => .misused
  | some a =>
    if a.flags.contains "--help" then { exitCode := 0, output := .lines help }
    else match (Request.ofArguments? a).filter (·.isAnswerable find) with
      | some r => r.answer digest find time
      | none => .misused

/-- The paths at which a command may look, as they are written and without what means nothing in them. -/
def pathsOf (texts : List String) : List String :=
  let asked := match Arguments.read? texts with
    | some a => a.positional ++ a.values.map (·.2)
    | none => []
  distinct (settingsName :: asked ++ asked.map Text.Path.tidy)

end DeployTrace.Command
