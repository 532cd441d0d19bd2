/-
  DeployTrace/Detection/Analysis.lean --- flows with a summary, errors and warnings.

  WHAT THIS FILE IS FOR.  An analysis never fails.  What kept it from finding flows is among its errors;
  what the reader should know about the flows is among its warnings; the summary counts the flows by
  pattern and by level.
-/
import DeployTrace.Detection.Session
import DeployTrace.Score.Flows

set_option autoImplicit false

namespace DeployTrace

/-! ## Summaries -/

/-- Counts over the flows of one run. -/
structure Summary where
  totalFlows : Int
  byPattern : Entries Int
  byLevel : Entries Int
  average : Int
  terraformJobs : Int
  helmJobs : Int
  deriving DecidableEq, Repr

/-- The summary of some flows and of the workflow they are from, if it could be read. -/
def summarize (flows : List Flow) (ctx : Option Context) : Summary where
  totalFlows := flows.length
  byPattern := FlowPattern.all.map fun p => (p.name, ((flows.filter (·.pattern == p)).length : Int))
  byLevel := ConfidenceLevel.all.map fun l => (l.name, ((flows.filter (·.level == l)).length : Int))
  average := averageConfidence flows
  terraformJobs := (ctx.map fun c => (DeployTrace.terraformJobs c).length).getD 0
  helmJobs := (ctx.map fun c => (DeployTrace.helmJobs c).length).getD 0

/-- A summary as data. -/
def Summary.toTree (s : Summary) : Tree :=
  .ofFields [("totalFlows", .int s.totalFlows), ("flowsByPattern", .ofCounts s.byPattern),
    ("flowsByConfidence", .ofCounts s.byLevel), ("averageConfidence", .int s.average),
    ("terraformJobCount", .int s.terraformJobs), ("helmJobCount", .int s.helmJobs)]

/-! ## Errors and warnings -/

/-- A failure of a whole run. -/
structure RunError where
  code : String
  message : String
  recoverable : Bool := false
  deriving DecidableEq, Repr

/-- A note on a run. -/
structure RunWarning where
  code : String
  message : String
  flowId : Option String := none
  deriving DecidableEq, Repr

/-- An error as data. -/
def RunError.toTree (e : RunError) : Tree :=
  .ofFields [("code", .text e.code), ("message", .text e.message), ("recoverable", .bool e.recoverable)]

/-- A warning as data; the flow is left out when there is none. -/
def RunWarning.toTree (w : RunWarning) : Tree :=
  .ofFields ([("code", .text w.code), ("message", .text w.message)]
    ++ ((w.flowId.filter fun id => !id.isEmpty).map fun id => ("flowId", .text id)).toList)

/-- The warning that a workflow runs one of the tools only. -/
def toolWarnings (ctx : Context) : List RunWarning :=
  (if !ctx.terraformSteps.isEmpty && ctx.helmSteps.isEmpty then
    [{ code := "NO_HELM_STEPS", message := "Workflow runs Terraform but has no Helm steps" }] else []) ++
  (if !ctx.helmSteps.isEmpty && ctx.terraformSteps.isEmpty then
    [{ code := "NO_TF_STEPS", message := "Workflow runs Helm but has no Terraform steps" }] else [])

/-- The warning that more than half of the flows are of the lowest level. -/
def levelWarnings (flows : List Flow) : List RunWarning :=
  let low := (flows.filter (·.level == .low)).length
  if flows.length < 2 * low then
    [{ code := "MANY_LOW_CONFIDENCE",
       message := Nat.repr low ++ " of " ++ Nat.repr flows.length ++ " flows have low confidence" }]
  else []

/-- Whether a flow leaves its job for one that does not declare to depend on it. -/
def lacksDependency (ctx : Context) (f : Flow) : Bool :=
  f.isCrossJob && !(ctx.dependenciesOf f.target.jobId).contains f.source.jobId

/-- The warning that a flow's dependency is not declared. -/
def dependencyWarning (f : Flow) : RunWarning :=
  { code := "MISSING_JOB_DEPENDENCY",
    message := "Job '" ++ f.target.jobId ++ "' consumes output '" ++ f.source.name ++ "' from '"
      ++ f.source.jobId ++ "' without declaring a dependency on it",
    flowId := some f.id }

/-- The warnings on the flows of a workflow. -/
def warnings (flows : List Flow) (ctx : Context) : List RunWarning :=
  toolWarnings ctx ++ levelWarnings flows ++ (flows.filter (lacksDependency ctx)).map dependencyWarning

/-! ## Analyses -/

/-- When a run took place and how long it took. -/
structure RunTime where
  detectedAt : String
  durationMs : Number
  deriving DecidableEq, Repr

/-- Flows with all that is said about them. -/
structure Analysis where
  flows : List Flow
  summary : Summary
  options : DetectorOptions
  errors : List RunError := []
  warnings : List RunWarning := []
  deriving Repr

/-- The version that analyses name. -/
def detectorVersion : String := "1.0.0"

/-- An analysis as data, with the time of the run if it is known. -/
def Analysis.toTree (a : Analysis) (time : Option RunTime) : Tree :=
  .ofFields [("flows", .list (a.flows.map Flow.toTree)), ("summary", a.summary.toTree),
    ("metadata", .ofFields (
      (time.toList.flatMap fun t => [("detectedAt", .text t.detectedAt), ("durationMs", .number t.durationMs)])
        ++ [("detectorVersion", .text detectorVersion), ("options", a.options.toTree)])),
    ("errors", .list (a.errors.map RunError.toTree)),
    ("warnings", .list (a.warnings.map RunWarning.toTree))]

/-- The error of a run that found nothing to work on. -/
def detectionError (message : String) : RunError := { code := "DETECTION_ERROR", message := message }

/-- The analysis of a workflow, and the session afterwards. -/
def Session.analyze (s : Session) (workflow : Tree) (file : String) : Analysis × Session :=
  match Context.ofWorkflow workflow file with
  | .error fault =>
    ({ flows := [], summary := summarize [] none, options := s.options,
       errors := [detectionError fault.message] }, s)
  | .ok ctx =>
    match s.detect workflow file with
    | .ok (flows, after) =>
      ({ flows := flows, summary := summarize flows (some ctx), options := s.options,
         warnings := warnings flows ctx }, after)
    | .error fault =>
      ({ flows := [], summary := summarize [] (some ctx), options := s.options,
         errors := [detectionError fault.message], warnings := warnings [] ctx }, s)

/-- The analysis of a workflow by a session of its own. -/
def analyzeWorkflow (digest : Digest) (options : DetectorOptions) (workflow : Tree) (file : String) :
    Analysis :=
  ((Session.start digest options).analyze workflow file).1

end DeployTrace
