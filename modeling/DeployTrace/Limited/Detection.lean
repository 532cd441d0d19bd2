/-
  DeployTrace/Limited/Detection.lean --- detection on a machine with limits.

  WHAT THIS FILE IS FOR.  Contexts, detectors and sessions elsewhere take for granted that every text can be
  encoded and every integer written.  A program runs under limits, and then what it writes on the way decides
  whether it goes on.  Here stands what is written, part by part and in order, and what each part does when
  something is refused: a detector fails, and detection goes on with the others; a session that cannot name
  or read a workflow has no answer; an analysis reports that and does not fail.

  WHAT IS WRITTEN.  A session writes the canonical text of the workflow and encodes it behind the name of the
  file.  A context writes the keys of jobs and the variables of steps that run one of the tools.  For every
  flow its name is encoded and the first trigger written; the relay also writes all variables of jobs and
  steps, and the transfer of artifacts writes their names.
-/
import DeployTrace.Detection.Analysis

set_option autoImplicit false

namespace DeployTrace

/-! ## Contexts -/

/-- What is written of an environment table for a step: the variables that have a value. -/
def envWritings (env : Tree) : List Writing :=
  (env.table?.getD []).flatMap fun (key, value) => match value with
    | .null => []
    | value => [.key key, .written value]

/-- What is written for the steps of a job of which something is read. -/
def stepWritings {α : Type} (read : Nat → Table → Option α) (job : Tree) : List Writing :=
  ((jobSteps job).zipIdx.filter fun (step, index) => (read index step).isSome).flatMap fun (step, _) =>
    envWritings (step.field "env")

/-- What is written for the names of jobs that stand in a table of their own. -/
def jobKeyWritings (workflow : Table) : List Writing :=
  ((workflow.field "jobs").table?.getD []).filterMap fun (key, job) =>
    if job.isTable then some (.key key) else none

/-- What is written to read a workflow. -/
def contextWritings (workflow : Table) : List Writing :=
  jobKeyWritings workflow ++ (extractJobs workflow).flatMap fun (id, job) =>
    stepWritings (terraformStep? (.table job) id) (.table job) ++
      stepWritings (helmStep? (.table job) id) (.table job)

/-- The context of a workflow, if all can be written that it takes. -/
def Context.ofWorkflowWithin (l : Limits) (workflow : Tree) (file : String) :
    Except WorkflowFault Context := do
  let table ← workflowTable workflow
  (l.writeAll (contextWritings table)).mapError .unwritten
  .ok (Context.ofTable table file)

/-! ## Detectors -/

/-- What is written for the first trigger of a workflow. -/
def triggerWritings (workflow : Table) : List Writing :=
  match triggerSetting workflow with
  | .list (first :: _) => [.written first]
  | .table ((key, _) :: _) => [.key key]
  | _ => []

/-- What is written for a flow: the text of its name, and the trigger. -/
def flowWritings (ctx : Context) (f : Flow) : List Writing :=
  .encoded (Flow.idText f.source.jobId f.target.jobId f.source.name) :: triggerWritings ctx.workflow

/-- What is written for all entries of a table. -/
def entryWritings (entries : Table) : List Writing :=
  entries.flatMap fun (key, value) => [.key key, .written value]

/-- What is written for the variables of jobs and steps, those without a value included. -/
def relayWritings (ctx : Context) : List Writing :=
  ctx.jobs.flatMap fun (_, job) => (envTables job).flatMap fun (_, _, env) => entryWritings env

/-- What is written for the names of artifacts in the steps of a job that use an action. -/
def artifactNameWritings (action : String) (job : Tree) : List Writing :=
  (stepsUsing action job).map fun (step, _) =>
    .written (((actionArguments step).field "name").orElse (.text "artifact"))

/-- What is written for artifacts: the names of uploads, and if there are any those of downloads. -/
def artifactWritings (ctx : Context) : List Writing :=
  let uploaded := (terraformJobs ctx).flatMap fun id => artifactNameWritings "upload-artifact" (ctx.job id)
  if uploaded.isEmpty then []
  else uploaded ++ (helmJobs ctx).flatMap fun id => artifactNameWritings "download-artifact" (ctx.job id)

/-- What the detector of a pattern writes before it looks for flows. -/
def patternWritings (ctx : Context) : FlowPattern → List Writing
  | .outputToEnv => relayWritings ctx
  | .artifactTransfer => artifactWritings ctx
  | _ => []

/-- What the detector of a pattern writes to find some flows. -/
def detectorWritings (ctx : Context) (pattern : FlowPattern) (flows : List Flow) : List Writing :=
  patternWritings ctx pattern ++ flows.flatMap (flowWritings ctx)

/-- A detector that fails when something is refused. -/
def Detector.within (l : Limits) (d : Detector) : Detector :=
  { d with detect := fun ctx => do
      let flows ← d.detect ctx
      (l.writeAll (detectorWritings ctx d.pattern flows)).mapError (.record ∘ .unwritten)
      .ok flows }

/-- The detectors, highest priority first, under limits. -/
def detectorsWithin (l : Limits) (digest : Digest) : List Detector := (detectors digest).map (·.within l)

/-! ## Sessions -/

/-- What is written to name a workflow: its canonical text, and then the whole text behind the file name. -/
def fingerprintWritings (workflow : Tree) (file : String) : List Writing :=
  [.canonical workflow, .encoded (fingerprintText workflow file)]

/-- A session that remembers nothing yet, under limits. -/
def Session.startWithin (l : Limits) (digest : Digest) (options : DetectorOptions) : Session :=
  { Session.start digest options with detectors := detectorsWithin l digest }

/-- The flows of a workflow, remembered or found, and the session afterwards, if all can be written that it
takes: the name of the workflow in any case, and what its context takes if it is not remembered. -/
def Session.detectWithin (l : Limits) (s : Session) (workflow : Tree) (file : String) :
    Except SessionFault (List Flow × Session) :=
  match workflow with
  | .null => .error .workflowMissing
  | workflow => do
    (l.writeAll (fingerprintWritings workflow file)).mapError .unwritten
    if (s.remembered? (fingerprint s.digest workflow file)).isNone then
      let _ ← (Context.ofWorkflowWithin l workflow file).mapError .workflow
    s.detect workflow file

/-- The flows of a workflow, found by a session of its own under limits. -/
def detectFlowsWithin (l : Limits) (digest : Digest) (options : DetectorOptions) (workflow : Tree)
    (file : String) : Except SessionFault (List Flow) :=
  ((Session.startWithin l digest options).detectWithin l workflow file).map (·.1)

/-- The reply of a session under limits to a question about a workflow, and the session afterwards. -/
def Session.askWithin (l : Limits) (s : Session) (workflow : Tree) (question : Question) :
    Except SessionFault (Reply × Session) :=
  (s.detectWithin l workflow questionFile).map fun (flows, after) => (question.reply flows, after)

/-! ## Analyses -/

/-- The analysis of a workflow under limits, and the session afterwards. -/
def Session.analyzeWithin (l : Limits) (s : Session) (workflow : Tree) (file : String) : Analysis × Session :=
  match Context.ofWorkflowWithin l workflow file with
  | .error fault =>
    ({ flows := [], summary := summarize [] none, options := s.options,
       errors := [detectionError fault.message] }, s)
  | .ok ctx =>
    match s.detectWithin l workflow file with
    | .ok (flows, after) =>
      ({ flows := flows, summary := summarize flows (some ctx), options := s.options,
         warnings := warnings flows ctx }, after)
    | .error fault =>
      ({ flows := [], summary := summarize [] (some ctx), options := s.options,
         errors := [detectionError fault.message], warnings := warnings [] ctx }, s)

/-- The analysis of a workflow by a session of its own under limits. -/
def analyzeWorkflowWithin (l : Limits) (digest : Digest) (options : DetectorOptions) (workflow : Tree)
    (file : String) : Analysis :=
  ((Session.startWithin l digest options).analyzeWithin l workflow file).1

end DeployTrace
