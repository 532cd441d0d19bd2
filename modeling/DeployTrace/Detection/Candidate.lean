/-
  DeployTrace/Detection/Candidate.lean --- from an observation to a flow.

  A detector proposes candidates: both ends of a flow and the evidence.  What turns a candidate into a
  flow is the same for all detectors: its confidence, its name, and the chain of jobs between its ends.
-/
import DeployTrace.Detection.Dependency
import DeployTrace.Number.Arithmetic

set_option autoImplicit false

namespace DeployTrace

/-! ## Confidence of a detector -/

/-- The score of a detector: a base, three tenths of the mean strength of the evidence, and two points
for each item up to ten. -/
def detectorConfidence {α : Type} [Arithmetic α] (base : α) (strengths : List α) : Int :=
  let count := strengths.length
  let mean : α :=
    if strengths.isEmpty then Arithmetic.ofInt 0
    else Arithmetic.div (Arithmetic.sum strengths) (Arithmetic.ofInt count)
  let bonus : α := Arithmetic.ofInt (min 10 (2 * count) : Nat)
  Arithmetic.round (Arithmetic.clampScore
    (Arithmetic.add (Arithmetic.add base (Arithmetic.mul (Arithmetic.ofRat (3 / 10)) mean)) bonus))

/-- The score from which a pattern starts.  Patterns without a detector start from nothing. -/
def FlowPattern.baseConfidence : FlowPattern → Int
  | directOutput => 60
  | outputToEnv => 50
  | outputToFile => 45
  | artifactTransfer => 35
  | _ => 0

/-! ## Candidates -/

/-- A proposed flow. -/
structure Candidate where
  pattern : FlowPattern
  source : OutputSource
  target : ValueTarget
  evidence : List Evidence
  deriving Repr

/-- The place a context's records refer to: the whole workflow file. -/
def Context.location (ctx : Context) : Location := { file := ctx.file }

/-- The value a Helm step takes under a path. -/
def Context.target (ctx : Context) (h : HelmStep) (path : String) (channel : ValueChannel) :
    ValueTarget :=
  { path := path, jobId := h.jobId, stepIndex := h.stepIndex, command := h.command, channel := channel,
    stepId := h.stepId, releaseName := h.releaseName, chart := h.chart, kubeNamespace := h.kubeNamespace,
    location := some ctx.location }

/-- The evidence that one job declares a dependency on another. -/
def dependencyEvidence (source target : String) (strength : Number) : Evidence :=
  { kind := .jobDependency,
    description := "Job '" ++ target ++ "' declares a dependency on '" ++ source ++ "'",
    strength := strength, snippet := some ("needs: [" ++ source ++ "]") }

/-- The flow that a candidate stands for, with the given evidence and confidence. -/
def Candidate.flowWith (digest : Digest) (ctx : Context) (c : Candidate) (evidence : List Evidence)
    (confidence : Number) : Flow :=
  { id := Flow.idFor digest c.source.jobId c.target.jobId c.source.name,
    source := c.source, target := c.target, pattern := c.pattern, confidence := confidence,
    level := .ofScore confidence, evidence := evidence,
    setting := {
      workflowFile := ctx.file, workflowName := workflowName ctx.workflow,
      jobChain := jobChain ctx.dependencies c.source.jobId c.target.jobId,
      triggerType := triggerType ctx.workflow } }

/-- The flow that a candidate stands for. -/
def Candidate.flow (digest : Digest) (ctx : Context) (c : Candidate) : Except RecordFault Flow := do
  let evidence ← c.evidence.mapM Evidence.check
  let confidence := detectorConfidence (.int c.pattern.baseConfidence) (evidence.map (·.strength))
  (c.flowWith digest ctx evidence (.int confidence)).check

end DeployTrace
