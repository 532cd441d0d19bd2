/-
  DeployTrace/Detection/Detector.lean --- the detectors in order of priority.

  A detector is a record: the pattern it looks for, where it stands among the others, when it applies,
  and what it finds.  It may fail; a run then goes on with the others.
-/
import DeployTrace.Detection.Direct
import DeployTrace.Detection.Relay
import DeployTrace.Detection.File
import DeployTrace.Detection.Artifact

set_option autoImplicit false

namespace DeployTrace

/-- Why a detector fails. -/
inductive DetectorFault where
  /-- a flow or its evidence is refused -/
  | record (fault : RecordFault)
  /-- the detector does not work -/
  | broken
  deriving DecidableEq, Repr

/-- A detector of one pattern. -/
structure Detector where
  pattern : FlowPattern
  baseConfidence : Int
  priority : Int
  description : String
  applies : Context → Bool
  detect : Context → Except DetectorFault (List Flow)

/-- Whether a workflow runs both tools. -/
def Context.hasBothTools (ctx : Context) : Bool :=
  !ctx.terraformSteps.isEmpty && !ctx.helmSteps.isEmpty

/-- The flows of some candidates, unless one of them is refused. -/
def flowsOf (digest : Digest) (ctx : Context) (candidates : List Candidate) :
    Except DetectorFault (List Flow) :=
  (candidates.mapM (Candidate.flow digest ctx)).mapError .record

/-- A detector that proposes candidates. -/
def Detector.ofCandidates (digest : Digest) (pattern : FlowPattern) (priority : Int)
    (description : String) (candidates : Context → List Candidate) : Detector :=
  { pattern := pattern, baseConfidence := pattern.baseConfidence, priority := priority,
    description := description, applies := Context.hasBothTools,
    detect := fun ctx => flowsOf digest ctx (candidates ctx) }

/-- The detectors, in the order in which they were written down. -/
def registeredDetectors (digest : Digest) : List Detector :=
  [.ofCandidates digest .directOutput 100 "Inline terraform output substitution in --set"
      directCandidates,
    .ofCandidates digest .outputToEnv 90 "Terraform output relayed through environment variables"
      relayCandidates,
    .ofCandidates digest .outputToFile 80 "Terraform JSON output relayed through a file" fileCandidates,
    .ofCandidates digest .artifactTransfer 70 "Terraform output relayed through CI artifacts"
      artifactCandidates]

/-- The detectors, highest priority first. -/
def detectors (digest : Digest) : List Detector :=
  sortBy (fun a b => b.priority < a.priority) (registeredDetectors digest)

/-- The detector of a pattern, given by its spelling. -/
def detectorFor? (digest : Digest) (pattern : String) : Option Detector :=
  (registeredDetectors digest).find? fun d => d.pattern.name == pattern

end DeployTrace
