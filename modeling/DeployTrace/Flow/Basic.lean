/-
  DeployTrace/Flow/Basic.lean --- flows from a Terraform output to a Helm value.

  WHAT THIS FILE IS FOR.  A flow says that a value which one step of a workflow takes from Terraform is
  what another step hands to Helm.  It names both ends, the pattern by which the value travels, how sure
  that is, and the evidence.

  WHAT IS CHECKED.  Two numbers are limited to the range from 0 to 100, the strength of an item of
  evidence and the confidence of a flow; records that come from outside may also use a word that is in
  no vocabulary; and a machine may refuse to write what goes into a record.  `RecordFault` names these
  causes.  `Evidence.check` and `Flow.check` are the only ways in which the library makes such records.
-/
import DeployTrace.Flow.Vocabulary
import DeployTrace.Tree.Limits
import DeployTrace.Digest.Basic
import DeployTrace.Entries

set_option autoImplicit false

namespace DeployTrace

/-! ## Faults -/

/-- Why a record is refused. -/
inductive RecordFault where
  /-- the kind of an item of evidence is none of the known ones -/
  | unknownEvidence (name : String)
  /-- the strength of an item of evidence is not between 0 and 100 -/
  | strengthOutOfRange (strength : Number)
  /-- the pattern of a flow is none of the known ones -/
  | unknownPattern (name : String)
  /-- the confidence of a flow is not between 0 and 100 -/
  | confidenceOutOfRange (confidence : Number)
  /-- the kind of an origin is none of the known ones -/
  | unknownOrigin (name : String)
  /-- something that goes into the record is not written -/
  | unwritten (fault : WriteFault)
  deriving DecidableEq, Repr

/-- The wording of a fault. -/
def RecordFault.message : RecordFault → String
  | unknownEvidence name => "Unknown evidence type: " ++ name
  | strengthOutOfRange strength => "Evidence strength out of range: " ++ strength.render
  | unknownPattern name => "Unknown flow pattern: " ++ name
  | confidenceOutOfRange confidence => "Flow confidence out of range: " ++ confidence.render
  | unknownOrigin name => "Unknown origin type: " ++ name
  | unwritten fault => fault.message

/-- Whether a number is between 0 and 100. -/
def inScoreRange (n : Number) : Bool := Number.le 0 n && n.le 100

/-! ## Evidence -/

/-- A stretch of a file. -/
structure Location where
  file : String
  lineStart : Int := 1
  lineEnd : Int := 1
  columnStart : Option Int := none
  columnEnd : Option Int := none
  deriving DecidableEq, Repr

/-- One observation that supports a flow. -/
structure Evidence where
  kind : EvidenceKind
  description : String
  strength : Number
  location : Option Location := none
  snippet : Option String := none
  deriving DecidableEq, Repr

/-- The item, unless its strength is out of range. -/
def Evidence.check (e : Evidence) : Except RecordFault Evidence :=
  if inScoreRange e.strength then .ok e else .error (.strengthOutOfRange e.strength)

/-! ## The two ends of a flow -/

/-- The Terraform output a flow starts from. -/
structure OutputSource where
  name : String
  jobId : String
  stepIndex : Nat
  /-- the subcommand that exposes it -/
  command : String
  /-- the step's own id, whatever the workflow holds there -/
  stepId : Tree := .null
  workingDir : Option String := none
  sensitive : Bool := false
  outputType : Option String := none
  location : Option Location := none
  deriving Repr

/-- The Helm value a flow ends in. -/
structure ValueTarget where
  path : String
  jobId : String
  stepIndex : Nat
  /-- the Helm subcommand -/
  command : String
  channel : ValueChannel
  stepId : Option String := none
  releaseName : Option String := none
  chart : Option String := none
  kubeNamespace : Option String := none
  location : Option Location := none
  deriving DecidableEq, Repr

/-- Where in a workflow a flow happens. -/
structure FlowSetting where
  workflowFile : String
  jobChain : List String
  workflowName : String := "unnamed-workflow"
  sameWorkflow : Bool := true
  triggerType : Option String := none
  deriving DecidableEq, Repr

/-! ## Flows -/

/-- A value on its way from a Terraform output to a Helm value. -/
structure Flow where
  id : String
  source : OutputSource
  target : ValueTarget
  pattern : FlowPattern
  confidence : Number
  level : ConfidenceLevel
  evidence : List Evidence
  setting : FlowSetting
  deriving Repr

/-- The flow, unless its confidence is out of range. -/
def Flow.check (f : Flow) : Except RecordFault Flow :=
  if inScoreRange f.confidence then .ok f else .error (.confidenceOutOfRange f.confidence)

/-- What makes two flows the same: the job and name of the output, and the job and path of the value. -/
structure FlowKey where
  sourceJob : String
  output : String
  targetJob : String
  path : String
  deriving DecidableEq, Repr

/-- The key of a flow. -/
def Flow.key (f : Flow) : FlowKey :=
  { sourceJob := f.source.jobId, output := f.source.name, targetJob := f.target.jobId,
    path := f.target.path }

/-- Whether a flow leaves its job. -/
def Flow.isCrossJob (f : Flow) : Bool := f.source.jobId != f.target.jobId

/-- The text from which the name of a flow is made. -/
def Flow.idText (sourceJob targetJob output : String) : String :=
  "TF_HELM_FLOW:" ++ sourceJob ++ ":" ++ targetJob ++ ":" ++ output

/-- The name of a flow between two jobs for an output. -/
def Flow.idFor (digest : Digest) (sourceJob targetJob output : String) : String :=
  "tf-helm-" ++ digest.short (Flow.idText sourceJob targetJob output)

/-- The flows without those whose key an earlier one has, where `seen` are keys that came before. -/
def firstByKey (seen : List FlowKey) : List Flow → List Flow
  | [] => []
  | f :: rest => if seen.contains f.key then firstByKey seen rest else f :: firstByKey (f.key :: seen) rest

/-- Lists of flows as one list in which the first flow of every key stays. -/
def mergeFlows (lists : List (List Flow)) : List Flow := firstByKey [] lists.flatten

/-! ## Origins of variables -/

/-- One step by which a value changes between its origin and its use. -/
structure Transformation where
  kind : String
  description : String
  deriving DecidableEq, Repr

/-- Where a variable most likely comes from. -/
structure Origin where
  kind : OriginKind
  source : String
  confidence : Number
  transformations : List Transformation := []
  deriving DecidableEq, Repr

/-! ## Records as data -/

/-- A number as data, or nothing. -/
def Tree.ofInt? : Option Int → Tree
  | some i => .int i
  | none => .null

/-- A location as data; columns are left out when they are not known. -/
def Location.toTree (l : Location) : Tree :=
  .ofFields ([("file", .text l.file), ("lineStart", .int l.lineStart), ("lineEnd", .int l.lineEnd)]
    ++ (l.columnStart.map fun c => ("columnStart", .int c)).toList
    ++ (l.columnEnd.map fun c => ("columnEnd", .int c)).toList)

/-- An item of evidence as data; location and snippet are left out when there is none. -/
def Evidence.toTree (e : Evidence) : Tree :=
  .ofFields ([("type", .text e.kind.name), ("description", .text e.description),
      ("strength", .number e.strength)]
    ++ (e.location.map fun l => ("location", l.toTree)).toList
    ++ (e.snippet.map fun s => ("snippet", .text s)).toList)

/-- A location as data, or nothing. -/
def locationTree : Option Location → Tree
  | some l => l.toTree
  | none => .null

/-- A source as data. -/
def OutputSource.toTree (s : OutputSource) : Tree :=
  .ofFields [("name", .text s.name), ("jobId", .text s.jobId), ("stepId", s.stepId),
    ("stepIndex", .int s.stepIndex), ("command", .text s.command),
    ("workingDir", .ofText? s.workingDir), ("sensitive", .bool s.sensitive),
    ("outputType", .ofText? s.outputType), ("location", locationTree s.location)]

/-- A target as data. -/
def ValueTarget.toTree (t : ValueTarget) : Tree :=
  .ofFields [("path", .text t.path), ("jobId", .text t.jobId), ("stepId", .ofText? t.stepId),
    ("stepIndex", .int t.stepIndex), ("command", .text t.command), ("sourceType", .text t.channel.name),
    ("releaseName", .ofText? t.releaseName), ("chart", .ofText? t.chart),
    ("namespace", .ofText? t.kubeNamespace), ("location", locationTree t.location)]

/-- The setting of a flow as data. -/
def FlowSetting.toTree (s : FlowSetting) : Tree :=
  .ofFields [("workflowFile", .text s.workflowFile), ("workflowName", .text s.workflowName),
    ("jobChain", .ofTexts s.jobChain), ("sameWorkflow", .bool s.sameWorkflow),
    ("triggerType", .ofText? s.triggerType)]

/-- A flow as data. -/
def Flow.toTree (f : Flow) : Tree :=
  .ofFields [("id", .text f.id), ("source", f.source.toTree), ("target", f.target.toTree),
    ("pattern", .text f.pattern.name), ("confidence", .number f.confidence),
    ("confidenceLevel", .text f.level.name), ("evidence", .list (f.evidence.map Evidence.toTree)),
    ("workflowContext", f.setting.toTree)]

end DeployTrace
