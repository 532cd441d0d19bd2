/-
  DeployTrace/Detection/Session.lean --- detection with a memory.

  WHAT THIS FILE IS FOR.  A session answers for one workflow after another and remembers its answers
  under the digest of the workflow and its file name.  It remembers at most so many; the oldest answer
  goes when a new one comes.  Failures and answers that were remembered change nothing.

  A session is a value: `Session.detect` gives the answer and the session after it.
-/
import DeployTrace.Detection.Selection
import DeployTrace.Format.Json

set_option autoImplicit false

namespace DeployTrace

/-! ## Names of workflows -/

/-- The text from which the name of a workflow is made: its file name, a line end, and its canonical
text. -/
def fingerprintText (workflow : Tree) (file : String) : String := file ++ "\n" ++ Json.canonical workflow

/-- The name under which the answer for a workflow is remembered. -/
def fingerprint (digest : Digest) (workflow : Tree) (file : String) : String :=
  digest.full (fingerprintText workflow file)

/-! ## Sessions -/

/-- A detector at work: its options, its detectors, how many answers it remembers, and those answers,
oldest first. -/
structure Session where
  digest : Digest
  options : DetectorOptions
  detectors : List Detector
  capacity : Nat
  cache : List (String × List Flow)

/-- How many answers are remembered unless told otherwise. -/
def standardCapacity : Nat := 256

/-- A session that remembers nothing yet. -/
def Session.start (digest : Digest) (options : DetectorOptions) : Session :=
  { digest := digest, options := options, detectors := DeployTrace.detectors digest, capacity := standardCapacity,
    cache := [] }

/-- Why a session has no answer. -/
inductive SessionFault where
  /-- there is no workflow -/
  | workflowMissing
  /-- the workflow cannot be read -/
  | workflow (fault : WorkflowFault)
  /-- nothing may be remembered, so that there is no oldest answer to make room -/
  | noRoom
  /-- the text from which the workflow's name is made is not written -/
  | unwritten (fault : WriteFault)
  deriving DecidableEq, Repr

/-- The wording of a fault. -/
def SessionFault.message : SessionFault → String
  | workflowMissing => "Workflow is required"
  | workflow fault => fault.message
  | noRoom => ""
  | unwritten fault => fault.message

namespace Session

/-- The session with nothing remembered. -/
def clear (s : Session) : Session := { s with cache := [] }

/-- The names of the remembered answers, oldest first. -/
def keys (s : Session) : List String := s.cache.map (·.1)

/-- The remembered answer under a name. -/
def remembered? (s : Session) (key : String) : Option (List Flow) := s.cache.lookup key

/-- The flows of a workflow found afresh, under the session's options. -/
def compute (s : Session) (workflow : Tree) (file : String) : Except WorkflowFault (List Flow) :=
  (Context.ofWorkflow workflow file).map fun ctx => flowsInContext s.options s.detectors ctx

/-- The session with one more answer, the oldest one given up when there is no room. -/
def remember (s : Session) (key : String) (flows : List Flow) : Except SessionFault Session :=
  if s.cache.length < s.capacity then .ok { s with cache := s.cache ++ [(key, flows)] }
  else match s.cache with
    | [] => .error .noRoom
    | _ :: rest => .ok { s with cache := rest ++ [(key, flows)] }

/-- The flows of a workflow, remembered or found, and the session afterwards. -/
def detect (s : Session) (workflow : Tree) (file : String) :
    Except SessionFault (List Flow × Session) :=
  match workflow with
  | .null => .error .workflowMissing
  | workflow =>
    let key := fingerprint s.digest workflow file
    match s.remembered? key with
    | some flows => .ok (flows, s)
    | none =>
      match s.compute workflow file with
      | .error fault => .error (.workflow fault)
      | .ok flows => (s.remember key flows).map fun after => (flows, after)

end Session

/-- The flows of a workflow, found by a session of its own. -/
def detectFlows (digest : Digest) (options : DetectorOptions) (workflow : Tree) (file : String) :
    Except SessionFault (List Flow) :=
  ((Session.start digest options).detect workflow file).map (·.1)

/-! ## Questions about the flows of a workflow -/

/-- The jobs from which flows start, each once. -/
def sourceJobs (flows : List Flow) : List String := distinct (flows.map (·.source.jobId))

/-- The jobs in which flows end, each once. -/
def targetJobs (flows : List Flow) : List String := distinct (flows.map (·.target.jobId))

/-- Whether a flow goes from one job to another. -/
def hasFlowBetween (flows : List Flow) (source target : String) : Bool :=
  flows.any fun f => f.source.jobId == source && f.target.jobId == target

/-- A question about the flows of a workflow.  Patterns and levels are given by their spelling. -/
inductive Question where
  /-- the flows that reach a confidence -/
  | reaching (threshold : Number)
  /-- the flows of a pattern -/
  | ofPattern (name : String)
  /-- the flows of a level -/
  | ofLevel (name : String)
  /-- whether a flow goes from one job to another -/
  | between (source target : String)
  /-- the jobs from which flows start -/
  | sources
  /-- the jobs in which flows end -/
  | targets
  deriving DecidableEq, Repr

/-- The reply to a question. -/
inductive Reply where
  | flows (flows : List Flow)
  | jobs (names : List String)
  | verdict (holds : Bool)
  deriving Repr

/-- The reply that some flows give to a question. -/
def Question.reply (flows : List Flow) : Question → Reply
  | reaching threshold => .flows (atLeast threshold flows)
  | ofPattern name => .flows (flows.filter fun f => f.pattern.name == name)
  | ofLevel name => .flows (flows.filter fun f => f.level.name == name)
  | between source target => .verdict (hasFlowBetween flows source target)
  | sources => .jobs (sourceJobs flows)
  | targets => .jobs (targetJobs flows)

/-- The file name under which questions are asked. -/
def questionFile : String := "workflow.yml"

/-- The reply of a session to a question about a workflow, and the session afterwards. -/
def Session.ask (s : Session) (workflow : Tree) (question : Question) : Except SessionFault (Reply × Session) :=
  (s.detect workflow questionFile).map fun (flows, after) => (question.reply flows, after)

end DeployTrace
