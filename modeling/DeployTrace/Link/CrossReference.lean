/-
  DeployTrace/Link/CrossReference.lean --- a workflow against the infrastructure around it.

  Three results belong together: the flows of a workflow, the nodes that its jobs act on, and the flows
  of which both ends are nodes.  Without infrastructure only the flows are left.
-/
import DeployTrace.Limited.Graph
import DeployTrace.Link.Feed

set_option autoImplicit false

namespace DeployTrace

/-- What is known of a workflow. -/
structure CrossReference where
  analysis : Analysis
  operatesOn : List OperatesOn := []
  feedsInto : List FeedsInto := []
  deriving Repr

/-- Why a workflow cannot be compared with its infrastructure. -/
inductive CrossReferenceFault where
  | workflow (fault : WorkflowFault)
  | link (fault : LinkFault)

/-- Options for flows and for links. -/
structure CrossReferenceOptions where
  detector : DetectorOptions := {}
  linker : LinkerOptions := {}
  deriving Repr

/-- The name of a scan that is not stored. -/
def localScan : String := "local"

/-- The flows of a workflow, and how they and its jobs meet the infrastructure if there is any, on a machine
with limits. -/
def crossReferenceWithin (l : Limits) (digest : Digest) (options : CrossReferenceOptions) (workflow : Tree)
    (file : String) (infra : Option Infrastructure) : Except CrossReferenceFault CrossReference :=
  let analysis := analyzeWorkflowWithin l digest options.detector workflow file
  match infra with
  | none => .ok { analysis := analysis }
  | some infra => do
    let graph ← (PipelineGraph.ofWorkflowWithin l ⟨digest, file, localScan⟩ workflow).mapError .workflow
    let edges ← (linkJobs digest options.linker infra graph.jobs).mapError .link
    let feeds ← (resolveFlows digest localScan file infra.terraform edges analysis.flows).mapError .link
    .ok { analysis := analysis, operatesOn := edges, feedsInto := feeds }

/-- The same on a machine without limits. -/
def crossReference (digest : Digest) (options : CrossReferenceOptions) (workflow : Tree) (file : String)
    (infra : Option Infrastructure) : Except CrossReferenceFault CrossReference :=
  crossReferenceWithin .unbounded digest options workflow file infra

/-- A cross-reference as data: that of the analysis with two more entries. -/
def CrossReference.toTree (x : CrossReference) (time : Option RunTime) : Tree :=
  .table ((x.analysis.toTree time).table?.getD [] ++ [
    (.text "operatesOn", .list (x.operatesOn.map OperatesOn.toTree)),
    (.text "feedsInto", .list (x.feedsInto.map FeedsInto.toTree))])

end DeployTrace
