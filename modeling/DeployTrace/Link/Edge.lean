/-
  DeployTrace/Link/Edge.lean --- links from jobs to the nodes they act on.

  WHAT THIS FILE IS FOR.  For every operation of a job the nodes of its tool are scored; those that reach
  the least confidence are sorted, the best first and nodes of the same score in their order, and as many
  as allowed are kept.  Each kept match is one edge, whose name holds the node and the step, so that two
  operations of a job that act on one node have edges of their own.
-/
import DeployTrace.Link.Score

set_option autoImplicit false

namespace DeployTrace

/-! ## Matches and edges -/

/-- A node that an operation acts on. -/
structure LinkMatch where
  nodeId : String
  confidence : Number
  reason : MatchReason
  operation : Operation
  deriving DecidableEq, Repr

/-- The kind of the edges from jobs to nodes, in their names and in data. -/
def operatesOnKind : String := "OPERATES_ON"

/-- A job acting on a node. -/
structure OperatesOn where
  id : String
  /-- the job -/
  source : String
  /-- the node -/
  target : String
  confidence : Number
  /-- what the job runs -/
  operation : String
  kind : OperationKind
  stepIndex : Nat
  reason : MatchReason
  label : String := operatesOnKind
  deriving DecidableEq, Repr

/-- Matches and edges, one of each for every link. -/
structure Links where
  edges : List OperatesOn
  links : List LinkMatch
  deriving DecidableEq, Repr

/-- Whether confidence and reason are those of a match. -/
def isValidMatch (confidence : Number) (reason : String) : Bool :=
  inScoreRange confidence && (MatchReason.ofName? reason).isSome

/-! ## Linking -/

/-- A way to score a node for an operation of a job. -/
abbrev Scorer : Type :=
  JobNode → Operation → InfraNode → LinkerOptions → Except LinkFault (Option LinkScore)

/-- The match of an operation and a node, if its score reaches the least confidence. -/
def matchOf (scorer : Scorer) (options : LinkerOptions) (job : JobNode) (o : Operation) (n : InfraNode) :
    Except LinkFault (Option LinkMatch) := do
  match ← scorer job o n options with
  | none => return none
  | some score =>
    let threshold ← options.threshold
    if (Number.int score.confidence).lt threshold then return none
    else return some {
      nodeId := n.id, confidence := .int score.confidence, reason := score.reason, operation := o }

/-- Matches in the order of their confidence, the surest first. -/
def sortMatches (found : List LinkMatch) : List LinkMatch :=
  sortBy (fun a b => b.confidence.lt a.confidence) found

/-- The matches of one operation that are kept. -/
def matchesOf (scorer : Scorer) (options : LinkerOptions) (nodes : List InfraNode) (job : JobNode)
    (o : Operation) : Except LinkFault (List LinkMatch) := do
  let found ← nodes.mapM (matchOf scorer options job o)
  options.keepBest (sortMatches (found.filterMap id))

/-- The target of an edge's name: the node and the step. -/
def linkTarget (nodeId : String) (stepIndex : Nat) : String := nodeId ++ ":" ++ Nat.repr stepIndex

/-- The edge of a match. -/
def LinkMatch.edge (digest : Digest) (job : JobNode) (m : LinkMatch) : OperatesOn :=
  { id := edgeId digest operatesOnKind job.id (linkTarget m.nodeId m.operation.stepIndex),
    source := job.id, target := m.nodeId, confidence := .int m.confidence.round,
    operation := if m.operation.text.isEmpty then m.operation.command else m.operation.text,
    kind := m.operation.kind, stepIndex := m.operation.stepIndex, reason := m.reason }

/-- The links of some operations of a job to some nodes. -/
def linkOperations (digest : Digest) (scorer : Scorer) (options : LinkerOptions) (nodes : List InfraNode)
    (job : JobNode) (operations : List Operation) : Except LinkFault Links := do
  let found ← operations.mapM (matchesOf scorer options nodes job)
  return { edges := found.flatten.map (LinkMatch.edge digest job), links := found.flatten }

/-- The links of a job's Terraform operations. -/
def linkTerraform (digest : Digest) (options : LinkerOptions) (nodes : List InfraNode) (job : JobNode) :
    Except LinkFault Links :=
  linkOperations digest terraformScore options (nodes.filter (·.kind.isTerraform)) job
    (operationsOf .terraform job.operations)

/-- The links of a job's Helm operations. -/
def linkHelm (digest : Digest) (options : LinkerOptions) (nodes : List InfraNode) (job : JobNode) :
    Except LinkFault Links :=
  linkOperations digest helmScore options (nodes.filter (·.kind.isHelm)) job
    (operationsOf .helm job.operations)

/-- The links of a job: those to Terraform first. -/
def linkJob (digest : Digest) (options : LinkerOptions) (infra : Infrastructure) (job : JobNode) :
    Except LinkFault Links := do
  let terraform ← linkTerraform digest options infra.terraform job
  let helm ← linkHelm digest options infra.helm job
  return { edges := terraform.edges ++ helm.edges, links := terraform.links ++ helm.links }

/-- The edges of all jobs. -/
def linkJobs (digest : Digest) (options : LinkerOptions) (infra : Infrastructure) (jobs : List JobNode) :
    Except LinkFault (List OperatesOn) := do
  let found ← jobs.mapM (linkJob digest options infra)
  return found.flatMap (·.edges)

/-! ## Questions about edges -/

/-- The nodes that a job acts on, each once. -/
def operatedNodes (job : String) (edges : List OperatesOn) : List String :=
  distinct ((edges.filter (·.source == job)).map (·.target))

/-- The jobs that act on a node, each once. -/
def operatingJobs (node : String) (edges : List OperatesOn) : List String :=
  distinct ((edges.filter (·.target == node)).map (·.source))

/-- How often each of some words occurs, in the order in which they first do. -/
def tally (words : List String) : Entries Int :=
  (distinct words).map fun w => (w, (words.count w : Int))

/-- Counts over edges. -/
structure LinkStatistics where
  totalEdges : Nat
  uniqueJobs : Nat
  uniqueNodes : Nat
  averageConfidence : Int
  byKind : Entries Int
  byReason : Entries Int
  deriving DecidableEq, Repr

/-- Counts and the mean confidence of some edges. -/
def linkStatistics (edges : List OperatesOn) : LinkStatistics where
  totalEdges := edges.length
  uniqueJobs := (distinct (edges.map (·.source))).length
  uniqueNodes := (distinct (edges.map (·.target))).length
  averageConfidence := roundedMean (edges.map (·.confidence))
  byKind := tally (edges.map (·.kind.name))
  byReason := tally (edges.map (·.reason.name))

/-- The edges that reach a confidence. -/
def edgesAtLeast (threshold : Number) (edges : List OperatesOn) : List OperatesOn :=
  edges.filter fun e => threshold.le e.confidence

/-! ## Edges as data -/

/-- What an edge says besides its ends. -/
def OperatesOn.metadata (e : OperatesOn) : Tree :=
  .ofFields [("operation", .text e.operation), ("operationType", .text e.kind.name),
    ("stepIndex", .int e.stepIndex), ("matchReason", .text e.reason.name)]

/-- An edge as data. -/
def OperatesOn.toTree (e : OperatesOn) : Tree :=
  .ofFields [("id", .text e.id), ("type", .text e.label), ("sourceNodeId", .text e.source),
    ("targetNodeId", .text e.target), ("confidence", .number e.confidence), ("metadata", e.metadata)]

/-- A match as data. -/
def LinkMatch.toTree (m : LinkMatch) : Tree :=
  .ofFields [("nodeId", .text m.nodeId), ("confidence", .number m.confidence),
    ("matchReason", .text m.reason.name), ("operation", .text m.operation.command),
    ("stepIndex", .int m.operation.stepIndex)]

/-- Counts as data. -/
def LinkStatistics.toTree (s : LinkStatistics) : Tree :=
  .ofFields [("totalEdges", .int s.totalEdges), ("uniqueJobs", .int s.uniqueJobs),
    ("uniqueNodes", .int s.uniqueNodes), ("averageConfidence", .int s.averageConfidence),
    ("byOperationType", .ofCounts s.byKind), ("byMatchReason", .ofCounts s.byReason)]

end DeployTrace
