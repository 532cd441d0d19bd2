/-
  DeployTrace/Link/Feed.lean --- outputs that feed values, as edges between nodes.

  WHAT THIS FILE IS FOR.  A flow names an output and a value; a feed is an edge between the node that
  declares the output and the node that a Helm operation acts on.  It keeps the flow's evidence as
  pointers into files, with strengths from 0 to 1, and says by which tool the value is reshaped on its
  way, if the evidence shows one.
-/
import DeployTrace.Link.Edge

set_option autoImplicit false

namespace DeployTrace

open Text Pattern

/-! ## Pointers -/

/-- What a pointer points at. -/
inductive PointerKind where
  | variableAssignment
  | pipelineStep
  | fileReference
  | scriptLine
  deriving DecidableEq, Repr, Inhabited

/-- The spelling of a kind of pointer. -/
def PointerKind.name : PointerKind → String
  | variableAssignment => "variable_assignment"
  | pipelineStep => "ci_step"
  | fileReference => "file_reference"
  | scriptLine => "script_line"

/-- What evidence of a kind points at. -/
def PointerKind.ofEvidence : EvidenceKind → PointerKind
  | .explicitReference => variableAssignment
  | .expressionMatch => variableAssignment
  | .envVariable => variableAssignment
  | .jobDependency => pipelineStep
  | .stepProximity => pipelineStep
  | .filePathMatch => fileReference
  | .artifactPath => fileReference
  | .namingConvention => scriptLine
  | .semanticMatch => scriptLine

/-- Where a piece of evidence is found. -/
structure EvidencePointer where
  kind : PointerKind
  filePath : String
  /-- from 0 to 1 -/
  strength : Number
  lines : Option (Int × Int) := none
  snippet : Option String := none
  deriving DecidableEq, Repr

/-- The pointer for a piece of evidence; without a location it points at the workflow's file. -/
def EvidencePointer.ofEvidence (file : String) (e : Evidence) : EvidencePointer :=
  { kind := .ofEvidence e.kind, filePath := (e.location.map (·.file)).getD file,
    strength := e.strength.div 100, lines := e.location.map fun l => (l.lineStart, l.lineEnd),
    snippet := e.snippet }

/-! ## Reshaping -/

/-- A tool that reshapes a value, and the expression it is given. -/
structure Reshaping where
  tool : String
  expression : Option String := none
  deriving DecidableEq, Repr

/-- A quoted argument of a tool, its text being part 1. -/
def quotedArgument (tool : String) : Pattern :=
  let quote : Pattern := char fun c => c == '\x27' || c == '\x22'
  seq [word tool, blanks1, quote, mark 1 (noneOf1 ['\x27', '\x22']), quote]

/-- The tools that reshape values, in the order in which they are looked for, and whether their first
argument is an expression. -/
def reshapingTools : List (String × Bool) :=
  [("jq", true), ("yq", true), ("envsubst", false), ("sed", true), ("awk", true)]

/-- Whether a text in small letters mentions a tool. -/
def mentionsTool (text tool : String) : Bool := contains text (tool ++ " ") || contains text (tool ++ ".")

/-- The first tool that a snippet mentions. -/
def reshapingIn? (snippet : String) : Option Reshaping :=
  (reshapingTools.find? fun (tool, _) => mentionsTool (lower snippet) tool).map fun (tool, hasExpression) =>
    { tool := tool,
      expression := if hasExpression then
          ((quotedArgument tool).search snippet.toList).map fun found => String.ofList (found.part 1)
        else none }

/-- How a flow's value is reshaped: by the first tool in its evidence, or not at all when it is
substituted directly. -/
def Flow.reshaping? (f : Flow) : Option Reshaping :=
  match f.evidence.findSome? fun e => reshapingIn? (e.snippet.getD "") with
  | some found => some found
  | none => if f.pattern == .directOutput then some { tool := "direct" } else none

/-! ## Pipelines by file name -/

/-- Parts of a file name that tell the platform of a pipeline. -/
def platformMarks : List (String × String) :=
  [(".github/workflows", "github_actions"), (".gitlab-ci", "gitlab_ci"), ("jenkins", "jenkins"),
    ("azure-pipelines", "azure_devops")]

/-- The platform that a file's name tells. -/
def platformOfFile? (file : String) : Option String :=
  (platformMarks.find? fun (part, _) => contains (lower file) part).map (·.2)

/-! ## Feeds -/

/-- The kind of the edges from outputs to values, in their names and in data. -/
def feedsIntoKind : String := "FEEDS_INTO"

/-- An output that feeds a value. -/
structure FeedsInto where
  id : String
  /-- the output's node -/
  source : String
  /-- the node that the Helm operation acts on -/
  target : String
  scanId : String
  flow : Flow
  /-- when it was found, if that is to be told -/
  detectedAt : Option String := none
  deriving Repr

/-- The feed that a flow is between two nodes. -/
def FeedsInto.ofFlow (digest : Digest) (flow : Flow) (source target scanId : String)
    (detectedAt : Option String) : FeedsInto :=
  { id := edgeId digest feedsIntoKind source target, source := source, target := target,
    scanId := scanId, flow := flow, detectedAt := detectedAt }

/-- The evidence of a feed as pointers. -/
def FeedsInto.pointers (f : FeedsInto) : List EvidencePointer :=
  f.flow.evidence.map (.ofEvidence f.flow.setting.workflowFile)

/-! ## Resolving flows -/

/-- Whether a node declares an output of a name. -/
def declaresOutput (name : String) (n : InfraNode) : Bool :=
  n.kind == .terraformOutput && match n.fact "outputName" with
    | .text s => s == name
    | _ => false

/-- Whether the module of a node lies at the end of a directory's path. -/
def moduleEndsWith (dir : String) (n : InfraNode) : Except LinkFault Bool :=
  match n.facts.field? "modulePath" with
  | none => .ok (endsWith "" dir)
  | some (.text path) => .ok (endsWith path dir)
  | some other => .error (.factKind other.kindName)

/-- The first node for which a check holds. -/
def findNode? (check : InfraNode → Except LinkFault Bool) :
    List InfraNode → Except LinkFault (Option InfraNode)
  | [] => .ok none
  | n :: rest => do if ← check n then return some n else findNode? check rest

/-- The node of a flow's output: of the nodes that declare one of that name the first whose module the
step works in, or else the first. -/
def outputNode? (nodes : List InfraNode) (f : Flow) : Except LinkFault (Option InfraNode) := do
  let named := nodes.filter (declaresOutput f.source.name)
  let dir := stripOf ['.', '/'] (f.source.workingDir.getD "")
  if dir.isEmpty then return named.head?
  match ← findNode? (moduleEndsWith dir) named with
  | some n => return some n
  | none => return named.head?

/-- The surest of some edges, the first of equals. -/
def surest? : List OperatesOn → Option OperatesOn
  | [] => none
  | first :: rest => some (rest.foldl (fun best e => if best.confidence.lt e.confidence then e else best) first)

/-- The edges that the Helm step of a flow has. -/
def targetEdges (digest : Digest) (file : String) (edges : List OperatesOn) (f : Flow) :
    List OperatesOn :=
  edges.filter fun e =>
    e.source == jobId digest file f.target.jobId && e.kind == .helm && e.stepIndex == f.target.stepIndex

/-- The feed that a flow is, if its output and its Helm step both are known as nodes. -/
def resolveFlow (digest : Digest) (scanId file : String) (nodes : List InfraNode)
    (edges : List OperatesOn) (f : Flow) : Except LinkFault (Option FeedsInto) := do
  match ← outputNode? nodes f with
  | none => return none
  | some source =>
    return (surest? (targetEdges digest file edges f)).map fun e =>
      FeedsInto.ofFlow digest f source.id e.target scanId none

/-- The feeds that flows are, in their order. -/
def resolveFlows (digest : Digest) (scanId file : String) (nodes : List InfraNode)
    (edges : List OperatesOn) (flows : List Flow) : Except LinkFault (List FeedsInto) := do
  let found ← flows.mapM (resolveFlow digest scanId file nodes edges)
  return found.filterMap id

/-! ## Feeds as data -/

/-- A pointer as data. -/
def EvidencePointer.toTree (p : EvidencePointer) : Tree :=
  .ofFields [("type", .text p.kind.name),
    ("location", .ofFields [("filePath", .text p.filePath), ("lineStart", .ofInt? (p.lines.map (·.1))),
      ("lineEnd", .ofInt? (p.lines.map (·.2)))]),
    ("snippet", .ofText? p.snippet), ("strength", .number p.strength)]

/-- A reshaping as data, or nothing. -/
def reshapingTree : Option Reshaping → Tree
  | some r => .ofFields ([("type", .text r.tool)] ++ (r.expression.map fun e => ("expression", .text e)).toList)
  | none => .null

/-- What a feed says besides its ends. -/
def FeedsInto.metadata (f : FeedsInto) : Tree :=
  let flow := f.flow
  .ofFields ([("sourceType", .text "terraform_output"), ("sourceOutputName", .text flow.source.name),
    ("sourceModulePath", .ofText? flow.source.workingDir),
    ("targetType", .text (if flow.target.channel == .valuesFile then "helmfile_value" else "helm_value")),
    ("targetValuePath", .text flow.target.path),
    ("targetChart", .text ((nonempty? flow.target.chart).getD "unknown")),
    ("flowMechanism", .text (if flow.pattern == .directOutput then "direct_reference" else "ci_pipeline")),
    ("flowPattern", .text flow.pattern.name),
    ("pipelineType", .ofText? (platformOfFile? flow.setting.workflowFile)),
    ("pipelineFile", .text flow.setting.workflowFile), ("jobName", .text flow.source.jobId),
    ("transformation", reshapingTree flow.reshaping?)]
    ++ f.detectedAt.toList.flatMap fun t => [("firstDetected", .text t), ("lastVerified", .text t)])

/-- A feed as data. -/
def FeedsInto.toTree (f : FeedsInto) : Tree :=
  .ofFields [("id", .text f.id), ("type", .text feedsIntoKind), ("sourceNodeId", .text f.source),
    ("targetNodeId", .text f.target), ("scanId", .text f.scanId),
    ("confidence", .number f.flow.confidence), ("metadata", f.metadata),
    ("evidence", .list (f.pointers.map EvidencePointer.toTree))]

/-! ## Rows for storage -/

/-- The columns that rows of all edges have; confidence is from 0 to 1 there. -/
def rowFields (id scanId tenantId source target kind : String) (confidence : Number) (metadata : Tree) :
    List (String × Tree) :=
  [("id", .text id), ("scan_id", .text scanId), ("tenant_id", .text tenantId), ("original_id", .text id),
    ("source_node_id", .text source), ("target_node_id", .text target), ("type", .text kind),
    ("confidence", .number (confidence.div 100)), ("metadata", metadata)]

/-- The row of an edge from a job to a node. -/
def OperatesOn.toRow (e : OperatesOn) (scanId tenantId : String) : Tree :=
  .ofFields (rowFields e.id scanId tenantId e.source e.target e.label e.confidence e.metadata)

/-- The row of a feed. -/
def FeedsInto.toRow (f : FeedsInto) (tenantId : String) : Tree :=
  .ofFields (rowFields f.id f.scanId tenantId f.source f.target feedsIntoKind f.flow.confidence f.metadata
    ++ [("evidence", .list (f.pointers.map EvidencePointer.toTree))])

end DeployTrace
