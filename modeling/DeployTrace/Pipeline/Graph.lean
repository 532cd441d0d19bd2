/-
  DeployTrace/Pipeline/Graph.lean --- a pipeline and its jobs as nodes and edges.

  WHAT THIS FILE IS FOR.  A workflow becomes one node for the pipeline and one for every job, in the
  order of the workflow; an edge leads from the pipeline to every job, and from every job to the jobs
  that declare to depend on it.  Dependencies on jobs that the workflow does not have are passed over.
-/
import DeployTrace.Pipeline.Operation
import DeployTrace.Pipeline.Trigger
import DeployTrace.Detection.Artifact
import DeployTrace.Digest.Identifier

set_option autoImplicit false

namespace DeployTrace

open Text

/-! ## Nodes and edges -/

/-- Files that a job hands on. -/
structure JobArtifact where
  name : String
  paths : List String := []
  expiresIn : Option String := none
  deriving DecidableEq, Repr

/-- A job of a pipeline. -/
structure JobNode where
  id : String
  /-- the name for readers -/
  name : String
  filePath : String
  scanId : String
  pipelineId : String
  /-- the key of the job in its workflow -/
  jobName : String
  stage : Option String := none
  runsOn : Option String := none
  environment : Option String := none
  dependsOn : List String := []
  operations : List Operation := []
  artifacts : List JobArtifact := []
  outputs : Entries String := []
  deriving DecidableEq, Repr

/-- A pipeline. -/
structure PipelineNode where
  id : String
  name : String
  filePath : String
  scanId : String
  platform : Platform
  triggers : List Trigger := []
  jobCount : Nat := 0
  hasTerraformJobs : Bool := false
  hasHelmJobs : Bool := false
  deriving Repr

/-- What an edge between a pipeline and a job, or between two jobs, says. -/
inductive PipelineEdgeKind where
  | contains
  | dependsOn
  deriving DecidableEq, Repr, Inhabited

/-- The spelling of a kind of edge. -/
def PipelineEdgeKind.name : PipelineEdgeKind → String
  | contains => "PIPELINE_CONTAINS"
  | dependsOn => "JOB_DEPENDS_ON"

/-- An edge of a pipeline. -/
structure PipelineEdge where
  id : String
  kind : PipelineEdgeKind
  source : String
  target : String
  confidence : Nat := 100
  deriving DecidableEq, Repr

/-- A pipeline with its jobs and edges. -/
structure PipelineGraph where
  pipeline : PipelineNode
  jobs : List JobNode
  edges : List PipelineEdge
  deriving Repr

/-- The first job with a name. -/
def jobNamed? (jobs : List JobNode) (name : String) : Option JobNode := jobs.find? (·.jobName == name)

/-- The operations of a job that act on infrastructure. -/
def JobNode.hasInfrastructure (j : JobNode) : Bool := j.operations.any (·.kind.isInfrastructure)

/-! ## Reading a job -/

/-- The artifacts that a job declares. -/
def declaredArtifacts (job : Table) : List JobArtifact :=
  match job.field "artifacts" with
  | .table setting =>
    [{ name := ((Table.field setting "name").orElse (.text "default")).written,
       paths := settingTexts (Table.field setting "paths"), expiresIn := Table.text? setting "expire_in" }]
  | _ => []

/-- The paths in a setting of an upload: its lines without blanks around them. -/
def uploadedPaths : Tree → List String
  | .text paths => ((lines paths).map strip).filter (!·.isEmpty)
  | _ => []

/-- The artifacts that the steps of a job upload. -/
def uploadedArtifacts (job : Table) : List JobArtifact :=
  (stepsUsing "upload-artifact" (.table job)).map fun (step, _) =>
    let arguments := actionArguments step
    { name := artifactName arguments, paths := uploadedPaths (arguments.field "path") }

/-- The environment that a job deploys to. -/
def environmentName? (job : Table) : Option String :=
  match job.field "environment" with
  | .text name => some name
  | setting => setting.fieldText? "name"

/-- The outputs that a job declares, in written form. -/
def jobOutputs (job : Table) : Entries String :=
  Entries.ofList (((job.field "outputs").table?.getD []).map fun (key, value) =>
    (key.written, value.written))

/-- The machine or image that a job runs on. -/
def runsOn? (job : Table) : Option String :=
  ((job.field? "runs-on").getD (job.field "image")).text?

/-! ## The graph -/

/-- The platform of a workflow: one keeps its jobs in a table. -/
def platformOf (workflow : Table) : Platform :=
  if (workflow.field "jobs").isTable then .github else .gitlab

/-- What a graph is made for: how it names things, the file of the workflow, and the scan it is part
of. -/
structure GraphSetting where
  digest : Digest
  file : String
  scanId : String

/-- The node of a job. -/
def JobNode.ofJob (s : GraphSetting) (name : String) (job : Table) : JobNode :=
  { id := jobId s.digest s.file name, name := ((job.field "name").orElse (.text name)).written,
    filePath := s.file, scanId := s.scanId, pipelineId := DeployTrace.pipelineId s.digest s.file,
    jobName := name, stage := job.text? "stage", runsOn := runsOn? job,
    environment := environmentName? job, dependsOn := declaredDependencies job,
    operations := DeployTrace.operations (.table job),
    artifacts := declaredArtifacts job ++ uploadedArtifacts job, outputs := jobOutputs job }

/-- An edge between two nodes. -/
def PipelineEdge.between (digest : Digest) (kind : PipelineEdgeKind) (source target : String) :
    PipelineEdge :=
  { id := edgeId digest kind.name source target, kind := kind, source := source, target := target }

/-- The edges to a job from the jobs it depends on. -/
def dependencyEdges (digest : Digest) (jobs : List JobNode) (job : JobNode) : List PipelineEdge :=
  (job.dependsOn.filterMap (jobNamed? jobs)).map fun other =>
    .between digest .dependsOn other.id job.id

/-- The graph of a workflow that is a table. -/
def PipelineGraph.ofTable (s : GraphSetting) (workflow : Table) : PipelineGraph :=
  let platform := platformOf workflow
  let id := DeployTrace.pipelineId s.digest s.file
  let jobs := (extractJobs workflow).map fun (name, job) => JobNode.ofJob s name job
  let runs (kind : OperationKind) : Bool := jobs.any fun j => j.operations.any (·.kind == kind)
  { pipeline := {
      id := id, name := ((workflow.field "name").orElse (.text s.file)).written, filePath := s.file,
      scanId := s.scanId, platform := platform, triggers := DeployTrace.triggers platform workflow,
      jobCount := jobs.length, hasTerraformJobs := runs .terraform, hasHelmJobs := runs .helm },
    jobs := jobs,
    edges := jobs.map (fun j => .between s.digest .contains id j.id) ++
      jobs.flatMap (dependencyEdges s.digest jobs) }

/-- The graph of a workflow. -/
def PipelineGraph.ofWorkflow (s : GraphSetting) (workflow : Tree) : Except WorkflowFault PipelineGraph :=
  (workflowTable workflow).map (PipelineGraph.ofTable s)

/-! ## Nodes as data -/

/-- An artifact as data. -/
def JobArtifact.toTree (a : JobArtifact) : Tree :=
  .ofFields [("name", .text a.name), ("paths", .ofTexts a.paths), ("expireIn", .ofText? a.expiresIn)]

/-- A job as data. -/
def JobNode.toTree (j : JobNode) : Tree :=
  .ofFields [("id", .text j.id), ("type", .text "ci_job"), ("name", .text j.name),
    ("filePath", .text j.filePath), ("scanId", .text j.scanId),
    ("metadata", .ofFields [("pipelineId", .text j.pipelineId), ("jobName", .text j.jobName),
      ("stage", .ofText? j.stage), ("runsOn", .ofText? j.runsOn), ("environment", .ofText? j.environment),
      ("dependsOn", .ofTexts j.dependsOn), ("operations", .list (j.operations.map Operation.toTree)),
      ("artifacts", .list (j.artifacts.map JobArtifact.toTree)),
      ("outputs", .ofFields (j.outputs.map fun (name, value) => (name, .text value)))])]

end DeployTrace
