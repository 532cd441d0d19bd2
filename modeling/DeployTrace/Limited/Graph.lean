/-
  DeployTrace/Limited/Graph.lean --- the graph of a workflow on a machine with limits.

  A graph takes more texts of a workflow than detection does: the names of jobs behind that of the file, which
  are encoded, and in written form its name and those of its jobs and artifacts, the outputs of jobs, and
  what its triggers are told by.  If one of them is refused there is no graph.

  Names of edges are made from names of nodes, which are digits and letters and always encoded.
-/
import DeployTrace.Limited.Detection
import DeployTrace.Pipeline.Graph

set_option autoImplicit false

namespace DeployTrace

/-- What is written for the triggers of a workflow. -/
def triggersWritings (platform : Platform) (workflow : Table) : List Writing :=
  match platform with
  | .github => ((triggerSetting workflow).table?.getD []).map fun (event, _) => .key event
  | .gitlab => (((workflow.field "workflow").field "rules").list?.getD []).filterMap fun rule =>
      rule.table?.map fun rule => .written ((Table.field? rule "if").getD (.text ""))

/-- What is written for the artifacts of a job. -/
def jobArtifactWritings (job : Table) : List Writing :=
  ((job.field "artifacts").table?.toList.map fun setting =>
      .written ((Table.field setting "name").orElse (.text "default"))) ++
    artifactNameWritings "upload-artifact" (.table job)

/-- What is written for the node of a job. -/
def jobNodeWritings (file name : String) (job : Table) : List Writing :=
  [.encoded (jobText file name), .written ((job.field "name").orElse (.text name))] ++
    jobArtifactWritings job ++ entryWritings ((job.field "outputs").table?.getD [])

/-- What is written for the graph of a workflow in a file. -/
def graphWritings (file : String) (workflow : Table) : List Writing :=
  .encoded (pipelineText file) :: jobKeyWritings workflow ++
    .written ((workflow.field "name").orElse (.text file)) ::
      triggersWritings (platformOf workflow) workflow ++
    (extractJobs workflow).flatMap fun (name, job) => jobNodeWritings file name job

/-- The graph of a workflow, if all can be written that it takes. -/
def PipelineGraph.ofWorkflowWithin (l : Limits) (s : GraphSetting) (workflow : Tree) :
    Except WorkflowFault PipelineGraph := do
  let table ← workflowTable workflow
  (l.writeAll (graphWritings s.file table)).mapError .unwritten
  .ok (PipelineGraph.ofTable s table)

end DeployTrace
