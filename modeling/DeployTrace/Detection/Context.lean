/-
  DeployTrace/Detection/Context.lean --- a workflow as the detectors see it.

  WHAT THIS FILE IS FOR.  Two shapes of workflow are read alike: one keeps its jobs in a table, the
  other at the top level among reserved keys.  Jobs, their Terraform and Helm steps and the dependencies
  they declare are collected once, in the order of the workflow.
-/
import DeployTrace.Step.Basic

set_option autoImplicit false

namespace DeployTrace

open Text

/-! ## Jobs -/

/-- Top-level keys that are never jobs. -/
def reservedKeys : List String :=
  ["stages", "variables", "default", "include", "workflow", "image", "before_script", "after_script",
    "cache", "services"]

/-- Keys of which a job at the top level has at least one. -/
def jobMarkers : List String := ["script", "stage", "extends", "needs"]

/-- A top-level entry that is a job. -/
def topLevelJob? (entry : Scalar × Tree) : Option (String × Table) :=
  match entry with
  | (.text key, .table job) =>
    if reservedKeys.contains key || startsWith key "." then none
    else if jobMarkers.any (Table.has job) then some (key, job) else none
  | _ => none

/-- An entry of a table of jobs that is a job. -/
def listedJob? (entry : Scalar × Tree) : Option (String × Table) :=
  match entry with
  | (key, .table job) => some (key.written, job)
  | _ => none

/-- The jobs of a workflow: those of its table of jobs when it has such a key, whatever is under it, and
otherwise those at the top level. -/
def extractJobs (workflow : Table) : Entries Table :=
  match workflow.field? "jobs" with
  | some (.table jobs) => Entries.ofList (jobs.filterMap listedJob?)
  | some _ => []
  | none => Entries.ofList (workflow.filterMap topLevelJob?)

/-! ## Declared dependencies -/

/-- The name of a job in a list of dependencies. -/
def dependencyName? : Tree → Option String
  | .text name => some name
  | .table entry => Table.text? entry "job"
  | _ => none

/-- The names of jobs in a setting that may be one name or a list. -/
def dependencyNames : Tree → List String
  | .text name => [name]
  | .list items => items.filterMap dependencyName?
  | _ => []

/-- The jobs that a job declares to depend on, without repetition. -/
def declaredDependencies (job : Table) : List String :=
  distinct (dependencyNames (job.field "needs") ++ dependencyNames (job.field "dependencies"))

/-! ## Contexts -/

/-- A workflow, read for detection. -/
structure Context where
  workflow : Table
  file : String
  jobs : Entries Table
  terraformSteps : List TerraformStep
  helmSteps : List HelmStep
  dependencies : Entries (List String)
  deriving Repr

/-- Why a workflow cannot be read. -/
inductive WorkflowFault where
  /-- the workflow is not a table but something of another kind -/
  | notATable (kind : String)
  /-- something in the workflow is not written -/
  | unwritten (fault : WriteFault)
  deriving DecidableEq, Repr

/-- The wording of the fault. -/
def WorkflowFault.message : WorkflowFault → String
  | notATable kind => "Workflow must be a mapping, got " ++ kind
  | unwritten fault => fault.message

/-- The table a workflow is. -/
def workflowTable (workflow : Tree) : Except WorkflowFault Table :=
  match workflow with
  | .table entries => .ok entries
  | other => .error (.notATable other.kindName)

/-- The context of a workflow that is a table. -/
def Context.ofTable (workflow : Table) (file : String) : Context :=
  let jobs := extractJobs workflow
  { workflow := workflow, file := file, jobs := jobs,
    terraformSteps := jobs.flatMap fun (id, job) => DeployTrace.terraformSteps (Tree.table job) id,
    helmSteps := jobs.flatMap fun (id, job) => DeployTrace.helmSteps (Tree.table job) id,
    dependencies := jobs.map fun (id, job) => (id, declaredDependencies job) }

/-- The context of a workflow. -/
def Context.ofWorkflow (workflow : Tree) (file : String) : Except WorkflowFault Context :=
  (workflowTable workflow).map fun table => Context.ofTable table file

namespace Context

/-- The dependencies recorded for a job. -/
def dependenciesOf (ctx : Context) (job : String) : List String := (ctx.dependencies.get? job).getD []

/-- A job as data; null when there is none of that name. -/
def job (ctx : Context) (id : String) : Tree :=
  match ctx.jobs.get? id with
  | some job => .table job
  | none => .null

end Context

/-! ## What the workflow says about itself -/

/-- The name of a workflow. -/
def workflowName (workflow : Table) : String :=
  match workflow.text? "name" with
  | some name => if name.isEmpty then "unnamed-workflow" else name
  | none => "unnamed-workflow"

/-- The triggers of a workflow as they stand.  YAML reads the key `on` as a truth value, so the entry may
be under that. -/
def triggerSetting (workflow : Table) : Tree :=
  match workflow.field? "on" with
  | some setting => setting
  | none => (workflow.get? (.bool true)).getD .null

/-- The first trigger of a workflow. -/
def triggerType (workflow : Table) : Option String :=
  match triggerSetting workflow with
  | .text trigger => some trigger
  | .list (first :: _) => some first.written
  | .table ((key, _) :: _) => some key.written
  | _ => none

end DeployTrace
