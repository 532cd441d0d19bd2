/-
  DeployTrace/Step/Trace.lean --- tracing a variable to its origin.

  WHAT THIS FILE IS FOR.  Given a name and the scope it is looked up in, the most likely origin is
  reported with a confidence: a Terraform step of a job that is depended on, an environment variable,
  an earlier step of the same job, or, for want of a scope, a name that looks like an output.
-/
import DeployTrace.Step.Basic
import DeployTrace.Step.Reference

set_option autoImplicit false

namespace DeployTrace

open Text

/-- What may be looked at in order to trace a variable. -/
structure TraceSetting where
  workflow : Tree := .table []
  job : Tree := .table []
  steps : List Tree := []
  /-- the jobs that the job depends on -/
  dependentJobs : List String := []
  envInScope : Entries String := []
  availableOutputs : List String := []
  deriving Repr

/-- The origin of a variable about which nothing is known. -/
def Origin.unknown (name : String) : Origin :=
  { kind := .unknown, source := name, confidence := 0 }

/-! ## Outputs of jobs that are depended on -/

/-- The jobs of a workflow: its table of jobs, or the workflow itself where jobs stand at the top. -/
def workflowJobs (workflow : Tree) : Tree :=
  match workflow.field "jobs" with
  | .table jobs => .table jobs
  | _ => .table (workflow.table?.getD [])

/-- Whether a step counts as exposing an output: it names it, or its subcommand is `output`, whatever it
names. -/
def TerraformStep.exposes (s : TerraformStep) (name : String) : Bool :=
  s.outputs.contains name || s.command == "output"

/-- How a step is called inside its job: by its id, or else by its place. -/
def TerraformStep.label (s : TerraformStep) : String :=
  match s.stepId with
  | some id => if id.isEmpty then Nat.repr s.stepIndex else id
  | none => Nat.repr s.stepIndex

/-- The origin in a step that exposes the output. -/
def Origin.inStep (job name : String) (step : TerraformStep) : Origin :=
  { kind := .terraformOutput, source := job ++ "." ++ step.label, confidence := 85,
    transformations := [⟨"expression", "needs." ++ job ++ ".outputs." ++ name⟩] }

/-- The Terraform steps of the jobs a reference may mean, job by job. -/
def producerJobs (owner : Option Scalar) (s : TraceSetting) : List (String × List TerraformStep) :=
  let jobs := workflowJobs s.workflow
  (s.dependentJobs.filter fun job => match owner with
      | some o => o.same (.text job)
      | none => true).map fun job => (job, terraformSteps (jobs.field job) job)

/-- The origin of an output of another job: the first step that exposes it, or else the first job that
runs Terraform, or else the outputs that are known. -/
def traceNeeds (name : String) (owner : Option Scalar) (s : TraceSetting) : Origin :=
  let producers := producerJobs owner s
  let exact := producers.findSome? fun (job, steps) =>
    (steps.find? (·.exposes name)).map (Origin.inStep job name)
  match exact with
  | some origin => origin
  | none =>
    match producers.find? fun (_, steps) => !steps.isEmpty with
    | some (job, _) => { kind := .terraformOutput, source := job, confidence := 60 }
    | none =>
      if s.availableOutputs.contains name then
        { kind := .jobOutput, source := name, confidence := 75 }
      else .unknown name

/-! ## Environment variables -/

/-- The origin of a variable with a value, the confidence depending on where the value was set and on
whether it looks like an output. -/
def Origin.inEnv (name value : String) (produced plain : Number) : Origin :=
  let transformations : List Transformation := [⟨"env_expansion", "$" ++ name⟩]
  if Shell.Terraform.looksProduced value then
    { kind := .terraformOutput, source := value, confidence := produced, transformations }
  else { kind := .envVariable, source := value, confidence := plain, transformations }

/-- The origin of an environment variable: the job's own before those in scope. -/
def traceEnv (name : String) (s : TraceSetting) : Origin :=
  match (envEntries (s.job.field "env")).get? name with
  | some value => .inEnv name value 80 40
  | none =>
    match s.envInScope.get? name with
    | some value => .inEnv name value 70 35
    | none => .unknown name

/-! ## Outputs of steps -/

/-- How a step is called by references: by its id, or else by its name. -/
def stepKey (step : Table) : Tree := (step.field "id").orElse (step.field "name")

/-- Whether a reference may mean a step: with an owner the step of that name, without one a step that
names the output. -/
def stepMeant (name : String) (owner : Option Scalar) (step : Table) : Bool :=
  match owner with
  | some o =>
    match stepKey step with
    | .leaf key => key.same o
    | _ => false
  | none => (Shell.Terraform.outputNames (runText step).toList).contains name

/-- The origin in a step at a place. -/
def Origin.inOwnStep (name : String) (index : Nat) (step : Table) : Origin :=
  let key := (stepKey step).orElse (.text ("step-" ++ Nat.repr index))
  { kind := if mentionsTerraform (.table step) then .terraformOutput else .stepOutput,
    source := key.written ++ "." ++ name, confidence := 90,
    transformations := [⟨"expression", "steps." ++ key.written ++ ".outputs." ++ name⟩] }

/-- The origin of an output of a step of the same job: the first step that is meant. -/
def traceSteps (name : String) (owner : Option Scalar) (s : TraceSetting) : Origin :=
  let meant := s.steps.zipIdx.findSome? fun (step, index) => match step with
    | .table step => if stepMeant name owner step then some (Origin.inOwnStep name index step) else none
    | _ => none
  meant.getD (.unknown name)

/-! ## Names that look like an output -/

open Pattern in
/-- Shapes of names that hint at a Terraform output, with their spelling in reports. -/
def namingConventions : List (String × Pattern) :=
  [("^tf_", both textStart (word "tf_")), ("_output$", both (word "_output") textEnd),
    ("^terraform_", both textStart (word "terraform_")), ("cluster_endpoint", word "cluster_endpoint"),
    ("vpc_id", word "vpc_id"), ("subnet_ids", word "subnet_ids"),
    ("security_group", word "security_group"), ("arn$", both (word "arn") textEnd),
    ("rds_", word "rds_"), ("eks_", word "eks_")]

/-- The origin that a name alone suggests. -/
def traceByConvention (name : String) : Origin :=
  let small := (lower name).toList
  match namingConventions.find? fun (_, shape) => shape.occursIn small with
  | some (spelling, _) =>
    { kind := .terraformOutput, source := name, confidence := 45,
      transformations := [⟨"expression", "naming convention " ++ spelling⟩] }
  | none => .unknown name

/-- The most likely origin of a variable. -/
def traceVariable (name : String) (scope : VariableScope) (s : TraceSetting) (owner : Option Scalar) :
    Origin :=
  match scope with
  | .needs => traceNeeds name owner s
  | .env => traceEnv name s
  | .steps => traceSteps name owner s
  | .other => traceByConvention name

end DeployTrace
