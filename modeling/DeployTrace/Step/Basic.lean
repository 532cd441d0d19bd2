/-
  DeployTrace/Step/Basic.lean --- Terraform steps and Helm steps of a job.

  A step that invokes one of the two tools is read once; the detectors work on what was read.
-/
import DeployTrace.Step.Job
import DeployTrace.Flow.Basic

set_option autoImplicit false

namespace DeployTrace

open Text

/-- A step that runs Terraform. -/
structure TerraformStep where
  jobId : String
  stepIndex : Nat
  /-- the subcommand -/
  command : String
  run : String
  stepId : Option String := none
  stepName : Option String := none
  /-- the outputs it names -/
  outputs : List String := []
  workingDir : Option String := none
  env : Entries String := []
  deriving DecidableEq, Repr

/-- A step that runs Helm. -/
structure HelmStep where
  jobId : String
  stepIndex : Nat
  /-- the subcommand -/
  command : String
  run : String
  stepId : Option String := none
  stepName : Option String := none
  setValues : Entries String := []
  setStringKeys : List String := []
  setFileKeys : List String := []
  valuesFiles : List String := []
  releaseName : Option String := none
  chart : Option String := none
  kubeNamespace : Option String := none
  workingDir : Option String := none
  env : Entries String := []
  deriving DecidableEq, Repr

/-- The way in which a Helm step takes the value under a key. -/
def HelmStep.channelFor (h : HelmStep) (key : String) : ValueChannel :=
  if h.setStringKeys.contains key then .setString
  else if h.setFileKeys.contains key then .setFile
  else .setFlag

/-- A Terraform step read from a step of a job.  A step is none when it does not call Terraform, and
when it neither names an output nor calls one of the known subcommands. -/
def terraformStep? (job : Tree) (jobId : String) (index : Nat) (step : Table) : Option TerraformStep :=
  let text := runText step
  if !Shell.Terraform.invocation.occursIn text.toList then none
  else
    let command := Shell.Terraform.command text.toList
    let outputs := if contains text "output" then Shell.Terraform.outputNames text.toList else []
    if outputs.isEmpty && command == "other" then none
    else some {
      jobId := jobId, stepIndex := index, command := command, run := text,
      stepId := step.text? "id", stepName := step.text? "name", outputs := outputs,
      workingDir := workingDir? step job text, env := envEntries (step.field "env") }

/-- A Helm step read from a step of a job. -/
def helmStep? (job : Tree) (jobId : String) (index : Nat) (step : Table) : Option HelmStep :=
  let text := runText step
  if !Shell.Helm.invocation.occursIn text.toList then none
  else
    let command := Shell.Helm.command text.toList
    let set := Shell.Helm.setValues text.toList
    let named := Shell.Helm.releaseAndChart text.toList command
    some {
      jobId := jobId, stepIndex := index, command := command, run := text,
      stepId := step.text? "id", stepName := step.text? "name",
      setValues := set.values, setStringKeys := set.stringKeys, setFileKeys := set.fileKeys,
      valuesFiles := Shell.Helm.valuesFiles text.toList,
      releaseName := named.1, chart := named.2,
      kubeNamespace := Shell.Helm.namespace? text.toList,
      workingDir := workingDir? step job text, env := envEntries (step.field "env") }

/-- What is read from the steps of a job, each with its index. -/
def readSteps {α : Type} (read : Nat → Table → Option α) (job : Tree) : List α :=
  ((jobSteps job).zipIdx).filterMap fun (step, index) => read index step

/-- The Terraform steps of a job. -/
def terraformSteps (job : Tree) (jobId : String) : List TerraformStep :=
  readSteps (terraformStep? job jobId) job

/-- The Helm steps of a job. -/
def helmSteps (job : Tree) (jobId : String) : List HelmStep :=
  readSteps (helmStep? job jobId) job

end DeployTrace
