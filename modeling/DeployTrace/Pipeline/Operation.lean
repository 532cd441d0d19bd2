/-
  DeployTrace/Pipeline/Operation.lean --- what the steps of a job do.

  WHAT THIS FILE IS FOR.  Every step that does something is one operation.  Its kind is the tool that its
  text calls first, so a Helm command that takes a value from Terraform is a Helm operation.  A step
  without a known call counts by the action it uses, and otherwise as a plain script.

  WHAT TEXT IS LOOKED AT.  Calls are looked for in the text as it is written, continuation lines
  included; outputs and the working directory are read from the joined text.
-/
import DeployTrace.Step.Job

set_option autoImplicit false

namespace DeployTrace

open Text Pattern

/-! ## Kinds -/

/-- The kind of an operation. -/
inductive OperationKind where
  | terraform
  | helm
  | kubectl
  | docker
  | script
  | other
  deriving DecidableEq, Repr, Inhabited

namespace OperationKind

/-- All kinds. -/
def all : List OperationKind := [terraform, helm, kubectl, docker, script, other]

/-- The spelling of a kind. -/
def name : OperationKind → String
  | terraform => "terraform"
  | helm => "helm"
  | kubectl => "kubectl"
  | docker => "docker"
  | script => "script"
  | other => "other"

/-- The kind with a spelling. -/
def ofName? (s : String) : Option OperationKind := all.find? fun k => k.name == s

/-- Whether operations of a kind act on infrastructure. -/
def isInfrastructure : OperationKind → Bool
  | terraform => true
  | helm => true
  | kubectl => true
  | _ => false

end OperationKind

/-! ## Tools -/

/-- A call of a program with one of some subcommands, which is part 1; case does not matter. -/
def callOf (program : String) (between : Pattern) (subcommands : List String) : Pattern :=
  seq [wordIgnoringCase program, blanks1, between, mark 1 (oneOf (subcommands.map wordIgnoringCase))]

/-- An option that names the directory to work in, or nothing. -/
def directoryOption : Pattern := optional (seq [wordIgnoringCase "-chdir=", solid1 [], blanks1])

/-- A tool: how it is called, and the actions that stand for it. -/
structure Tool where
  kind : OperationKind
  calls : List Pattern
  actions : List String := []

/-- The subcommands of Terraform and of the programs that are called alike. -/
def terraformSubcommands : List String :=
  ["init", "plan", "apply", "destroy", "output", "validate", "fmt", "import", "state", "workspace",
    "refresh"]

/-- The tools, in the order in which they are looked for. -/
def tools : List Tool :=
  [{ kind := .terraform,
     calls := [callOf "terraform" directoryOption terraformSubcommands,
       callOf "tofu" directoryOption terraformSubcommands,
       callOf "terragrunt" nothing
         ["init", "plan", "apply", "destroy", "output", "validate", "run-all"]],
     actions := ["hashicorp/setup-terraform", "hashicorp/terraform-github-actions", "dflook/terraform-",
       "gruntwork-io/terragrunt-action"] },
   { kind := .helm,
     calls := [callOf "helm" nothing
         ["install", "upgrade", "uninstall", "rollback", "template", "lint", "package", "push", "pull",
           "repo", "dependency"],
       callOf "helmfile" nothing ["sync", "apply", "diff", "template", "destroy", "repos"]],
     actions := ["azure/setup-helm", "azure/k8s-deploy", "deliverybot/helm",
       "helm/chart-releaser-action"] },
   { kind := .kubectl,
     calls := [callOf "kubectl" nothing
       ["apply", "delete", "create", "get", "describe", "logs", "exec", "rollout", "scale", "patch"]] },
   { kind := .docker,
     calls := [callOf "docker" nothing ["build", "push", "pull", "run", "compose", "login", "tag"],
       callOf "docker-compose" nothing ["up", "down", "build", "push", "pull"],
       callOf "buildah" nothing ["build", "bud", "push", "pull"]] }]

/-- The calls in a text: for every form of call the first one, with its place and kind. -/
def firstCalls (run : Chars) : List (Nat × OperationKind) :=
  tools.flatMap fun tool => tool.calls.filterMap fun call =>
    (call.search run).map fun found => (found.skipped, tool.kind)

/-- The first of some calls by place, and of those at one place the first in the list. -/
def earliest? : List (Nat × OperationKind) → Option OperationKind
  | [] => none
  | first :: rest => some (rest.foldl (fun best call => if call.1 < best.1 then call else best) first).2

/-- What a step does; nothing for a step without a text and without an action. -/
def operationKind? (step : Table) : Option OperationKind :=
  match earliest? (firstCalls (rawRunText step).toList) with
  | some kind => some kind
  | none =>
    match tools.find? fun tool => tool.actions.any (contains (usesText step)) with
    | some tool => some tool.kind
    | none =>
      if !(strip (rawRunText step)).isEmpty then some .script
      else if !(usesText step).isEmpty then some .other
      else none

/-- The subcommand of a step of a kind: of the tool's forms of call the first that occurs, in small
letters.  A step that calls no tool is known by its action. -/
def operationCommand (step : Table) (kind : OperationKind) : String :=
  match tools.find? fun tool => tool.kind == kind with
  | some tool =>
    match tool.calls.findSome? fun call => call.search (rawRunText step).toList with
    | some found => lower (String.ofList (found.part 1))
    | none => "unknown"
  | none => (step.text? "uses").getD "script"

/-! ## Operations -/

/-- What one step of a job does. -/
structure Operation where
  kind : OperationKind
  /-- the subcommand -/
  command : String
  stepIndex : Nat
  text : String := ""
  workingDir : Option String := none
  /-- the Terraform outputs it names -/
  outputs : List String := []
  deriving DecidableEq, Repr

/-- The operation of a step. -/
def operation? (job : Tree) (index : Nat) (step : Table) : Option Operation :=
  (operationKind? step).map fun kind =>
    let run := runText step
    { kind := kind, command := operationCommand step kind, stepIndex := index,
      text := if run.isEmpty then usesText step else run,
      workingDir := workingDir? step job run,
      outputs := if kind == .terraform then Shell.Terraform.outputNames run.toList else [] }

/-- The operations of a job, in the order of its steps. -/
def operations (job : Tree) : List Operation :=
  (jobSteps job).zipIdx.filterMap fun (step, index) => operation? job index step

/-- The operations of one kind. -/
def operationsOf (kind : OperationKind) (operations : List Operation) : List Operation :=
  operations.filter (·.kind == kind)

/-- An operation as data. -/
def Operation.toTree (o : Operation) : Tree :=
  .ofFields [("type", .text o.kind.name), ("command", .text o.command), ("stepIndex", .int o.stepIndex),
    ("text", .text o.text), ("workingDir", .ofText? o.workingDir), ("outputs", .ofTexts o.outputs)]

end DeployTrace
