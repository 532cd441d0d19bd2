/-
  DeployTrace/Pipeline/Trigger.lean --- what starts a pipeline.

  Two platforms say it differently.  One lists events, maybe with filters; the other has rules with
  conditions, and a pipeline without any counts as started by a push.
-/
import DeployTrace.Detection.Context

set_option autoImplicit false

namespace DeployTrace

open Text

/-! ## Kinds -/

/-- The platform a pipeline is written for. -/
inductive Platform where
  | github
  | gitlab
  deriving DecidableEq, Repr, Inhabited

/-- The spelling of a platform. -/
def Platform.name : Platform → String
  | github => "github_actions"
  | gitlab => "gitlab_ci"

/-- What starts a pipeline. -/
inductive TriggerKind where
  | push
  | pullRequest
  | schedule
  | dispatch
  | api
  | manual
  deriving DecidableEq, Repr, Inhabited

/-- The spelling of a kind of trigger. -/
def TriggerKind.name : TriggerKind → String
  | push => "push"
  | pullRequest => "pull_request"
  | schedule => "schedule"
  | dispatch => "workflow_dispatch"
  | api => "api"
  | manual => "manual"

/-- The kind of an event; an event that is not known counts as started by hand. -/
def TriggerKind.ofEvent (event : String) : TriggerKind :=
  if event == "push" then push
  else if event == "pull_request" || event == "pull_request_target" then pullRequest
  else if event == "schedule" then schedule
  else if event == "workflow_dispatch" then dispatch
  else if event == "repository_dispatch" then api
  else manual

/-! ## Triggers -/

/-- A trigger with its filters. -/
structure Trigger where
  kind : TriggerKind
  branches : List String := []
  paths : List String := []
  tags : List String := []
  /-- the first time of a schedule, whatever the workflow holds there -/
  schedule : Tree := .null
  deriving Repr

/-- The texts of a setting that may be one text or a list. -/
def settingTexts : Tree → List String
  | .text s => [s]
  | .list items => items.filterMap Tree.text?
  | _ => []

/-- The first time of an event that is a schedule. -/
def firstTime (key : Scalar) (setting : Tree) : Tree :=
  match key, setting with
  | .text "schedule", .list (first :: _) => first.field "cron"
  | _, _ => .null

/-- The trigger that an event with a setting is. -/
def Trigger.ofEvent (key : Scalar) (setting : Tree) : Trigger :=
  { kind := .ofEvent key.written, branches := settingTexts (setting.field "branches"),
    paths := settingTexts (setting.field "paths"), tags := settingTexts (setting.field "tags"),
    schedule := firstTime key setting }

/-- The triggers that a list of events gives. -/
def eventTriggers (workflow : Table) : List Trigger :=
  match triggerSetting workflow with
  | .table events => events.map fun (key, setting) => Trigger.ofEvent key setting
  | setting => (settingTexts setting).map fun event => { kind := .ofEvent event }

/-- The conditions of a workflow's rules, in written form. -/
def ruleConditions (workflow : Table) : List String :=
  match (workflow.field "workflow").field "rules" with
  | .list rules => rules.filterMap fun rule => match rule with
    | .table rule => some (((Table.field? rule "if").getD (.text "")).written)
    | _ => none
  | _ => []

/-- Parts of a condition and the kind of trigger that they tell. -/
def conditionMarks : List (String × TriggerKind) :=
  [("$CI_PIPELINE_SOURCE == \"push\"", .push), ("merge_request", .pullRequest), ("schedule", .schedule)]

/-- The triggers that rules give. -/
def ruleTriggers (workflow : Table) : List Trigger :=
  let conditions := ruleConditions workflow
  match conditionMarks.filter fun (mark, _) => conditions.any fun c => contains c mark with
  | [] => [{ kind := .push }]
  | told => told.map fun (_, kind) => { kind := kind }

/-- The triggers of a workflow. -/
def triggers (platform : Platform) (workflow : Table) : List Trigger :=
  match platform with
  | .github => eventTriggers workflow
  | .gitlab => ruleTriggers workflow

end DeployTrace
