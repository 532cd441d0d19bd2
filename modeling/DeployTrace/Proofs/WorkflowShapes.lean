/-
  DeployTrace/Proofs/WorkflowShapes.lean --- the two shapes of a workflow are read alike.

  WHAT THIS FILE IS FOR.  One shape of workflow has its jobs at the top level, and a job there has a
  script; the other has a table of jobs, and a job there has a list of steps.  A list of jobs that are
  scripts with dependencies and an environment can be written in both shapes.  It is shown here that
  detection gives the same flows for both, in the same order, whatever the scripts are and whatever data
  stands for dependencies and environment.

  NAMES.  At the top level some names are not those of jobs.  Besides these, a job must not be called
  like a setting of a workflow that detection asks for, since it would be taken for that setting.
-/
import DeployTrace.Proofs.JobReadings
import DeployTrace.Proofs.Memory
import Mathlib.Data.List.Basic

set_option autoImplicit false

namespace DeployTrace

open Text

/-! ## Jobs in two shapes -/

/-- A job that is a script, with the settings that both shapes write alike. -/
structure ScriptJob where
  name : String
  script : List String
  needs : Option Tree := none
  env : Option Tree := none

/-- The settings of workflows that detection asks for. -/
def workflowSettings : List String := ["jobs", "name", "on"]

/-- Whether a job may have a name in both shapes. -/
def isJobName (name : String) : Bool :=
  !reservedKeys.contains name && !workflowSettings.contains name && !startsWith name "."

namespace ScriptJob

/-- The settings that both shapes write alike. -/
def settings (j : ScriptJob) : Table :=
  j.needs.toList.map (fun needs => (.text "needs", needs)) ++
    j.env.toList.map fun env => (.text "env", env)

/-- The job with its script as it is. -/
def scripted (j : ScriptJob) : Table := (.text "script", .list (j.script.map .text)) :: j.settings

/-- The steps of the job: one for every line of the script, numbered from zero. -/
def steps (j : ScriptJob) : List Table :=
  j.script.zipIdx.map fun (line, index) =>
    [(.text "run", .text line), (.text "id", .text ("step-" ++ Nat.repr index))]

/-- The job with a list of steps. -/
def stepped (j : ScriptJob) : Table := (.text "steps", .list (j.steps.map .table)) :: j.settings

end ScriptJob

/-- A workflow with the jobs at the top level. -/
def topLevelWorkflow (jobs : List ScriptJob) : Table := jobs.map fun j => (.text j.name, .table j.scripted)

/-- A workflow with a table of the jobs. -/
def listedWorkflow (jobs : List ScriptJob) : Table :=
  [(.text "jobs", .table (jobs.map fun j => (.text j.name, .table j.stepped)))]

/-! ## Jobs are read alike -/

theorem Table.field_cons_of_ne {key name : String} (hne : key ≠ name) (value : Tree) (rest : Table) :
    Table.field ((.text key, value) :: rest) name = Table.field rest name := by
  have hother : (key == name) = false := beq_false_of_ne hne
  unfold Table.field Table.field? Table.get?
  rw [List.find?_cons, Scalar.same_text, hother]

theorem Table.field_cons_self (name : String) (value : Tree) (rest : Table) :
    Table.field ((.text name, value) :: rest) name = value := by
  unfold Table.field Table.field? Table.get?
  rw [List.find?_cons, Scalar.same_text, beq_self_eq_true]
  rfl

namespace ScriptJob

variable (j : ScriptJob)

/-- A setting that both shapes write alike is none of those by which they differ. -/
theorem field_settings {name : String} (needs : "needs" ≠ name) (env : "env" ≠ name) :
    Table.field j.settings name = .null := by
  unfold settings
  cases j.needs with
  | none =>
      cases j.env with
      | none => rfl
      | some value => exact Table.field_cons_of_ne env value []
  | some value =>
      refine (Table.field_cons_of_ne needs value _).trans ?_
      cases j.env with
      | none => rfl
      | some value => exact Table.field_cons_of_ne env value []

/-- Texts of a script are its steps. -/
theorem scriptSteps_texts (index : Nat) (lines : List String) :
    scriptSteps index (lines.map .text) = (lines.zipIdx index).map fun (line, index) =>
      [(.text "run", .text line), (.text "id", .text ("step-" ++ Nat.repr index))] := by
  induction lines generalizing index with
  | nil => rfl
  | cons line rest ih =>
      rw [List.map_cons, List.zipIdx_cons, List.map_cons, ← ih]
      rfl

theorem jobSteps_scripted : jobSteps (.table j.scripted) = j.steps := by
  have hsteps : Tree.field (.table j.scripted) "steps" = .null :=
    (Table.field_cons_of_ne (by decide) _ _).trans (j.field_settings (by decide) (by decide))
  have hscript : Tree.field (.table j.scripted) "script" = .list (j.script.map .text) :=
    Table.field_cons_self _ _ _
  unfold jobSteps
  rw [hsteps, hscript]
  exact scriptSteps_texts 0 j.script

theorem jobSteps_stepped : jobSteps (.table j.stepped) = j.steps := by
  have hsteps : Tree.field (.table j.stepped) "steps" = .list (j.steps.map .table) :=
    Table.field_cons_self _ _ _
  unfold jobSteps
  rw [hsteps]
  show (j.steps.map Tree.table).filterMap Tree.table? = j.steps
  rw [List.filterMap_map]
  exact List.filterMap_some

/-- A job is read alike in both shapes. -/
theorem reading_eq : JobReading.of j.scripted = JobReading.of j.stepped := by
  have hbeside : ∀ name : String, "script" ≠ name → "steps" ≠ name →
      Table.field j.scripted name = Table.field j.stepped name := by
    intro name hscript hsteps
    exact (Table.field_cons_of_ne hscript _ _).trans (Table.field_cons_of_ne hsteps _ _).symm
  unfold JobReading.of
  rw [jobSteps_scripted, jobSteps_stepped, hbeside "env" (by decide) (by decide),
    hbeside "defaults" (by decide) (by decide), hbeside "needs" (by decide) (by decide),
    hbeside "dependencies" (by decide) (by decide)]

end ScriptJob

/-! ## Workflows are read alike -/

section

variable {jobs : List ScriptJob}

/-- What is under a key at the top level is a job of that name. -/
theorem get?_topLevelWorkflow {key : Scalar} (h : ∀ j ∈ jobs, (Scalar.text j.name).same key = false) :
    (topLevelWorkflow jobs).get? key = none := by
  unfold topLevelWorkflow Table.get?
  rw [Option.map_eq_none_iff, List.find?_eq_none]
  intro entry hentry
  obtain ⟨j, hj, rfl⟩ := List.mem_map.mp hentry
  rw [h j hj]
  exact Bool.false_ne_true

theorem field?_topLevelWorkflow (names : ∀ j ∈ jobs, isJobName j.name = true) {setting : String}
    (hsetting : setting ∈ workflowSettings) : (topLevelWorkflow jobs).field? setting = none := by
  refine get?_topLevelWorkflow fun j hj => ?_
  have hname := names j hj
  rw [Scalar.same_text]
  refine beq_false_of_ne ?_
  rintro hsame
  simp [isJobName, hsame, hsetting] at hname

/-- A job with a script is a job at the top level. -/
theorem topLevelJob?_of_isJobName {j : ScriptJob} (hname : isJobName j.name = true) :
    topLevelJob? (.text j.name, .table j.scripted) = some (j.name, j.scripted) := by
  simp only [isJobName, Bool.and_eq_true, Bool.not_eq_true'] at hname
  obtain ⟨⟨hreserved, -⟩, hstart⟩ := hname
  have hscript : Table.has j.scripted "script" = true := by
    unfold Table.has Table.field? Table.get? ScriptJob.scripted
    rw [List.find?_cons, Scalar.same_text, beq_self_eq_true]
    rfl
  have hmarked : jobMarkers.any (Table.has j.scripted) = true :=
    List.any_eq_true.mpr ⟨"script", by decide, hscript⟩
  have hallowed : (reservedKeys.contains j.name || startsWith j.name ".") = false := by
    rw [hreserved, hstart]
    rfl
  show (if (reservedKeys.contains j.name || startsWith j.name ".") = true then none
    else if jobMarkers.any (Table.has j.scripted) = true then some (j.name, j.scripted) else none) = _
  rw [hallowed, hmarked]
  rfl

theorem extractJobs_topLevelWorkflow (names : ∀ j ∈ jobs, isJobName j.name = true) :
    extractJobs (topLevelWorkflow jobs) = .ofList (jobs.map fun j => (j.name, j.scripted)) := by
  have hjobs : (topLevelWorkflow jobs).field? "jobs" = none := field?_topLevelWorkflow names (by decide)
  unfold extractJobs
  rw [hjobs]
  unfold topLevelWorkflow
  show Entries.ofList ((jobs.map _).filterMap topLevelJob?) = _
  rw [List.filterMap_map]
  refine congrArg Entries.ofList ?_
  exact List.filterMap_eq_map_iff_forall_eq_some.mpr fun j hj => topLevelJob?_of_isJobName (names j hj)

theorem extractJobs_listedWorkflow (jobs : List ScriptJob) :
    extractJobs (listedWorkflow jobs) = .ofList (jobs.map fun j => (j.name, j.stepped)) := by
  have hjobs : (listedWorkflow jobs).field? "jobs" =
      some (.table (jobs.map fun j => (.text j.name, .table j.stepped))) := rfl
  unfold extractJobs
  rw [hjobs]
  show Entries.ofList ((jobs.map _).filterMap listedJob?) = _
  rw [List.filterMap_map]
  refine congrArg Entries.ofList ?_
  exact List.filterMap_eq_map_iff_forall_eq_some.mpr fun j _ => rfl

/-- The same is read of the jobs in both shapes. -/
theorem jobReadings_shapes (names : ∀ j ∈ jobs, isJobName j.name = true) :
    jobReadings (extractJobs (topLevelWorkflow jobs)) =
      jobReadings (extractJobs (listedWorkflow jobs)) := by
  have hpairs : (jobs.map fun j => (j.name, j.scripted)).map (fun pair => (pair.1, JobReading.of pair.2)) =
      (jobs.map fun j => (j.name, j.stepped)).map fun pair => (pair.1, JobReading.of pair.2) := by
    rw [List.map_map, List.map_map]
    refine List.map_congr_left fun j _ => ?_
    exact congrArg (Prod.mk j.name) j.reading_eq
  rw [extractJobs_topLevelWorkflow names, extractJobs_listedWorkflow]
  unfold jobReadings
  rw [Entries.map_ofList, Entries.map_ofList, hpairs]

/-- Neither shape gives the workflow a name. -/
theorem workflowName_shapes (names : ∀ j ∈ jobs, isJobName j.name = true) :
    workflowName (topLevelWorkflow jobs) = workflowName (listedWorkflow jobs) := by
  have hname : (topLevelWorkflow jobs).field? "name" = none := field?_topLevelWorkflow names (by decide)
  have htop : (topLevelWorkflow jobs).text? "name" = none := by
    unfold Table.text?
    rw [hname]
    rfl
  unfold workflowName
  rw [htop]
  rfl

/-- Neither shape has triggers. -/
theorem triggerType_shapes (names : ∀ j ∈ jobs, isJobName j.name = true) :
    triggerType (topLevelWorkflow jobs) = triggerType (listedWorkflow jobs) := by
  have hon : (topLevelWorkflow jobs).field? "on" = none := field?_topLevelWorkflow names (by decide)
  have htrue : (topLevelWorkflow jobs).get? (.bool true) = none :=
    get?_topLevelWorkflow fun _ _ => rfl
  unfold triggerType triggerSetting
  rw [hon, htrue]
  rfl

end

/-- Jobs that are scripts have the same flows in both shapes, in the same order. -/
theorem detectFlows_shapes {jobs : List ScriptJob} (names : ∀ j ∈ jobs, isJobName j.name = true)
    (digest : Digest) (options : DetectorOptions) (file : String) :
    ∃ flows, detectFlows digest options (.table (topLevelWorkflow jobs)) file = .ok flows ∧
      detectFlows digest options (.table (listedWorkflow jobs)) file = .ok flows := by
  have heq := detectFlows_congr (workflowName_shapes names) (triggerType_shapes names)
    (jobReadings_shapes names) digest options file
  exact ⟨_, heq.trans (detectFlows_table _), detectFlows_table _⟩

/-- A job that binds a variable to an output, with an environment of its own. -/
def infraJob : ScriptJob where
  name := "infra"
  script := ["terraform apply", "V=$(terraform output x)"]
  env := some (.table [(.text "TAG", .text "$(terraform output tag)")])

/-- A job that needs the other one and hands the variable to Helm. -/
def rolloutJob : ScriptJob where
  name := "rollout"
  script := ["helm upgrade web ./web --set k=$V"]
  needs := some (.list [.text "infra"])

/-- A variable that goes from one job to the next is found in both shapes. -/
theorem detectFlows_shapes_relay :
    (∀ j ∈ [infraJob, rolloutJob], isJobName j.name = true) ∧
      (∃ flows,
        detectFlows plainDigest {} (.table (topLevelWorkflow [infraJob, rolloutJob])) "ci.yml" = .ok flows ∧
        detectFlows plainDigest {} (.table (listedWorkflow [infraJob, rolloutJob])) "ci.yml" = .ok flows) ∧
      answerSources (detectFlows plainDigest {} (.table (topLevelWorkflow [infraJob, rolloutJob])) "ci.yml")
        = [("infra", "x")] := by
  have names : ∀ j ∈ [infraJob, rolloutJob], isJobName j.name = true := by decide
  exact ⟨names, detectFlows_shapes names plainDigest {} "ci.yml", by decide +kernel⟩

end DeployTrace
