/-
  DeployTrace/Proofs/Origins.lean --- where the output of another job comes from.

  WHAT THIS FILE IS FOR.  An output of another job is looked for in the Terraform steps of the jobs that
  a reference may mean.  The search goes through jobs and, in each, through steps, but it is one search
  in one list, that of all those steps in order (`traceNeeds_eq`).  Two kinds of facts follow.

  WHAT IS FOUND.  The kind of origin and the confidence depend only on whether such a step stands in the
  list, not on where (`standing_traceNeeds`); so the order of the dependencies does not matter.

  WHERE IT IS FOUND.  The place that is reported does depend on the order.  A step that names the output
  and a step that merely runs `terraform output`, for whatever output, end the search alike, so that of

      terraform output -raw subnet_ids          terraform output -raw vpc_id

  the first step is reported as the origin of `vpc_id`.
-/
import DeployTrace.Step.Trace
import DeployTrace.Proofs.Contexts

set_option autoImplicit false

namespace DeployTrace

/-! ## The steps that a reference may mean -/

/-- A job that a reference may mean: one that is depended on and, where an owner is given, the owner. -/
def TraceSetting.Means (s : TraceSetting) (owner : Option Scalar) (job : String) : Prop :=
  job ∈ s.dependentJobs ∧ ∀ o ∈ owner, o = .text job

/-- The Terraform steps of a job of the workflow. -/
def TraceSetting.stepsIn (s : TraceSetting) (job : String) : List TerraformStep :=
  terraformSteps ((workflowJobs s.workflow).field job) job

/-- The Terraform steps of the jobs that a reference may mean, in the order in which they are searched. -/
def TraceSetting.stepsMeant (s : TraceSetting) (owner : Option Scalar) : List TerraformStep :=
  (producerJobs owner s).flatMap Prod.snd

/-- What is said of an origin apart from the place: its kind, and how sure it is. -/
def Origin.standing (o : Origin) : OriginKind × Number := (o.kind, o.confidence)

variable {s : TraceSetting} {owner : Option Scalar} {name job : String} {step : TerraformStep}

theorem mem_producerJobs {producer : String × List TerraformStep} :
    producer ∈ producerJobs owner s ↔ s.Means owner producer.1 ∧ producer.2 = s.stepsIn producer.1 := by
  obtain ⟨job, steps⟩ := producer
  unfold producerJobs TraceSetting.Means
  rw [List.mem_map]
  constructor
  · rintro ⟨_, hmem, ⟨⟩⟩
    obtain ⟨hjob, howner⟩ := List.mem_filter.mp hmem
    refine ⟨⟨hjob, ?_⟩, rfl⟩
    rintro o ⟨⟩
    exact Scalar.eq_text_of_same howner
  · rintro ⟨⟨hjob, howner⟩, hsteps⟩
    refine ⟨job, List.mem_filter.mpr ⟨hjob, ?_⟩, Prod.ext rfl hsteps.symm⟩
    cases owner with
    | none => rfl
    | some o =>
        cases howner o rfl
        exact beq_self_eq_true job

theorem jobId_of_mem_stepsIn (hstep : step ∈ s.stepsIn job) : step.jobId = job := by
  obtain ⟨_, _, -, hread⟩ := mem_readSteps.mp hstep
  exact (terraformStep?_eq_some hread).1

theorem mem_stepsMeant : step ∈ s.stepsMeant owner ↔ ∃ job, s.Means owner job ∧ step ∈ s.stepsIn job := by
  unfold TraceSetting.stepsMeant
  rw [List.mem_flatMap]
  constructor
  · rintro ⟨producer, hproducer, hstep⟩
    obtain ⟨hmeans, hsteps⟩ := mem_producerJobs.mp hproducer
    exact ⟨producer.1, hmeans, hsteps ▸ hstep⟩
  · rintro ⟨job, hmeans, hstep⟩
    exact ⟨(job, s.stepsIn job), mem_producerJobs.mpr ⟨hmeans, rfl⟩, hstep⟩

/-- Each step knows the job that it is listed with. -/
theorem jobId_of_mem_producerJobs {producer : String × List TerraformStep}
    (hproducer : producer ∈ producerJobs owner s) : ∀ step ∈ producer.2, step.jobId = producer.1 := by
  intro step hstep
  rw [(mem_producerJobs.mp hproducer).2] at hstep
  exact jobId_of_mem_stepsIn hstep

theorem exposes_iff : step.exposes name = true ↔ name ∈ step.outputs ∨ step.command = "output" := by
  simp [TerraformStep.exposes]

/-! ## One search -/

section

variable {producers : List (String × List TerraformStep)}
  (listed : ∀ p ∈ producers, ∀ step ∈ p.2, step.jobId = p.1)

include listed in
/-- To search job by job for a step is to search the steps of all jobs. -/
theorem findSome?_producers : (producers.findSome? fun (job, steps) =>
      (steps.find? (·.exposes name)).map (Origin.inStep job name)) =
    ((producers.flatMap Prod.snd).find? (·.exposes name)).map fun step =>
      .inStep step.jobId name step := by
  induction producers with
  | nil => rfl
  | cons p rest ih =>
      obtain ⟨hfirst, hrest⟩ := List.forall_mem_cons.mp listed
      rw [List.findSome?_cons, List.flatMap_cons, List.find?_append]
      cases hfind : p.2.find? (·.exposes name) with
      | none => simpa [hfind] using ih hrest
      | some step => simp [hfind, hfirst step (List.mem_of_find?_eq_some hfind)]

include listed in
/-- The first job that has a step is the job of the first step. -/
theorem find?_producers : (producers.find? fun (_, steps) => !steps.isEmpty).map Prod.fst =
    (producers.flatMap Prod.snd).head?.map TerraformStep.jobId := by
  induction producers with
  | nil => rfl
  | cons p rest ih =>
      obtain ⟨hfirst, hrest⟩ := List.forall_mem_cons.mp listed
      obtain ⟨job, steps⟩ := p
      cases steps with
      | nil => simpa using ih hrest
      | cons step steps => simpa using (hfirst step List.mem_cons_self).symm

end

/-- The origin is in the first step that counts as exposing the output; without such a step, in the job
of the first step at all; and without any step, what is known of the output decides. -/
theorem traceNeeds_eq : traceNeeds name owner s =
    match (s.stepsMeant owner).find? (·.exposes name), (s.stepsMeant owner).head? with
    | some step, _ => .inStep step.jobId name step
    | none, some step => { kind := .terraformOutput, source := step.jobId, confidence := 60 }
    | none, none =>
      if s.availableOutputs.contains name then { kind := .jobOutput, source := name, confidence := 75 }
      else .unknown name := by
  have hlisted : ∀ p ∈ producerJobs owner s, ∀ step ∈ p.2, step.jobId = p.1 :=
    fun _ hp => jobId_of_mem_producerJobs hp
  have hexact := @findSome?_producers name _ hlisted
  have hfirst := find?_producers hlisted
  unfold traceNeeds TraceSetting.stepsMeant
  simp only [hexact]
  cases hfind : ((producerJobs owner s).flatMap Prod.snd).find? (·.exposes name) with
  | some step => rfl
  | none =>
      rw [Option.map_none]
      cases hhead : ((producerJobs owner s).flatMap Prod.snd).head? with
      | none =>
          rw [hhead, Option.map_none, Option.map_eq_none_iff] at hfirst
          simp only [hfirst]
      | some step =>
          rw [hhead, Option.map_some, Option.map_eq_some_iff] at hfirst
          obtain ⟨⟨job, steps⟩, hjob, hid⟩ := hfirst
          simp only [hjob, ← hid]

/-! ## What is found -/

theorem standing_traceNeeds : (traceNeeds name owner s).standing =
    if (s.stepsMeant owner).any (·.exposes name) then (.terraformOutput, 85)
    else if !(s.stepsMeant owner).isEmpty then (.terraformOutput, 60)
    else if s.availableOutputs.contains name then (.jobOutput, 75)
    else (.unknown, 0) := by
  rw [traceNeeds_eq, ← List.isSome_find?]
  cases (s.stepsMeant owner).find? (·.exposes name) with
  | some step => rfl
  | none =>
      cases s.stepsMeant owner with
      | nil => cases hknown : s.availableOutputs.contains name <;> simp [Origin.standing, Origin.unknown]
      | cons step steps => rfl

/-- In another order of the dependencies the same steps are searched. -/
theorem stepsMeant_perm {jobs : List String} (h : jobs.Perm s.dependentJobs) (owner : Option Scalar) :
    (TraceSetting.stepsMeant { s with dependentJobs := jobs } owner).Perm (s.stepsMeant owner) := by
  unfold TraceSetting.stepsMeant producerJobs
  exact ((h.filter _).map _).flatMap_right Prod.snd

/-- Whatever the order of the dependencies, an output of another job has an origin of the same kind with
the same confidence, and this is 85 exactly when one of the jobs that may be meant has a Terraform step
that names the output or has the subcommand `output`. -/
theorem traceVariable_needs_perm {jobs : List String} (h : jobs.Perm s.dependentJobs) (name : String)
    (owner : Option Scalar) :
    let given := traceVariable name .needs s owner
    let reordered := traceVariable name .needs { s with dependentJobs := jobs } owner
    reordered.kind = given.kind ∧ reordered.confidence = given.confidence ∧
      (given.confidence = 85 ↔ ∃ job, s.Means owner job ∧
        ∃ step ∈ s.stepsIn job, name ∈ step.outputs ∨ step.command = "output") := by
  intro given reordered
  have hsteps := stepsMeant_perm h owner
  have hgiven : given.standing = _ := standing_traceNeeds
  have hreordered : reordered.standing = _ := standing_traceNeeds
  rw [hsteps.any_eq, hsteps.isEmpty_eq, ← hgiven] at hreordered
  obtain ⟨hkind, hconfidence⟩ := Prod.mk.inj hreordered
  refine ⟨hkind, hconfidence, ?_⟩
  have hstep : (s.stepsMeant owner).any (·.exposes name) = true ↔ ∃ job, s.Means owner job ∧
      ∃ step ∈ s.stepsIn job, name ∈ step.outputs ∨ step.command = "output" := by
    rw [List.any_eq_true]
    constructor
    · rintro ⟨step, hmem, hexposes⟩
      obtain ⟨job, hmeans, hmem⟩ := mem_stepsMeant.mp hmem
      exact ⟨job, hmeans, step, hmem, exposes_iff.mp hexposes⟩
    · rintro ⟨job, hmeans, step, hmem, hexposes⟩
      exact ⟨step, mem_stepsMeant.mpr ⟨job, hmeans, hmem⟩, exposes_iff.mpr hexposes⟩
  rw [← hstep]
  -- No other answer has the confidence 85.
  have hconf : given.confidence = given.standing.2 := rfl
  rw [hconf, hgiven]
  cases (s.stepsMeant owner).any (·.exposes name) with
  | true => simp
  | false =>
      simp only [Bool.false_eq_true, if_false, iff_false]
      split
      · decide
      · split <;> decide

/-- A setting whose jobs are all depended on, each with the ids of its steps and what they run. -/
def settingOf (jobs : List (String × List (String × String))) : TraceSetting where
  workflow := .table [(.text "jobs", .table (jobs.map fun (job, steps) =>
    (.text job, .table [(.text "steps", .list (steps.map fun (id, run) =>
      .table [(.text "id", .text id), (.text "run", .text run)]))])))]
  dependentJobs := jobs.map Prod.fst

/-- The step that names the output is found as surely when its job comes second as when it comes first. -/
theorem traceVariable_needs_perm_swapped :
    let s := settingOf [("plan", [("apply", "terraform apply")]), ("infra", [("out", "terraform output vpc")])]
    ["infra", "plan"].Perm s.dependentJobs ∧
      (traceVariable "vpc" .needs s none).confidence = 85 ∧
      (traceVariable "vpc" .needs { s with dependentJobs := ["infra", "plan"] } none).confidence = 85 := by
  intro s
  have horder : ["infra", "plan"].Perm s.dependentJobs := List.Perm.swap "plan" "infra" []
  obtain ⟨-, hconfidence, hsure⟩ := traceVariable_needs_perm horder "vpc" none
  have hgiven : (traceVariable "vpc" .needs s none).confidence = 85 := by
    refine hsure.mpr ⟨"infra", ⟨by decide, fun _ h => by cases h⟩, ?_⟩
    decide +kernel
  exact ⟨horder, hgiven, hconfidence.trans hgiven⟩

/-! ## Where it is found -/

/-- Where one of the steps that may be meant names the output, the origin is in the first step that
names it or has the subcommand `output`.  That step names the output exactly when no step with the
subcommand `output` stands before the first one that names it. -/
theorem traceVariable_needs_first
    (h : ∃ job, s.Means owner job ∧ ∃ step ∈ s.stepsIn job, name ∈ step.outputs) :
    ∃ job, s.Means owner job ∧ ∃ step ∈ s.stepsIn job,
      traceVariable name .needs s owner = .inStep job name step ∧
      (∃ before after, s.stepsMeant owner = before ++ step :: after ∧
        ∀ other ∈ before, name ∉ other.outputs ∧ other.command ≠ "output") ∧
      (name ∈ step.outputs ∨ step.command = "output") ∧
      (name ∈ step.outputs ↔
        ∀ other ∈ (s.stepsMeant owner).takeWhile (name ∉ ·.outputs), other.command ≠ "output") := by
  obtain ⟨namingJob, hnamingMeans, naming, hnaming, hnames⟩ := h
  have hnamingMeant : naming ∈ s.stepsMeant owner := mem_stepsMeant.mpr ⟨namingJob, hnamingMeans, hnaming⟩
  have hsome : ((s.stepsMeant owner).find? (·.exposes name)).isSome = true :=
    List.find?_isSome.mpr ⟨naming, hnamingMeant, exposes_iff.mpr (Or.inl hnames)⟩
  obtain ⟨step, hfind⟩ := Option.isSome_iff_exists.mp hsome
  obtain ⟨hexposes, before, after, hsplit, hbefore⟩ := List.find?_eq_some_iff_append.mp hfind
  have hbefore : ∀ other ∈ before, name ∉ other.outputs ∧ other.command ≠ "output" := by
    intro other hother
    have hnot := hbefore other hother
    rw [Bool.not_eq_true', ← Bool.not_eq_true, exposes_iff, not_or] at hnot
    exact hnot
  obtain ⟨job, hmeans, hstep⟩ := mem_stepsMeant.mp (List.mem_of_find?_eq_some hfind)
  have horigin : traceVariable name .needs s owner = .inStep step.jobId name step := by
    unfold traceVariable
    simp only [traceNeeds_eq, hfind]
  rw [jobId_of_mem_stepsIn hstep] at horigin
  refine ⟨job, hmeans, step, hstep, horigin, ⟨before, after, hsplit, hbefore⟩, exposes_iff.mp hexposes, ?_⟩
  -- The steps before the first that names the output are `before` and, unless it is the one, this step.
  have hfront : ∀ other ∈ before, decide (name ∉ other.outputs) = true :=
    fun other hother => decide_eq_true (hbefore other hother).1
  rw [hsplit, List.takeWhile_append_of_pos hfront]
  by_cases hstepNames : name ∈ step.outputs
  · simp only [hstepNames, true_iff]
    intro other hother
    rw [List.takeWhile_cons_of_neg (by simpa using hstepNames), List.append_nil] at hother
    exact (hbefore other hother).2
  · have hcommand : step.command = "output" := (exposes_iff.mp hexposes).resolve_left hstepNames
    simp only [hstepNames, false_iff]
    intro hnone
    refine hnone step (List.mem_append_right before ?_) hcommand
    rw [List.takeWhile_cons_of_pos (by simpa using hstepNames)]
    exact List.mem_cons_self

/-- Two steps of one job, each of which prints an output of its own. -/
def twoOutputs : TraceSetting :=
  settingOf [("infra", [("subnets", "terraform output -raw subnet_ids"), ("vpc", "terraform output -raw vpc_id")])]

/-- The first of two steps is the origin of the output that it names. -/
theorem traceVariable_needs_first_subnets :
    (∃ job, twoOutputs.Means none job ∧ ∃ step ∈ twoOutputs.stepsIn job, "subnet_ids" ∈ step.outputs) ∧
      ∃ job, twoOutputs.Means none job ∧ ∃ step ∈ twoOutputs.stepsIn job,
        traceVariable "subnet_ids" .needs twoOutputs none = .inStep job "subnet_ids" step ∧
        "subnet_ids" ∈ step.outputs := by
  have hnamed : ∃ job, twoOutputs.Means none job ∧
      ∃ step ∈ twoOutputs.stepsIn job, "subnet_ids" ∈ step.outputs := by
    refine ⟨"infra", ⟨by decide, fun _ h => by cases h⟩, ?_⟩
    decide +kernel
  obtain ⟨job, hmeans, step, hstep, horigin, -, -, hnames⟩ := traceVariable_needs_first hnamed
  refine ⟨hnamed, job, hmeans, step, hstep, horigin, hnames.mpr ?_⟩
  decide +kernel

/-- The origin of an output may be said to be in a step that prints another one, although a step names
the output. -/
theorem needs_source_not_naming : ¬ ∀ (s : TraceSetting) (owner : Option Scalar) (name : String),
    (∃ job, s.Means owner job ∧ ∃ step ∈ s.stepsIn job, name ∈ step.outputs) →
    ∃ job, s.Means owner job ∧ ∃ step ∈ s.stepsIn job, name ∈ step.outputs ∧
      (traceVariable name .needs s owner).source = job ++ "." ++ step.label := by
  intro located
  have hnamed : ∃ step ∈ twoOutputs.stepsIn "infra", "vpc_id" ∈ step.outputs := by decide +kernel
  have hmeans : twoOutputs.Means none "infra" := ⟨by decide, fun _ h => by cases h⟩
  obtain ⟨job, ⟨hjob, -⟩, hstep⟩ := located twoOutputs none "vpc_id" ⟨"infra", hmeans, hnamed⟩
  obtain rfl : job = "infra" := List.mem_singleton.mp hjob
  revert hstep
  decide +kernel

end DeployTrace
