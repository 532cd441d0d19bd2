/-
  DeployTrace/Proofs/JobReadings.lean --- what detection reads of a workflow.

  WHAT THIS FILE IS FOR.  The detectors are given the jobs of a workflow as they stand, and any of them
  could look at anything in a job.  They do not: of a job they read its steps and four settings, and of
  the workflow besides its jobs what it says about its name and its triggers.  Two workflows in which all
  this is the same have the same flows (`detectFlows_congr`).

  THE ARGUMENT.  A context holds what was read of its jobs, and the workflow and the jobs themselves.
  The first is the same for workflows that are read alike, so that the contexts differ in the second
  only (`Context.ofTable_eq`).  It remains to look at the places where a detector goes back to the jobs:
  the environment tables and the steps that use an action.
-/
import DeployTrace.Proofs.Bindings
import DeployTrace.Proofs.Ranking
import DeployTrace.Proofs.Sessions

set_option autoImplicit false

namespace DeployTrace

/-! ## What is read of a workflow -/

/-- All that is read of a job: its steps, and the settings beside them. -/
structure JobReading where
  steps : List Table
  env : Tree
  defaults : Tree
  needs : Tree
  dependencies : Tree

/-- What is read of a job. -/
def JobReading.of (job : Table) : JobReading where
  steps := jobSteps (.table job)
  env := job.field "env"
  defaults := job.field "defaults"
  needs := job.field "needs"
  dependencies := job.field "dependencies"

/-- What is read of some jobs, under their names. -/
def jobReadings (jobs : Entries Table) : Entries JobReading :=
  jobs.map fun entry => (entry.1, .of entry.2)

section

variable {job other : Table} {jobs others : Entries Table}

theorem workingDir?_congr (h : JobReading.of job = .of other) (step : Table) (text : String) :
    workingDir? step (.table job) text = workingDir? step (.table other) text := by
  have hdefaults : Tree.field (.table job) "defaults" = Tree.field (.table other) "defaults" :=
    congrArg JobReading.defaults h
  unfold workingDir?
  rw [hdefaults]

theorem terraformSteps_congr (h : JobReading.of job = .of other) (id : String) :
    terraformSteps (.table job) id = terraformSteps (.table other) id := by
  have hread : terraformStep? (.table job) id = terraformStep? (.table other) id := by
    funext index step
    simp only [terraformStep?, workingDir?_congr h]
  have hsteps : jobSteps (.table job) = jobSteps (.table other) := congrArg JobReading.steps h
  unfold terraformSteps readSteps
  rw [hread, hsteps]

theorem helmSteps_congr (h : JobReading.of job = .of other) (id : String) :
    helmSteps (.table job) id = helmSteps (.table other) id := by
  have hread : helmStep? (.table job) id = helmStep? (.table other) id := by
    funext index step
    simp only [helmStep?, workingDir?_congr h]
  have hsteps : jobSteps (.table job) = jobSteps (.table other) := congrArg JobReading.steps h
  unfold helmSteps readSteps
  rw [hread, hsteps]

theorem declaredDependencies_congr (h : JobReading.of job = .of other) :
    declaredDependencies job = declaredDependencies other := by
  have hneeds : job.field "needs" = other.field "needs" := congrArg JobReading.needs h
  have hdependencies : job.field "dependencies" = other.field "dependencies" :=
    congrArg JobReading.dependencies h
  unfold declaredDependencies
  rw [hneeds, hdependencies]

theorem envTables_congr (h : JobReading.of job = .of other) : envTables job = envTables other := by
  have henv : job.field "env" = other.field "env" := congrArg JobReading.env h
  have hsteps : jobSteps (.table job) = jobSteps (.table other) := congrArg JobReading.steps h
  unfold envTables
  rw [henv, hsteps]

/-- What is made of each job from what is read of it is the same for jobs that are read alike. -/
theorem map_eq_of_jobReadings {α : Type} {f : String × Table → α}
    (hf : ∀ id job other, JobReading.of job = .of other → f (id, job) = f (id, other))
    (h : jobReadings jobs = jobReadings others) : jobs.map f = others.map f := by
  induction jobs generalizing others with
  | nil =>
      obtain rfl : others = [] := List.map_eq_nil_iff.mp h.symm
      rfl
  | cons entry rest ih =>
      cases others with
      | nil => cases h
      | cons same more =>
          obtain ⟨id, job⟩ := entry
          obtain ⟨sameId, other⟩ := same
          simp only [jobReadings, List.map_cons, List.cons.injEq, Prod.mk.injEq] at h
          obtain ⟨⟨rfl, hread⟩, hrest⟩ := h
          rw [List.map_cons, List.map_cons, hf id job other hread, ih hrest]

theorem flatMap_eq_of_jobReadings {α : Type} {f : String × Table → List α}
    (hf : ∀ id job other, JobReading.of job = .of other → f (id, job) = f (id, other))
    (h : jobReadings jobs = jobReadings others) : jobs.flatMap f = others.flatMap f := by
  rw [List.flatMap_def, List.flatMap_def, map_eq_of_jobReadings hf h]

end

/-! ## Contexts with other jobs -/

/-- A context with another workflow and other jobs, everything that was read from them left as it is. -/
def Context.withSource (ctx : Context) (workflow : Table) (jobs : Entries Table) : Context :=
  { ctx with workflow := workflow, jobs := jobs }

section

variable {ctx : Context} {workflow : Table} {jobs : Entries Table}

/-- The context of a workflow is that of another one in all that was read of the jobs, when these are
read alike. -/
theorem Context.ofTable_eq {v w : Table} (h : jobReadings (extractJobs v) = jobReadings (extractJobs w))
    (file : String) : ofTable w file = (ofTable v file).withSource w (extractJobs w) := by
  have hterraform := flatMap_eq_of_jobReadings
    (f := fun entry => DeployTrace.terraformSteps (.table entry.2) entry.1)
    (fun id _ _ hread => terraformSteps_congr hread id) h
  have hhelm := flatMap_eq_of_jobReadings
    (f := fun entry => DeployTrace.helmSteps (.table entry.2) entry.1)
    (fun id _ _ hread => helmSteps_congr hread id) h
  have hdependencies := map_eq_of_jobReadings
    (f := fun entry => (entry.1, declaredDependencies entry.2))
    (fun id _ _ hread => by rw [declaredDependencies_congr hread]) h
  unfold ofTable withSource
  simp only at hterraform hhelm hdependencies ⊢
  rw [hterraform, hhelm, hdependencies]

theorem directCandidates_withSource :
    directCandidates (ctx.withSource workflow jobs) = directCandidates ctx := rfl

theorem fileCandidates_withSource :
    fileCandidates (ctx.withSource workflow jobs) = fileCandidates ctx := rfl

theorem envBindings_withSource (h : jobReadings jobs = jobReadings ctx.jobs) :
    envBindings (ctx.withSource workflow jobs) = envBindings ctx := by
  have htables : tableBindings (ctx.withSource workflow jobs) = tableBindings ctx := by
    refine flatMap_eq_of_jobReadings ?_ h
    intro id job other hread
    show envTableBindings ctx id job = envTableBindings ctx id other
    unfold envTableBindings
    rw [envTables_congr hread]
  show (tableBindings (ctx.withSource workflow jobs)).foldl bindFirst
    (ctx.terraformSteps.foldl bindStep []) = _
  rw [htables]
  rfl

theorem relayCandidates_withSource (h : jobReadings jobs = jobReadings ctx.jobs) :
    relayCandidates (ctx.withSource workflow jobs) = relayCandidates ctx := by
  unfold relayCandidates
  rw [envBindings_withSource h]
  rfl

/-- The steps of a job are read from what is read of the jobs. -/
theorem Context.jobSteps_job (ctx : Context) (id : String) :
    jobSteps (ctx.job id) = ((Entries.get? (jobReadings ctx.jobs) id).map JobReading.steps).getD [] := by
  unfold Context.job jobReadings
  rw [Entries.get?_map]
  cases Entries.get? ctx.jobs id with
  | none => rfl
  | some job => rfl

theorem stepsUsing_withSource (h : jobReadings jobs = jobReadings ctx.jobs) (action id : String) :
    stepsUsing action ((ctx.withSource workflow jobs).job id) = stepsUsing action (ctx.job id) := by
  have hjobs : (ctx.withSource workflow jobs).jobs = jobs := rfl
  unfold stepsUsing
  rw [Context.jobSteps_job, Context.jobSteps_job, hjobs, h]

theorem uploads_withSource (h : jobReadings jobs = jobReadings ctx.jobs) :
    uploads (ctx.withSource workflow jobs) = uploads ctx := by
  have hof : uploadsOf (ctx.withSource workflow jobs) = uploadsOf ctx := by
    funext id
    unfold uploadsOf
    rw [stepsUsing_withSource h]
    rfl
  have hnames : jobs.names = ctx.jobs.names := by
    have hread := congrArg Entries.names h
    unfold jobReadings Entries.names at hread
    rwa [List.map_map, List.map_map] at hread
  have hprecedes : uploadPrecedes (ctx.withSource workflow jobs) = uploadPrecedes ctx := by
    unfold uploadPrecedes Context.jobPlace
    rw [show (ctx.withSource workflow jobs).jobs = jobs from rfl, hnames]
  unfold uploads uploadsOver
  rw [hof, hprecedes]
  rfl

theorem artifactCandidates_withSource (h : jobReadings jobs = jobReadings ctx.jobs) :
    artifactCandidates (ctx.withSource workflow jobs) = artifactCandidates ctx := by
  have hdownloads : downloadsOf (ctx.withSource workflow jobs) = downloadsOf ctx := by
    funext id
    unfold downloadsOf
    rw [stepsUsing_withSource h]
  unfold artifactCandidates artifactCandidatesIn
  rw [uploads_withSource h, hdownloads]
  rfl

/-- A candidate stands for the same flow when the two workflows say the same about themselves. -/
theorem flowsOf_withSource (hname : workflowName workflow = workflowName ctx.workflow)
    (htrigger : triggerType workflow = triggerType ctx.workflow) (digest : Digest)
    (candidates : List Candidate) :
    flowsOf digest (ctx.withSource workflow jobs) candidates = flowsOf digest ctx candidates := by
  have hflow : Candidate.flow digest (ctx.withSource workflow jobs) = Candidate.flow digest ctx := by
    funext c
    have hwith : c.flowWith digest (ctx.withSource workflow jobs) = c.flowWith digest ctx := by
      funext evidence confidence
      unfold Candidate.flowWith Context.withSource
      simp only [hname, htrigger]
    unfold Candidate.flow
    rw [hwith]
  unfold flowsOf
  rw [hflow]

/-- For every pattern the same is proposed in the two contexts. -/
theorem candidates_withSource (h : jobReadings jobs = jobReadings ctx.jobs) (pattern : FlowPattern) :
    pattern.candidates (ctx.withSource workflow jobs) = pattern.candidates ctx := by
  cases pattern with
  | directOutput => exact directCandidates_withSource
  | outputToEnv => exact relayCandidates_withSource h
  | outputToFile => exact fileCandidates_withSource
  | artifactTransfer => exact artifactCandidates_withSource h
  | _ => rfl

/-- Every detector finds the same in the two contexts. -/
theorem detect_withSource (hname : workflowName workflow = workflowName ctx.workflow)
    (htrigger : triggerType workflow = triggerType ctx.workflow)
    (h : jobReadings jobs = jobReadings ctx.jobs) {digest : Digest} {d : Detector}
    (hd : d ∈ registeredDetectors digest) :
    d.detect (ctx.withSource workflow jobs) = d.detect ctx := by
  rw [detect_of_registered hd, detect_of_registered hd, candidates_withSource h,
    flowsOf_withSource hname htrigger]

theorem detectedBy_withSource (hname : workflowName workflow = workflowName ctx.workflow)
    (htrigger : triggerType workflow = triggerType ctx.workflow)
    (h : jobReadings jobs = jobReadings ctx.jobs) {options : DetectorOptions} {digest : Digest}
    {d : Detector} (hd : d ∈ registeredDetectors digest) :
    detectedBy options (ctx.withSource workflow jobs) d = detectedBy options ctx d := by
  have happlies : d.applies (ctx.withSource workflow jobs) = d.applies ctx := by
    rw [applies_of_registered hd]
    rfl
  unfold detectedBy
  rw [detect_withSource hname htrigger h hd, happlies]

end

/-- Detection reads nothing of a workflow but what it says about itself and what is read of its jobs. -/
theorem detectFlows_congr {v w : Table} (hname : workflowName w = workflowName v)
    (htrigger : triggerType w = triggerType v)
    (h : jobReadings (extractJobs w) = jobReadings (extractJobs v)) (digest : Digest)
    (options : DetectorOptions) (file : String) :
    detectFlows digest options (.table w) file = detectFlows digest options (.table v) file := by
  have hctx := Context.ofTable_eq h.symm file
  have hfound : foundFlows options (detectors digest) (.ofTable w file) =
      foundFlows options (detectors digest) (.ofTable v file) := by
    rw [hctx, foundFlows_eq_map, foundFlows_eq_map]
    refine List.map_congr_left fun d hd => ?_
    exact detectedBy_withSource hname htrigger h (mem_sortBy.mp hd)
  rw [detectFlows_table, detectFlows_table]
  unfold flowsInContext
  rw [hfound, hctx]
  rfl

end DeployTrace
