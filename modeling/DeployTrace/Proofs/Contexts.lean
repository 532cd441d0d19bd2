/-
  DeployTrace/Proofs/Contexts.lean --- what holds of every context read from a workflow.

  WHAT THIS FILE IS FOR.  A context holds the same facts in several places: the jobs, and the steps that
  were read from them.  `Context.Consistent` says that they agree: every step belongs to a job of the
  context, a Helm step stands in its job at the place it names, and outputs have names.  The detectors
  rely on nothing else about a context.
-/
import DeployTrace.Detection.Context
import DeployTrace.Proofs.Entries
import DeployTrace.Proofs.Matching

set_option autoImplicit false

namespace DeployTrace

open Text

/-! ## Names of outputs -/

theorem outputForms_set_name : Shell.Terraform.outputForms.all (Pattern.sets 1) = true := by decide

/-- A call that is recognised names its output. -/
theorem ne_empty_of_mem_outputNames {text : Chars} {output : String}
    (h : output ∈ Shell.Terraform.outputNames text) : output ≠ "" := by
  obtain ⟨form, hform, h⟩ := List.mem_flatMap.mp (mem_distinct.mp h)
  obtain ⟨found, hfound, rfl⟩ := List.mem_map.mp h
  exact Match.part_ne_empty (comesFrom_of_mem_findAll hfound)
    (List.all_eq_true.mp outputForms_set_name form hform)

/-! ## Steps of a job -/

theorem mem_readSteps {α : Type} {read : Nat → Table → Option α} {job : Tree} {a : α} :
    a ∈ readSteps read job ↔
      ∃ index step, (jobSteps job)[index]? = some step ∧ read index step = some a := by
  unfold readSteps
  rw [List.mem_filterMap]
  constructor
  · rintro ⟨⟨step, index⟩, hmem, hread⟩
    exact ⟨index, step, List.mk_mem_zipIdx_iff_getElem?.mp hmem, hread⟩
  · rintro ⟨index, step, hstep, hread⟩
    exact ⟨(step, index), List.mk_mem_zipIdx_iff_getElem?.mpr hstep, hread⟩

/-- What is read from the steps of a job stands in the order of the steps. -/
theorem readSteps_order {α : Type} {read : Nat → Table → Option α} {indexOf : α → Nat}
    (hindex : ∀ index step a, read index step = some a → indexOf a = index) (job : Tree) :
    (readSteps read job).Pairwise fun a b => indexOf a < indexOf b := by
  have places : ((jobSteps job).zipIdx.map Prod.snd).Pairwise (· < ·) := by
    rw [List.zipIdx_map_snd]
    exact List.pairwise_lt_range'
  rw [List.pairwise_map] at places
  refine List.pairwise_filterMap.mpr (places.imp ?_)
  intro pair other hlt a ha b hb
  rw [hindex _ _ a ha, hindex _ _ b hb]
  exact hlt

theorem terraformStep?_eq_some {job : Tree} {jobId : String} {index : Nat} {step : Table}
    {s : TerraformStep} (h : terraformStep? job jobId index step = some s) :
    s.jobId = jobId ∧ s.stepIndex = index ∧ ∀ output ∈ s.outputs, output ≠ "" := by
  have named : ∀ output ∈ (if contains (runText step) "output" then
      Shell.Terraform.outputNames (runText step).toList else []), output ≠ "" := by
    intro output houtput
    split at houtput
    · exact ne_empty_of_mem_outputNames houtput
    · simp at houtput
  unfold terraformStep? at h
  simp only at h
  generalize (if contains (runText step) "output" then
    Shell.Terraform.outputNames (runText step).toList else []) = outputs at h named
  split at h
  · simp at h
  · split at h
    · simp at h
    · cases h
      exact ⟨rfl, rfl, named⟩

theorem helmStep?_eq_some {job : Tree} {jobId : String} {index : Nat} {step : Table} {h : HelmStep}
    (hread : helmStep? job jobId index step = some h) :
    h.jobId = jobId ∧ h.stepIndex = index ∧ h.setValues.names.Nodup ∧
      Shell.Helm.invocation.occursIn (runText step).toList = true := by
  unfold helmStep? at hread
  simp only at hread
  split at hread
  · simp at hread
  · rename_i hinvokes
    cases hread
    exact ⟨rfl, rfl, Entries.nodup_names_ofList _, by simpa using hinvokes⟩

/-! ## Contexts -/

/-- The step at a place of a job invokes Helm. -/
def Context.RunsHelmAt (ctx : Context) (jobId : String) (index : Nat) : Prop :=
  ∃ step, (jobSteps (ctx.job jobId))[index]? = some step ∧
    Shell.Helm.invocation.occursIn (runText step).toList = true

/-- The steps of a context are steps of its jobs. -/
structure Context.Consistent (ctx : Context) : Prop where
  terraform_job : ∀ s ∈ ctx.terraformSteps, s.jobId ∈ ctx.jobs.names
  outputs_named : ∀ s ∈ ctx.terraformSteps, ∀ output ∈ s.outputs, output ≠ ""
  helm_job : ∀ h ∈ ctx.helmSteps, h.jobId ∈ ctx.jobs.names
  helm_step : ∀ h ∈ ctx.helmSteps, ctx.RunsHelmAt h.jobId h.stepIndex

theorem nodup_names_extractJobs (workflow : Table) : (extractJobs workflow).names.Nodup := by
  unfold extractJobs
  split
  · exact Entries.nodup_names_ofList _
  · exact List.nodup_nil
  · exact Entries.nodup_names_ofList _

theorem Context.job_eq_of_mem {workflow : Table} {file id : String} {job : Table}
    (h : (id, job) ∈ extractJobs workflow) : (ofTable workflow file).job id = .table job := by
  have hget : (ofTable workflow file).jobs.get? id = some job :=
    Entries.get?_of_mem (nodup_names_extractJobs workflow) h
  unfold Context.job
  rw [hget]

/-- The dependencies that a context has for a job are those that the job declares. -/
theorem Context.dependenciesOf_ofTable {workflow : Table} {file id : String} {job : Table}
    (h : (id, job) ∈ extractJobs workflow) :
    (ofTable workflow file).dependenciesOf id = declaredDependencies job := by
  have hget : (extractJobs workflow).get? id = some job :=
    Entries.get?_of_mem (nodup_names_extractJobs workflow) h
  have hmap := Entries.get?_map declaredDependencies (extractJobs workflow) id
  rw [hget] at hmap
  exact congrArg (·.getD []) hmap

theorem Context.mem_terraformSteps {workflow : Table} {file : String} {s : TerraformStep}
    (hs : s ∈ (ofTable workflow file).terraformSteps) :
    ∃ id job, (id, job) ∈ extractJobs workflow ∧
      s ∈ DeployTrace.terraformSteps (Tree.table job) id := by
  obtain ⟨⟨id, job⟩, hjob, hs⟩ := List.mem_flatMap.mp hs
  exact ⟨id, job, hjob, hs⟩

theorem Context.mem_helmSteps {workflow : Table} {file : String} {h : HelmStep}
    (hh : h ∈ (ofTable workflow file).helmSteps) :
    ∃ id job, (id, job) ∈ extractJobs workflow ∧ h ∈ DeployTrace.helmSteps (Tree.table job) id := by
  obtain ⟨⟨id, job⟩, hjob, hh⟩ := List.mem_flatMap.mp hh
  exact ⟨id, job, hjob, hh⟩

/-- A context read from a workflow is consistent, whatever the workflow holds. -/
theorem Context.ofTable_consistent (workflow : Table) (file : String) :
    (ofTable workflow file).Consistent where
  terraform_job s hs := by
    obtain ⟨id, job, hjob, hs⟩ := mem_terraformSteps hs
    obtain ⟨index, step, -, hread⟩ := mem_readSteps.mp hs
    rw [(terraformStep?_eq_some hread).1]
    exact Entries.mem_names_of_mem hjob
  outputs_named s hs := by
    obtain ⟨id, job, hjob, hs⟩ := mem_terraformSteps hs
    obtain ⟨index, step, -, hread⟩ := mem_readSteps.mp hs
    exact (terraformStep?_eq_some hread).2.2
  helm_job h hh := by
    obtain ⟨id, job, hjob, hh⟩ := mem_helmSteps hh
    obtain ⟨index, step, -, hread⟩ := mem_readSteps.mp hh
    rw [(helmStep?_eq_some hread).1]
    exact Entries.mem_names_of_mem hjob
  helm_step h hh := by
    obtain ⟨id, job, hjob, hh⟩ := mem_helmSteps hh
    obtain ⟨index, step, hstep, hread⟩ := mem_readSteps.mp hh
    obtain ⟨hid, hindex, -, hinvokes⟩ := helmStep?_eq_some hread
    refine ⟨step, ?_, hinvokes⟩
    rw [hid, hindex, job_eq_of_mem hjob]
    exact hstep

/-- What is collected from the jobs one after the other stands in the order of the steps, inside each
job. -/
theorem flatMap_jobs_order {α : Type} (jobOf : α → String) (indexOf : α → Nat)
    {stepsOf : String × Table → List α} (hjob : ∀ entry, ∀ a ∈ stepsOf entry, jobOf a = entry.1)
    (horder : ∀ entry, (stepsOf entry).Pairwise fun a b => indexOf a < indexOf b)
    {jobs : Entries Table} (nodup : jobs.names.Nodup) :
    (jobs.flatMap stepsOf).Pairwise fun a b => jobOf a = jobOf b → indexOf a < indexOf b := by
  refine List.pairwise_flatMap.mpr ⟨?_, ?_⟩
  · intro entry _
    refine (horder entry).imp ?_
    intro a b hlt _
    exact hlt
  refine (List.pairwise_map.mp nodup).imp ?_
  intro entry other hne a ha b hb hsame
  rw [hjob entry a ha, hjob other b hb] at hsame
  exact absurd hsame hne

/-- The Terraform steps of one job stand in its order. -/
theorem Context.terraformSteps_order (workflow : Table) (file : String) :
    (ofTable workflow file).terraformSteps.Pairwise fun a b =>
      a.jobId = b.jobId → a.stepIndex < b.stepIndex := by
  refine flatMap_jobs_order TerraformStep.jobId TerraformStep.stepIndex ?_ ?_ (nodup_names_extractJobs workflow)
  · rintro ⟨id, job⟩ s hs
    obtain ⟨index, step, -, hread⟩ := mem_readSteps.mp hs
    exact (terraformStep?_eq_some hread).1
  · rintro ⟨id, job⟩
    exact readSteps_order (fun _ _ _ hread => (terraformStep?_eq_some hread).2.1) _

/-- The Helm steps of one job stand in its order. -/
theorem Context.helmSteps_order (workflow : Table) (file : String) :
    (ofTable workflow file).helmSteps.Pairwise fun a b =>
      a.jobId = b.jobId → a.stepIndex < b.stepIndex := by
  refine flatMap_jobs_order HelmStep.jobId HelmStep.stepIndex ?_ ?_ (nodup_names_extractJobs workflow)
  · rintro ⟨id, job⟩ h hh
    obtain ⟨index, step, -, hread⟩ := mem_readSteps.mp hh
    exact (helmStep?_eq_some hread).1
  · rintro ⟨id, job⟩
    exact readSteps_order (fun _ _ _ hread => (helmStep?_eq_some hread).2.1) _

end DeployTrace
