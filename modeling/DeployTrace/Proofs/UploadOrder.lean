/-
  DeployTrace/Proofs/UploadOrder.lean --- uploads do not depend on the order in which jobs are visited.

  WHAT THIS FILE IS FOR.  The jobs that run Terraform are a set, and a set may be gone through in any
  order, another one every time.  The uploads that are collected from them are sorted afterwards, by the
  place of their job in the workflow and then by their step.  Here the order in which the jobs are
  visited is a parameter, and looking up the place of a job may fail, as it does for a job that the
  workflow does not have.

  THE ARGUMENT.  No two uploads share both places: the jobs have different places, and inside a job the
  steps have.  A list of which no two elements rank alike is sorted in one way only.  That no look-up
  fails is a matter of where the jobs come from: they are the jobs of steps of the workflow.
-/
import Mathlib.Data.List.Nodup
import DeployTrace.Proofs.Detectors
import DeployTrace.Proofs.Memory
import DeployTrace.Proofs.Sorting

set_option autoImplicit false

namespace DeployTrace

/-! ## Collecting with look-ups that may fail -/

/-- An order in which the jobs that run Terraform may be visited: each of them once. -/
structure Context.EnumeratesTerraformJobs (ctx : Context) (order : List String) : Prop where
  once : order.Nodup
  covers : ∀ id, id ∈ order ↔ ∃ s ∈ ctx.terraformSteps, s.jobId = id

/-- The place of an upload: that of its job, which the workflow may not have, and then its step. -/
def Context.lookUpPlace (ctx : Context) (u : Upload) : Except DetectorFault (Nat × Nat) :=
  match ctx.jobs.names.idxOf? u.jobId with
  | some place => .ok (place, u.stepIndex)
  | none => .error .broken

/-- Whether a place comes before another one: by its first part, and by its second where these agree. -/
def placeBefore (a b : Nat × Nat) : Bool := a.1 < b.1 || (a.1 == b.1 && a.2 < b.2)

/-- The uploads of some jobs in the order of their places, all of which are looked up before the
sorting. -/
def collectUploads (ctx : Context) (order : List String) : Except DetectorFault (List Upload) := do
  let placed ← (order.flatMap (uploadsOf ctx)).mapM fun u => (ctx.lookUpPlace u).map fun place => (place, u)
  return (sortBy (fun a b => placeBefore a.1 b.1) placed).map Prod.snd

/-- What is found through artifacts when the jobs are visited in an order. -/
def artifactFlowsOver (digest : Digest) (ctx : Context) (order : List String) :
    Except DetectorFault (List Flow) := do
  let uploads ← collectUploads ctx order
  flowsOf digest ctx ((helmJobs ctx).flatMap (artifactCandidatesIn ctx uploads))

/-! ## Places -/

theorem placeBefore_eq_true {a b : Nat × Nat} :
    placeBefore a b = true ↔ a.1 < b.1 ∨ (a.1 = b.1 ∧ a.2 < b.2) := by
  simp [placeBefore]

theorem placeBefore_weakOrder : WeakOrder placeBefore where
  asymm a b hab := by
    rw [placeBefore_eq_true] at hab
    rw [Bool.eq_false_iff, ne_eq, placeBefore_eq_true]
    omega
  between a b c hac := by
    rw [placeBefore_eq_true] at hac
    rw [placeBefore_eq_true, placeBefore_eq_true]
    omega

/-- Of two different places one is before the other. -/
theorem eq_of_not_placeBefore {a b : Nat × Nat} (hab : placeBefore a b = false)
    (hba : placeBefore b a = false) : a = b := by
  rw [Bool.eq_false_iff, ne_eq, placeBefore_eq_true] at hab hba
  exact Prod.ext (by omega) (by omega)

/-- The place of an upload in a workflow that has its job. -/
def Context.uploadPlace (ctx : Context) (u : Upload) : Nat × Nat := (ctx.jobPlace u.jobId, u.stepIndex)

theorem uploadPrecedes_eq (ctx : Context) :
    uploadPrecedes ctx = fun a b => placeBefore (ctx.uploadPlace a) (ctx.uploadPlace b) := rfl

theorem uploadPrecedes_weakOrder (ctx : Context) : WeakOrder (uploadPrecedes ctx) :=
  placeBefore_weakOrder.comap ctx.uploadPlace

/-- The place of a job of the workflow is found. -/
theorem Context.lookUpPlace_eq {ctx : Context} {u : Upload} (hu : u.jobId ∈ ctx.jobs.names) :
    ctx.lookUpPlace u = .ok (ctx.uploadPlace u) := by
  obtain ⟨place, hplace⟩ := Option.isSome_iff_exists.mp (List.isSome_idxOf?.mpr hu)
  have heq : ctx.jobPlace u.jobId = place := by
    rw [jobPlace, List.idxOf_eq_getD_idxOf?, hplace, Option.getD_some]
  rw [lookUpPlace, hplace, uploadPlace, heq]

theorem Context.uploadPlace_inj {ctx : Context} {a b : Upload} (ha : a.jobId ∈ ctx.jobs.names)
    (h : ctx.uploadPlace a = ctx.uploadPlace b) : a.jobId = b.jobId ∧ a.stepIndex = b.stepIndex := by
  obtain ⟨hplace, hindex⟩ := Prod.ext_iff.mp h
  exact ⟨(List.idxOf_inj ha).mp hplace, hindex⟩

/-! ## Uploads of the jobs visited -/

theorem jobId_of_mem_uploadsOf {ctx : Context} {id : String} {u : Upload} (hu : u ∈ uploadsOf ctx id) :
    u.jobId = id := by
  obtain ⟨_, -, rfl⟩ := List.mem_map.mp hu
  rfl

/-- The uploads of one job stand in the order of its steps. -/
theorem uploadsOf_order (ctx : Context) (id : String) :
    (uploadsOf ctx id).Pairwise fun a b => a.stepIndex < b.stepIndex := by
  have places : ((jobSteps (ctx.job id)).zipIdx.map Prod.snd).Pairwise (· < ·) := by
    rw [List.zipIdx_map_snd]
    exact List.pairwise_lt_range'
  rw [List.pairwise_map] at places
  unfold uploadsOf
  rw [List.pairwise_map]
  exact places.filter _

section

variable {ctx : Context} {order : List String}

theorem Context.EnumeratesTerraformJobs.perm (h : ctx.EnumeratesTerraformJobs order) :
    order.Perm (terraformJobs ctx) := by
  have hnodup : (terraformJobs ctx).Nodup := nodup_addNew List.nodup_nil
  refine (List.perm_ext_iff_of_nodup h.once hnodup).mpr fun id => ?_
  rw [h.covers, terraformJobs, mem_distinct, List.mem_map]

/-- Every upload belongs to a job of the workflow. -/
theorem Context.EnumeratesTerraformJobs.jobId_mem (h : ctx.EnumeratesTerraformJobs order)
    (consistent : ctx.Consistent) {u : Upload} (hu : u ∈ order.flatMap (uploadsOf ctx)) :
    u.jobId ∈ ctx.jobs.names := by
  obtain ⟨id, hid, hu⟩ := List.mem_flatMap.mp hu
  obtain ⟨s, hs, rfl⟩ := (h.covers id).mp hid
  rw [jobId_of_mem_uploadsOf hu]
  exact consistent.terraform_job s hs

/-- No two uploads share their places. -/
theorem Context.EnumeratesTerraformJobs.places_apart (h : ctx.EnumeratesTerraformJobs order)
    (consistent : ctx.Consistent) :
    ((order.flatMap (uploadsOf ctx)).map ctx.uploadPlace).Nodup := by
  have different : (order.flatMap (uploadsOf ctx)).Pairwise fun a b =>
      ¬(a.jobId = b.jobId ∧ a.stepIndex = b.stepIndex) := by
    refine List.pairwise_flatMap.mpr ⟨?_, ?_⟩
    · intro id _
      refine (uploadsOf_order ctx id).imp ?_
      rintro a b hlt ⟨-, hindex⟩
      exact Nat.ne_of_lt hlt hindex
    · refine h.once.imp ?_
      rintro id other hne a ha b hb ⟨hjob, -⟩
      rw [jobId_of_mem_uploadsOf ha, jobId_of_mem_uploadsOf hb] at hjob
      exact hne hjob
  refine List.pairwise_map.mpr (different.imp_of_mem ?_)
  intro a b ha _ hne hplace
  exact hne (Context.uploadPlace_inj (h.jobId_mem consistent ha) hplace)

/-- Sorting makes the order of visiting disappear. -/
theorem uploadsOver_eq (h : ctx.EnumeratesTerraformJobs order) (consistent : ctx.Consistent) :
    uploadsOver ctx order = uploads ctx := by
  refine sortBy_eq_of_perm (uploadPrecedes_weakOrder ctx) (h.perm.flatMap_right (uploadsOf ctx)) ?_
  intro a ha b hb hab hba
  exact List.inj_on_of_nodup_map (h.places_apart consistent) ha hb (eq_of_not_placeBefore hab hba)

/-- The uploads stand strictly by the places of their jobs and then by their steps. -/
theorem uploads_order (h : ctx.EnumeratesTerraformJobs order) (consistent : ctx.Consistent) :
    (uploads ctx).Pairwise fun a b =>
      ctx.jobPlace a.jobId < ctx.jobPlace b.jobId ∨
        (ctx.jobPlace a.jobId = ctx.jobPlace b.jobId ∧ a.stepIndex < b.stepIndex) := by
  rw [← uploadsOver_eq h consistent]
  have apart := List.pairwise_map.mp (h.places_apart consistent)
  refine (sortBy_pairwise (uploadPrecedes_weakOrder ctx) apart).imp ?_
  intro a b hbefore
  rw [uploadPrecedes_eq] at hbefore
  rcases hbefore with hab | ⟨hba, hne⟩
  · exact placeBefore_eq_true.mp hab
  · -- Places that differ cannot rank alike.
    cases hab : placeBefore (ctx.uploadPlace a) (ctx.uploadPlace b) with
    | true => exact placeBefore_eq_true.mp hab
    | false => exact absurd (eq_of_not_placeBefore hab hba) hne

/-- Every upload has a place, and sorting by places looked up before is sorting by places. -/
theorem collectUploads_eq (h : ctx.EnumeratesTerraformJobs order) (consistent : ctx.Consistent) :
    collectUploads ctx order = .ok (uploadsOver ctx order) := by
  have hplaced : ((order.flatMap (uploadsOf ctx)).mapM fun u =>
      (ctx.lookUpPlace u).map fun place => (place, u)) =
        .ok ((order.flatMap (uploadsOf ctx)).map fun u => (ctx.uploadPlace u, u)) :=
    mapM_eq_ok_of_forall fun u hu => by
      rw [Context.lookUpPlace_eq (h.jobId_mem consistent hu)]
      rfl
  have hsorted := map_sortBy (fun u => (ctx.uploadPlace u, u))
    (fun a b => placeBefore a.1 b.1) (order.flatMap (uploadsOf ctx))
  rw [collectUploads, hplaced]
  change Except.ok _ = _
  rw [← hsorted, List.map_map]
  exact congrArg Except.ok (List.map_id _)

/-- Whatever the workflow, and in whatever order its Terraform jobs are visited, collecting the uploads
does not fail and gives one list, in which each upload comes strictly before those after it by the place
of its job and then by its step.  What is found through artifacts is then the same as well. -/
theorem uploads_independent_of_visits (digest : Digest) (workflow : Table) (file : String)
    (order : List String) (h : (Context.ofTable workflow file).EnumeratesTerraformJobs order) :
    let ctx := Context.ofTable workflow file
    collectUploads ctx order = .ok (uploads ctx) ∧
      ((uploads ctx).Pairwise fun a b =>
        ctx.jobPlace a.jobId < ctx.jobPlace b.jobId ∨
          (ctx.jobPlace a.jobId = ctx.jobPlace b.jobId ∧ a.stepIndex < b.stepIndex)) ∧
      ∃ flows, flowsOf digest ctx (artifactCandidates ctx) = .ok flows ∧
        artifactFlowsOver digest ctx order = .ok flows := by
  intro ctx
  have consistent : ctx.Consistent := Context.ofTable_consistent workflow file
  have hcollected : collectUploads ctx order = .ok (uploads ctx) := by
    rw [collectUploads_eq h consistent, uploadsOver_eq h consistent]
  obtain ⟨flows, hflows, -⟩ :=
    flowsOf_wellFormed (fun c hc => artifactCandidates_sound consistent hc) digest
  refine ⟨hcollected, uploads_order h consistent, flows, hflows, ?_⟩
  rw [artifactFlowsOver, hcollected]
  exact hflows

/-- A job that runs Terraform and uploads two files, before and after that. -/
def uploadingJob : Tree :=
  let upload (path : String) : Tree := .table [(.text "uses", .text "actions/upload-artifact@v4"),
    (.text "with", .table [(.text "path", .text path)])]
  .table [(.text "steps", .list [upload "plan.txt",
    .table [(.text "run", .text "terraform output -json > tf-output.json")], upload "tf-output.json"])]

/-- Two such jobs and one that reads what they upload. -/
def twoUploaders : Table :=
  [(.text "jobs", .table [(.text "network", uploadingJob), (.text "cluster", uploadingJob),
    (.text "deploy", .table [(.text "steps", .list [
      .table [(.text "uses", .text "actions/download-artifact@v4")],
      .table [(.text "run", .text "helm upgrade web ./c -f tf-output.json")]])])])]

/-- The jobs of the two uploaders may be visited backwards. -/
theorem twoUploaders_backwards :
    (Context.ofTable twoUploaders "ci.yml").EnumeratesTerraformJobs ["cluster", "network"] where
  once := by decide
  covers id := by
    have hjobs : (Context.ofTable twoUploaders "ci.yml").terraformSteps.map (·.jobId) =
        ["network", "cluster"] := by decide +kernel
    have hmem : (∃ s ∈ (Context.ofTable twoUploaders "ci.yml").terraformSteps, s.jobId = id) ↔
        id ∈ ["network", "cluster"] := by
      rw [← hjobs, List.mem_map]
    rw [hmem]
    exact (List.Perm.swap "network" "cluster" []).mem_iff

/-- Four uploads are found and two flows, also when the jobs are visited backwards. -/
theorem uploads_visited_backwards :
    let ctx := Context.ofTable twoUploaders "ci.yml"
    ctx.EnumeratesTerraformJobs ["cluster", "network"] ∧
      (uploads ctx).map (fun u => (u.jobId, u.stepIndex)) =
        [("network", 0), ("network", 2), ("cluster", 0), ("cluster", 2)] ∧
      (artifactCandidates ctx).map (fun c => c.source.jobId) = ["network", "cluster"] ∧
      collectUploads ctx ["cluster", "network"] = .ok (uploads ctx) ∧
      ∃ flows, flowsOf plainDigest ctx (artifactCandidates ctx) = .ok flows ∧
        artifactFlowsOver plainDigest ctx ["cluster", "network"] = .ok flows := by
  intro ctx
  obtain ⟨hcollected, -, hflows⟩ := uploads_independent_of_visits plainDigest twoUploaders "ci.yml"
    ["cluster", "network"] twoUploaders_backwards
  obtain ⟨huploads, hcandidates⟩ : (uploads ctx).map (fun u => (u.jobId, u.stepIndex)) =
        [("network", 0), ("network", 2), ("cluster", 0), ("cluster", 2)] ∧
      (artifactCandidates ctx).map (fun c => c.source.jobId) = ["network", "cluster"] := by
    decide +kernel
  exact ⟨twoUploaders_backwards, huploads, hcandidates, hcollected, hflows⟩

end

end DeployTrace
