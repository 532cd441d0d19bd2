/-
  DeployTrace/Proofs/Detectors.lean --- the four detectors propose only what fits the context.

  WHAT THIS FILE IS FOR.  Each detector reads data that nobody has checked and matches it in its own
  way.  For each it is shown here that all its candidates are sound in a consistent context: the source
  is a job of the context, the output has a name, and the strengths are on the scale.  That the target
  fits is the same for all of them.
-/
import DeployTrace.Proofs.Candidates

set_option autoImplicit false

namespace DeployTrace

open Text

section

variable {ctx : Context} {h : HelmStep} {c : Candidate}

/-! ## Direct uses -/

theorem substitutionForms_set_name : substitutionForms.all (Pattern.sets 1) = true := by decide

theorem inlineSetPattern_sets_name : inlineSetPattern.sets 1 = true := by decide

theorem output_ne_empty_of_mem_usesInValue {key value : String} {use : DirectUse}
    (huse : use ∈ usesInValue h key value) : use.output ≠ "" := by
  obtain ⟨found, hfound, rfl⟩ := List.mem_map.mp huse
  obtain ⟨form, hform, hsearch⟩ := List.mem_filterMap.mp hfound
  exact Match.part_ne_empty (comesFrom_of_search hsearch)
    (List.all_eq_true.mp substitutionForms_set_name form hform)

theorem output_ne_empty_of_mem_usesInText {run : String} {use : DirectUse}
    (huse : use ∈ usesInText run) : use.output ≠ "" := by
  obtain ⟨found, hfound, rfl⟩ := List.mem_map.mp huse
  exact Match.part_ne_empty (comesFrom_of_mem_findAll hfound) inlineSetPattern_sets_name

theorem mem_of_mem_firstUses {seen : List (String × String)} {uses : List DirectUse} {use : DirectUse}
    (huse : use ∈ firstUses seen uses) : use ∈ uses := by
  induction uses generalizing seen with
  | nil => exact huse
  | cons u rest ih =>
      unfold firstUses at huse
      split at huse
      · exact List.mem_cons_of_mem u (ih huse)
      · rcases List.mem_cons.mp huse with rfl | huse
        · exact List.mem_cons_self
        · exact List.mem_cons_of_mem u (ih huse)

theorem output_ne_empty_of_mem_directUses {use : DirectUse} (huse : use ∈ directUses h) :
    use.output ≠ "" := by
  rcases List.mem_append.mp (mem_of_mem_firstUses huse) with huse | huse
  · obtain ⟨⟨key, value⟩, -, huse⟩ := List.mem_flatMap.mp huse
    exact output_ne_empty_of_mem_usesInValue huse
  · exact output_ne_empty_of_mem_usesInText huse

theorem mem_of_foldl_better {better : TerraformStep → TerraformStep → Bool} {steps : List TerraformStep}
    (first : TerraformStep) :
    steps.foldl (fun best s => if better s best then s else best) first ∈ first :: steps := by
  induction steps generalizing first with
  | nil => exact List.mem_cons_self
  | cons s rest ih =>
      rw [List.foldl_cons]
      split
      · exact List.mem_cons_of_mem first (ih s)
      · rcases List.mem_cons.mp (ih first) with heq | hmem
        · rw [heq]
          exact List.mem_cons_self
        · exact List.mem_cons_of_mem first (List.mem_cons_of_mem s hmem)

theorem mem_of_bestStep? {better : TerraformStep → TerraformStep → Bool} {steps : List TerraformStep}
    {step : TerraformStep} (hbest : bestStep? better steps = some step) : step ∈ steps := by
  cases steps with
  | nil => simp [bestStep?] at hbest
  | cons first rest =>
      cases hbest
      exact mem_of_foldl_better first

theorem mem_of_nearestStep? {index : Nat} {steps : List TerraformStep} {step : TerraformStep}
    (hnearest : nearestStep? index steps = some step) : step ∈ steps := by
  unfold nearestStep? at hnearest
  simp only at hnearest
  split at hnearest
  · exact mem_of_bestStep? hnearest
  · exact (List.mem_filter.mp (mem_of_bestStep? hnearest)).1

theorem exists_bestStep? (better : TerraformStep → TerraformStep → Bool) {steps : List TerraformStep}
    (hne : steps ≠ []) : ∃ step, bestStep? better steps = some step := by
  obtain ⟨first, rest, rfl⟩ := List.exists_cons_of_ne_nil hne
  exact ⟨_, rfl⟩

/-- Of some steps there is a nearest. -/
theorem exists_nearestStep? (index : Nat) {steps : List TerraformStep} (hne : steps ≠ []) :
    ∃ step, nearestStep? index steps = some step := by
  unfold nearestStep?
  simp only
  split
  · exact exists_bestStep? _ hne
  · rename_i hsome
    exact exists_bestStep? _ (by simpa using hsome)

/-- The step an output comes from is a Terraform step of the context. -/
theorem mem_of_outputStep? {output : String} {step : TerraformStep}
    (hstep : outputStep? ctx h output = some step) : step ∈ ctx.terraformSteps := by
  unfold outputStep? at hstep
  simp only at hstep
  split at hstep
  · rename_i hown
    cases hstep
    exact (List.mem_filter.mp (List.mem_filter.mp (mem_of_nearestStep? hown)).1).1
  · split at hstep
    · rename_i hneeded
      cases hstep
      obtain ⟨job, -, hfind⟩ := List.exists_of_findSome?_eq_some hneeded
      exact (List.mem_filter.mp (List.mem_of_find?_eq_some hfind)).1
    · exact List.mem_of_find?_eq_some hstep

theorem placeEvidence_strength {step : TerraformStep} {e : Evidence}
    (he : e ∈ placeEvidence ctx h step) : inScoreRange e.strength = true := by
  unfold placeEvidence at he
  split at he
  · exact strength_of_mem_ite (dependencyEvidence_strength (by decide)) he
  · simp only [List.mem_singleton] at he
    rw [he]
    exact inScoreRange_int (by omega) (by omega)

theorem directCandidates_sound (consistent : ctx.Consistent) (hc : c ∈ directCandidates ctx) :
    c.Sound ctx .directOutput := by
  obtain ⟨h, hh, hc⟩ := List.mem_flatMap.mp hc
  obtain ⟨use, huse, hc⟩ := List.mem_filterMap.mp hc
  obtain ⟨step, hstep, rfl⟩ := Option.map_eq_some_iff.mp hc
  have hmem : step ∈ ctx.terraformSteps := mem_of_outputStep? hstep
  refine Candidate.sound_of_target consistent hh rfl rfl (consistent.terraform_job step hmem)
    (output_ne_empty_of_mem_directUses huse) ?_
  intro e he
  rcases List.mem_append.mp he with he | he
  · simp only [List.mem_cons, List.not_mem_nil, or_false] at he
    rcases he with rfl | rfl <;> exact inScoreRange_int (by decide) (by decide)
  · exact placeEvidence_strength he

/-! ## Files -/

theorem json_outputs_ne_empty : "json_outputs" ≠ "" := by decide

theorem mem_writtenFiles {step : TerraformStep} {file : String}
    (hfile : (step, file) ∈ writtenFiles ctx) : step ∈ ctx.terraformSteps := by
  obtain ⟨writer, hwriter, hfile⟩ := List.mem_flatMap.mp hfile
  obtain ⟨_, -, heq⟩ := List.mem_map.mp hfile
  cases heq
  exact hwriter

theorem queryCandidate_sound (consistent : ctx.Consistent) (hh : h ∈ ctx.helmSteps)
    {step : TerraformStep} (hstep : step ∈ ctx.terraformSteps) (q : FileQuery) :
    (queryCandidate ctx h step q).Sound ctx .outputToFile := by
  refine Candidate.sound_of_target consistent hh rfl rfl (consistent.terraform_job step hstep)
    json_outputs_ne_empty ?_
  intro e he
  rcases List.mem_append.mp he with he | he
  · simp only [List.mem_cons, List.not_mem_nil, or_false] at he
    rcases he with rfl | rfl <;> exact inScoreRange_int (by decide) (by decide)
  · exact strength_of_mem_ite (dependencyEvidence_strength (by decide)) he

theorem relatedCandidate_sound (consistent : ctx.Consistent) (hh : h ∈ ctx.helmSteps)
    {step : TerraformStep} (hstep : step ∈ ctx.terraformSteps) (file valuesFile : String) :
    (relatedCandidate ctx h step file valuesFile).Sound ctx .outputToFile := by
  refine Candidate.sound_of_target consistent hh rfl rfl (consistent.terraform_job step hstep)
    json_outputs_ne_empty ?_
  intro e he
  rw [List.mem_singleton.mp he]
  exact inScoreRange_int (by decide) (by decide)

theorem fileCandidates_sound (consistent : ctx.Consistent) (hc : c ∈ fileCandidates ctx) :
    c.Sound ctx .outputToFile := by
  obtain ⟨h, hh, hc⟩ := List.mem_flatMap.mp hc
  obtain ⟨⟨step, file⟩, hfile, hc⟩ := List.mem_flatMap.mp hc
  have hstep : step ∈ ctx.terraformSteps := mem_writtenFiles hfile
  change c ∈ fileCandidatesFor ctx h step file at hc
  unfold fileCandidatesFor at hc
  split at hc
  · obtain ⟨valuesFile, -, rfl⟩ := Option.map_eq_some_iff.mp (Option.mem_toList.mp hc)
    exact relatedCandidate_sound consistent hh hstep file valuesFile
  · obtain ⟨q, -, rfl⟩ := List.mem_map.mp hc
    exact queryCandidate_sound consistent hh hstep q

/-! ## Environment variables -/

theorem assignmentForms_set_name : assignmentForms.all (Pattern.sets 1) = true := by decide

theorem neededOutput_sets_name : neededOutput.sets 2 = true := by decide

/-- A binding of a named output of one of some jobs. -/
structure EnvBinding.FitsIn (jobs : List String) (b : EnvBinding) : Prop where
  output_named : b.output ≠ ""
  source_job : b.jobId ∈ jobs

/-- All bindings of a map fit. -/
def EnvBindings.FitIn (jobs : List String) (bindings : EnvBindings) : Prop :=
  ∀ pair ∈ bindings, pair.2.FitsIn jobs

/-- A Terraform step of one of some jobs that names its outputs. -/
structure TerraformStep.FitsIn (jobs : List String) (s : TerraformStep) : Prop where
  job : s.jobId ∈ jobs
  outputs_named : ∀ output ∈ s.outputs, output ≠ ""

section

variable {jobs : List String} {bindings : EnvBindings} {s : TerraformStep}

theorem bindFirst_fits {b : EnvBinding} (hbindings : bindings.FitIn jobs) (hb : b.FitsIn jobs) :
    EnvBindings.FitIn jobs (bindFirst bindings b) := by
  intro pair hpair
  unfold bindFirst at hpair
  split at hpair
  · exact hbindings pair hpair
  · rcases List.mem_append.mp hpair with hpair | hpair
    · exact hbindings pair hpair
    · rw [List.mem_singleton.mp hpair]
      exact hb

theorem foldl_bindFirst_fits {more : List EnvBinding} (hbindings : bindings.FitIn jobs)
    (hmore : ∀ b ∈ more, b.FitsIn jobs) : EnvBindings.FitIn jobs (more.foldl bindFirst bindings) :=
  List.foldlRecOn more bindFirst hbindings fun _ hold b hb => bindFirst_fits hold (hmore b hb)

/-- Whatever way an output gets into a value, it has a name. -/
theorem writtenOutput?_ne_empty {value : Chars} {output : String} (hbindings : bindings.FitIn jobs)
    (hs : s.FitsIn jobs) (h : writtenOutput? bindings s value = some output) : output ≠ "" := by
  unfold writtenOutput? at h
  split at h
  · rename_i called rest hcalled
    cases h
    have hmem : output ∈ Shell.Terraform.outputNames value := by
      rw [hcalled]
      exact List.mem_cons_self
    exact ne_empty_of_mem_outputNames hmem
  · split at h
    · rename_i hmentioned
      cases h
      exact hs.outputs_named output (List.mem_of_find?_eq_some hmentioned)
    · obtain ⟨pair, hpair, rfl⟩ := Option.map_eq_some_iff.mp h
      exact (hbindings pair (List.mem_of_find?_eq_some hpair)).output_named

theorem bindWrite_fits (hbindings : bindings.FitIn jobs) (hs : s.FitsIn jobs) (found : Match) :
    EnvBindings.FitIn jobs (bindWrite s bindings found) := by
  unfold bindWrite
  split
  · rename_i output houtput
    exact bindFirst_fits hbindings ⟨writtenOutput?_ne_empty hbindings hs houtput, hs.job⟩
  · exact hbindings

theorem assignmentBindings_fit (hs : s.FitsIn jobs) {b : EnvBinding} (hb : b ∈ assignmentBindings s) :
    b.FitsIn jobs := by
  obtain ⟨form, hform, hb⟩ := List.mem_flatMap.mp hb
  obtain ⟨found, hfound, rfl⟩ := List.mem_map.mp hb
  refine ⟨?_, hs.job⟩
  exact Match.part_ne_empty (comesFrom_of_mem_findAll hfound)
    (List.all_eq_true.mp assignmentForms_set_name form hform)

theorem bindStep_fits (hbindings : bindings.FitIn jobs) (hs : s.FitsIn jobs) :
    EnvBindings.FitIn jobs (bindStep bindings s) := by
  have hassigned : EnvBindings.FitIn jobs ((assignmentBindings s).foldl bindFirst bindings) :=
    foldl_bindFirst_fits hbindings fun b hb => assignmentBindings_fit hs hb
  exact List.foldlRecOn _ (bindWrite s) hassigned fun _ hold found _ => bindWrite_fits hold hs found

/-- What the Terraform steps of some jobs bind comes from those jobs. -/
theorem foldl_bindStep_fits {steps : List TerraformStep} (hsteps : ∀ s ∈ steps, s.FitsIn jobs) :
    EnvBindings.FitIn jobs (steps.foldl bindStep []) :=
  List.foldlRecOn steps bindStep (fun _ hpair => absurd hpair List.not_mem_nil)
    fun _ hold s hs => bindStep_fits hold (hsteps s hs)

end

theorem mem_of_producerOf? {job output : String} {step : TerraformStep}
    (hstep : producerOf? ctx job output = some step) :
    step ∈ ctx.terraformSteps ∧ step.jobId = job := by
  have hmem : step ∈ ctx.terraformSteps.filter (·.jobId == job) := by
    unfold producerOf? at hstep
    simp only at hstep
    split at hstep
    · rename_i hnaming
      cases hstep
      exact List.mem_of_find?_eq_some hnaming
    · exact List.mem_of_mem_head? hstep
  obtain ⟨hstep, hjob⟩ := List.mem_filter.mp hmem
  exact ⟨hstep, by simpa using hjob⟩

theorem Context.Consistent.step_fits (consistent : ctx.Consistent) {s : TerraformStep}
    (hs : s ∈ ctx.terraformSteps) : s.FitsIn ctx.jobs.names :=
  ⟨consistent.terraform_job s hs, consistent.outputs_named s hs⟩

theorem envEntryBinding?_fits (consistent : ctx.Consistent) {jobId : String}
    (hjob : jobId ∈ ctx.jobs.names) {index : Nat} {stepId : Tree} {entry : Scalar × Tree}
    {b : EnvBinding} (hb : envEntryBinding? ctx jobId index stepId entry = some b) :
    b.FitsIn ctx.jobs.names := by
  unfold envEntryBinding? at hb
  simp only at hb
  split at hb
  · rename_i output rest hcalled
    cases hb
    have hmem : output ∈ Shell.Terraform.outputNames entry.2.written.toList := by
      rw [hcalled]
      exact List.mem_cons_self
    exact ⟨ne_empty_of_mem_outputNames hmem, hjob⟩
  · split at hb
    · rename_i found hneeded
      obtain ⟨step, hstep, rfl⟩ := Option.map_eq_some_iff.mp hb
      refine ⟨?_, consistent.terraform_job step (mem_of_producerOf? hstep).1⟩
      exact Match.part_ne_empty (comesFrom_of_search hneeded) neededOutput_sets_name
    · simp at hb

theorem envTableBindings_fit (consistent : ctx.Consistent) {jobId : String}
    (hjob : jobId ∈ ctx.jobs.names) {job : Table} {b : EnvBinding}
    (hb : b ∈ envTableBindings ctx jobId job) : b.FitsIn ctx.jobs.names := by
  obtain ⟨⟨index, stepId, env⟩, -, hb⟩ := List.mem_flatMap.mp hb
  obtain ⟨entry, -, hb⟩ := List.mem_filterMap.mp hb
  exact envEntryBinding?_fits consistent hjob hb

theorem envBindings_fit (consistent : ctx.Consistent) :
    EnvBindings.FitIn ctx.jobs.names (envBindings ctx) := by
  refine foldl_bindFirst_fits (foldl_bindStep_fits fun s hs => consistent.step_fits hs) ?_
  intro b hb
  obtain ⟨⟨id, job⟩, hjob, hb⟩ := List.mem_flatMap.mp hb
  exact envTableBindings_fit consistent (Entries.mem_names_of_mem hjob) hb

theorem relayCandidates_sound (consistent : ctx.Consistent) (hc : c ∈ relayCandidates ctx) :
    c.Sound ctx .outputToEnv := by
  obtain ⟨h, hh, hc⟩ := List.mem_flatMap.mp hc
  obtain ⟨⟨key, value⟩, -, hc⟩ := List.mem_filterMap.mp hc
  obtain ⟨name, -, hc⟩ := List.exists_of_findSome?_eq_some hc
  obtain ⟨b, hget, rfl⟩ := Option.map_eq_some_iff.mp hc
  have hfits : b.FitsIn ctx.jobs.names :=
    envBindings_fit consistent (name, b) (Entries.mem_of_get? hget)
  refine Candidate.sound_of_target consistent hh rfl rfl hfits.source_job hfits.output_named ?_
  intro e he
  rcases List.mem_append.mp he with he | he
  · simp only [List.mem_cons, List.not_mem_nil, or_false] at he
    rcases he with rfl | rfl <;> exact inScoreRange_int (by decide) (by decide)
  · exact strength_of_mem_ite (dependencyEvidence_strength (by decide)) he

/-! ## Artifacts -/

theorem jobId_of_mem_uploads (consistent : ctx.Consistent) {u : Upload} (hu : u ∈ uploads ctx) :
    u.jobId ∈ ctx.jobs.names := by
  obtain ⟨jobId, hjob, hu⟩ := List.mem_flatMap.mp (mem_sortBy.mp hu)
  obtain ⟨step, hstep, rfl⟩ := List.mem_map.mp (mem_distinct.mp hjob)
  obtain ⟨_, -, rfl⟩ := List.mem_map.mp hu
  exact consistent.terraform_job step hstep

/-- An upload has a name for what it holds, even when no path has a stem. -/
theorem Upload.outputName_ne_empty (u : Upload) : u.outputName ≠ "" := by
  unfold outputName
  split
  · decide
  · cases hfind : (u.paths.map Path.stem).find? fun stem => !(["", "*", "**"].contains stem) with
    | none => decide
    | some stem =>
        have hstem := List.find?_some hfind
        rintro rfl
        simp at hstem

theorem artifactCandidate_sound (consistent : ctx.Consistent) (hh : h ∈ ctx.helmSteps) {u : Upload}
    (hu : u ∈ uploads ctx) (d : Download) :
    (artifactCandidate ctx h u d).Sound ctx .artifactTransfer := by
  refine Candidate.sound_of_target consistent hh rfl rfl (jobId_of_mem_uploads consistent hu)
    u.outputName_ne_empty ?_
  intro e he
  rcases List.mem_append.mp he with he | he
  · rcases List.mem_append.mp he with he | he
    · simp only [List.mem_cons, List.not_mem_nil, or_false] at he
      rcases he with rfl | rfl <;> exact inScoreRange_int (by decide) (by decide)
    · exact strength_of_mem_ite (dependencyEvidence_strength (by decide)) he
  · exact strength_of_mem_ite (inScoreRange_int (by decide) (by decide)) he

theorem artifactCandidates_sound (consistent : ctx.Consistent) (hc : c ∈ artifactCandidates ctx) :
    c.Sound ctx .artifactTransfer := by
  obtain ⟨helmJob, -, hc⟩ := List.mem_flatMap.mp hc
  obtain ⟨u, hu, hc⟩ := List.mem_flatMap.mp hc
  obtain ⟨d, -, hc⟩ := List.mem_flatMap.mp hc
  obtain ⟨h, hh, rfl⟩ := List.mem_map.mp hc
  exact artifactCandidate_sound consistent (List.mem_filter.mp hh).1 (List.mem_filter.mp hu).1 d

end

/-! ## All detectors -/

/-- In a consistent context everything proposed for a pattern is sound. -/
theorem candidates_sound {ctx : Context} (consistent : ctx.Consistent) {pattern : FlowPattern}
    {c : Candidate} (hc : c ∈ pattern.candidates ctx) : c.Sound ctx pattern := by
  cases pattern with
  | directOutput => exact directCandidates_sound consistent hc
  | outputToEnv => exact relayCandidates_sound consistent hc
  | outputToFile => exact fileCandidates_sound consistent hc
  | artifactTransfer => exact artifactCandidates_sound consistent hc
  | _ => exact absurd hc List.not_mem_nil

/-- In a consistent context no detector fails, and all its flows are well formed. -/
theorem detect_wellFormed {ctx : Context} (consistent : ctx.Consistent) {digest : Digest} {d : Detector}
    (hd : d ∈ registeredDetectors digest) :
    ∃ flows, d.detect ctx = .ok flows ∧ ∀ f ∈ flows, f.WellFormedIn ctx d.pattern := by
  rw [detect_of_registered hd]
  exact flowsOf_wellFormed (fun c hc => candidates_sound consistent hc) digest

end DeployTrace
