/-
  DeployTrace/Proofs/StepOrder.lean --- flows inside a job and the order of its steps.

  WHAT THIS FILE IS FOR.  A step can only use what a step before it left behind, so that a flow inside one
  job should not start after the step in which it ends.  The detectors do not demand this.  But each of
  them has a rule which of several steps it takes, and all these rules prefer earlier steps:

      for a direct use the last step before it that names the output, or else the nearest one,

      for a variable the first of its bindings in the whole workflow,

      for a file the first step that writes it, because later ones give a flow with the same key.

  So a flow inside a job starts after the step in which it ends only if no step up to there feeds the
  value in the same way.  Artifacts never stay in one job.
-/
import DeployTrace.Proofs.Detectors
import DeployTrace.Proofs.Memory
import DeployTrace.Proofs.Ranking
import DeployTrace.Proofs.ValueUses

set_option autoImplicit false

namespace DeployTrace

open Text

/-! ## Fed by later steps only -/

/-- The part of a list before the first element that belongs to a later step of a job. -/
def beforeLater {α : Type} (jobOf : α → String) (indexOf : α → Nat) (jobId : String) (index : Nat)
    (xs : List α) : List α :=
  xs.takeWhile fun a => !(jobOf a == jobId && index < indexOf a)

theorem index_le_of_mem_beforeLater {α : Type} {jobOf : α → String} {indexOf : α → Nat} {jobId : String}
    {index : Nat} {xs : List α} {a : α} (ha : a ∈ beforeLater jobOf indexOf jobId index xs)
    (hjob : jobOf a = jobId) : indexOf a ≤ index := by
  have hearly := List.all_eq_true.mp List.all_takeWhile a ha
  simpa [hjob] using hearly

/-- What comes before the later steps comes first. -/
theorem eq_beforeLater_append {α : Type} (jobOf : α → String) (indexOf : α → Nat) (jobId : String)
    (index : Nat) (xs : List α) : ∃ more, xs = beforeLater jobOf indexOf jobId index xs ++ more :=
  ⟨_, List.takeWhile_append_dropWhile.symm⟩

/-- A variable is bound before the later steps of a job come to bind it: by Terraform steps, or, if no
Terraform step of the workflow binds it, by environment tables. -/
def Context.BindsBefore (ctx : Context) (jobId : String) (index : Nat) (name : String) : Prop :=
  Entries.has ((beforeLater TerraformStep.jobId TerraformStep.stepIndex jobId index
    ctx.terraformSteps).foldl bindStep []) name = true ∨
  (Entries.has (ctx.terraformSteps.foldl bindStep []) name = false ∧
    (beforeLater EnvBinding.jobId EnvBinding.stepIndex jobId index (tableBindings ctx)).any
      (·.variableName == name) = true)

/-- A flow ends in a step that is fed, in the way of the flow's pattern, by later steps of the job
only. -/
def Flow.FedLaterOnly (ctx : Context) (f : Flow) : Prop :=
  match f.pattern with
  | .directOutput =>
      (∃ s ∈ ctx.terraformSteps, s.jobId = f.target.jobId ∧ f.source.name ∈ s.outputs) ∧
      ∀ s ∈ ctx.terraformSteps, s.jobId = f.target.jobId → f.source.name ∈ s.outputs →
        f.target.stepIndex < s.stepIndex
  | .outputToEnv =>
      ∃ h ∈ ctx.helmSteps, h.jobId = f.target.jobId ∧ h.stepIndex = f.target.stepIndex ∧
        ∃ value, (f.target.path, value) ∈ h.setValues ∧ ∃ name ∈ referencedVariables value,
          (∃ b, Entries.get? (envBindings ctx) name = some b ∧ b.jobId = f.source.jobId ∧
            b.stepIndex = f.source.stepIndex ∧ b.output = f.source.name) ∧
          ¬ ctx.BindsBefore h.jobId h.stepIndex name
  | .outputToFile =>
      ∃ h ∈ ctx.helmSteps, h.jobId = f.target.jobId ∧ h.stepIndex = f.target.stepIndex ∧
        ∀ s ∈ ctx.terraformSteps, s.jobId = f.target.jobId → ∀ file ∈ jsonFiles s.run,
          ∀ c ∈ fileCandidatesFor ctx h s file, c.target.path = f.target.path →
            f.target.stepIndex < s.stepIndex
  | _ => False

/-! ## Direct uses -/

section

variable {better : TerraformStep → TerraformStep → Bool}

/-- The best step by a size is at most as great as all others. -/
theorem size_foldl_better_le {size : TerraformStep → Nat} (hbetter : ∀ s best, better s best = decide (size s < size best))
    (steps : List TerraformStep) (first : TerraformStep) :
    ∀ s ∈ first :: steps,
      size (steps.foldl (fun best s => if better s best then s else best) first) ≤ size s := by
  induction steps generalizing first with
  | nil =>
      intro s hs
      rw [List.mem_singleton.mp hs]
      exact Nat.le_refl _
  | cons t rest ih =>
      intro s hs
      rw [List.foldl_cons]
      split
      · rename_i hless
        rw [hbetter, decide_eq_true_eq] at hless
        rcases List.mem_cons.mp hs with rfl | hs
        · exact Nat.le_of_lt (Nat.lt_of_le_of_lt (ih t t List.mem_cons_self) hless)
        · exact ih t s hs
      · rename_i hnot
        rw [hbetter, decide_eq_true_eq, Nat.not_lt] at hnot
        have hfirst := ih first first List.mem_cons_self
        rcases List.mem_cons.mp hs with rfl | hs
        · exact hfirst
        · rcases List.mem_cons.mp hs with rfl | hs
          · exact Nat.le_trans hfirst hnot
          · exact ih first s (List.mem_cons_of_mem first hs)

theorem size_bestStep?_le (size : TerraformStep → Nat)
    (hbetter : ∀ s best, better s best = decide (size s < size best)) {steps : List TerraformStep} {step : TerraformStep} (hbest : bestStep? better steps = some step) :
    ∀ s ∈ steps, size step ≤ size s := by
  cases steps with
  | nil => cases hbest
  | cons first rest =>
      cases hbest
      exact size_foldl_better_le hbetter rest first

/-- The step that is taken does not come after the place, or all of them do. -/
theorem nearestStep?_order {index : Nat} {steps : List TerraformStep} {step : TerraformStep}
    (hnearest : nearestStep? index steps = some step) :
    step.stepIndex ≤ index ∨ ∀ s ∈ steps, index < s.stepIndex := by
  unfold nearestStep? at hnearest
  simp only at hnearest
  split at hnearest
  · rename_i hnone
    have hafter : ∀ s ∈ steps, index ≤ s.stepIndex := by
      simpa [List.isEmpty_iff, List.filter_eq_nil_iff] using hnone
    have hleast := size_bestStep?_le (fun s => stepDistance s.stepIndex index) (fun _ _ => rfl) hnearest
    rcases Nat.lt_or_ge index step.stepIndex with hlt | hle
    · refine Or.inr fun s hs => ?_
      have hsize : stepDistance step.stepIndex index ≤ stepDistance s.stepIndex index := hleast s hs
      have hs := hafter s hs
      unfold stepDistance at hsize
      omega
    · exact Or.inl hle
  · have hmem := (List.mem_filter.mp (mem_of_bestStep? hnearest)).2
    exact Or.inl (Nat.le_of_lt (by simpa using hmem))

end

section

variable {workflow : Table} {file : String} {h : HelmStep} {use : DirectUse}

/-- The output of every use of a Helm step is mentioned by a Terraform step at the same place. -/
theorem Context.exists_mentioningStep_of_use (hh : h ∈ (ofTable workflow file).helmSteps)
    (huse : use ∈ directUses h) :
    ∃ s ∈ (ofTable workflow file).terraformSteps, s.jobId = h.jobId ∧ s.stepIndex = h.stepIndex ∧
      contains s.run use.output = true := by
  rcases List.mem_append.mp (mem_of_mem_directUses huse) with huse | huse
  · obtain ⟨⟨key, value⟩, hvalue, huse⟩ := List.mem_flatMap.mp huse
    obtain ⟨found, hfound, rfl⟩ := List.mem_map.mp huse
    obtain ⟨form, hform, hsearch⟩ := List.mem_filterMap.mp hfound
    exact exists_mentioningStep_of_value hh hvalue hform hsearch
  · obtain ⟨found, hfound, rfl⟩ := List.mem_map.mp huse
    obtain ⟨before, rest, hsplit, hmatch⟩ := exists_of_mem_findAll hfound
    obtain ⟨⟨after, rfl⟩, hreads⟩ := reads_of_matchBetween hmatch
    obtain ⟨f, fit, hwhole, hmarks⟩ := reads_inlineSetPattern.mp hreads
    have hname : found.part 1 = f.call.name := by
      rw [Match.part, Match.part?, hmarks]
      rfl
    have hrun : h.run.toList = (before ++ ("--set".toList ++ f.variant ++ (f.between ++ (f.key ++
        '=' :: f.quote)))) ++ (("$(".toList ++ f.space) ++ ("terraform".toList ++ (f.call.tail ++
          (f.spaceAfter ++ ")".toList ++ after)))) := by
      rw [hsplit, hwhole]
      simp [FlagPieces.text_eq, FlagPieces.substitution]
    have hopening : ∀ d ∈ "$(".toList ++ f.space, isWord d = false := by
      intro d hd
      rcases List.mem_append.mp hd with hd | hd
      · exact eq_false_of_any (by decide : "$(".toList.any isWord = false) d hd
      · exact isWord_eq_false_of_isBlank (fit.space d hd)
    change ∃ s ∈ (ofTable workflow file).terraformSteps, s.jobId = h.jobId ∧ s.stepIndex = h.stepIndex ∧
      contains s.run (String.ofList (found.part 1)) = true
    rw [hname]
    exact exists_mentioningStep hh hrun (by simp) hopening fit.call

/-- A direct use is fed by a step that does not come later, or the output is named by later steps only. -/
theorem Context.outputStep?_order (hh : h ∈ (ofTable workflow file).helmSteps)
    (huse : use ∈ directUses h) {step : TerraformStep}
    (hstep : outputStep? (ofTable workflow file) h use.output = some step)
    (hown : step.jobId = h.jobId) :
    step.stepIndex ≤ h.stepIndex ∨
      ((∃ s ∈ (ofTable workflow file).terraformSteps, s.jobId = h.jobId ∧ use.output ∈ s.outputs) ∧
        ∀ s ∈ (ofTable workflow file).terraformSteps, s.jobId = h.jobId → use.output ∈ s.outputs →
          h.stepIndex < s.stepIndex) := by
  obtain ⟨mentioning, hmem, hjob, hindex, hmentions⟩ := exists_mentioningStep_of_use hh huse
  have order := terraformSteps_order workflow file
  generalize ofTable workflow file = ctx at hstep hmem order ⊢
  have hnaming : ∀ s, s ∈ (ctx.terraformSteps.filter (·.outputs.contains use.output)).filter
      (·.jobId == h.jobId) ↔ s ∈ ctx.terraformSteps ∧ use.output ∈ s.outputs ∧ s.jobId = h.jobId := by
    intro s
    simp only [List.mem_filter, List.contains_iff_mem, beq_iff_eq, and_assoc]
  unfold outputStep? at hstep
  simp only at hstep
  split at hstep
  · rename_i near hnear
    cases hstep
    rcases nearestStep?_order hnear with hle | hlater
    · exact Or.inl hle
    · obtain ⟨hs, houtput, -⟩ := (hnaming step).mp (mem_of_nearestStep? hnear)
      refine Or.inr ⟨⟨step, hs, hown, houtput⟩, fun s hs hsJob hsOutput => ?_⟩
      exact hlater s ((hnaming s).mpr ⟨hs, hsOutput, hsJob⟩)
  · rename_i hnone
    -- No step of the job names the output, also when the job depends on itself.
    have hempty : ∀ s ∈ ctx.terraformSteps, s.jobId = h.jobId → use.output ∉ s.outputs := by
      intro s hs hsJob hsOutput
      obtain ⟨near, hnear⟩ :=
        exists_nearestStep? h.stepIndex (List.ne_nil_of_mem ((hnaming s).mpr ⟨hs, hsOutput, hsJob⟩))
      rw [hnone] at hnear
      cases hnear
    split at hstep
    · rename_i needed hneeded
      cases hstep
      obtain ⟨job, -, hfind⟩ := List.exists_of_findSome?_eq_some hneeded
      obtain ⟨hs, hsOutput⟩ := List.mem_filter.mp (List.mem_of_find?_eq_some hfind)
      exact absurd (by simpa using hsOutput) (hempty step hs hown)
    · -- The first step anywhere that mentions the output; the Helm step's own text does.
      obtain ⟨-, before, after, hsplit, hbefore⟩ := List.find?_eq_some_iff_append.mp hstep
      rw [hsplit] at hmem order
      rcases List.mem_append.mp hmem with hmem | hmem
      · have hnot := hbefore mentioning hmem
        simp [hmentions] at hnot
      · rcases List.mem_cons.mp hmem with rfl | hmem
        · exact Or.inl (Nat.le_of_eq hindex)
        · have hlt := (List.pairwise_cons.mp (List.pairwise_append.mp order).2.1).1 mentioning hmem
          have := hlt (hown.trans hjob.symm)
          exact Or.inl (by omega)

end

/-! ## Variables -/

section

variable {bindings : EnvBindings} {steps : List TerraformStep} {s : TerraformStep}
variable {pair : String × EnvBinding}

theorem mem_bindFirst {b : EnvBinding} (h : pair ∈ bindFirst bindings b) :
    pair ∈ bindings ∨ pair.2 = b := by
  unfold bindFirst at h
  split at h
  · exact Or.inl h
  · rcases List.mem_append.mp h with h | h
    · exact Or.inl h
    · rw [List.mem_singleton.mp h]
      exact Or.inr rfl

/-- What a Terraform step binds newly, it binds for itself. -/
theorem mem_bindStep (h : pair ∈ bindStep bindings s) :
    pair ∈ bindings ∨ (pair.2.jobId = s.jobId ∧ pair.2.stepIndex = s.stepIndex) := by
  have hassigned : ∀ pair ∈ (assignmentBindings s).foldl bindFirst bindings,
      pair ∈ bindings ∨ (pair.2.jobId = s.jobId ∧ pair.2.stepIndex = s.stepIndex) := by
    refine List.foldlRecOn (motive := fun bs : EnvBindings => ∀ pair ∈ bs,
      pair ∈ bindings ∨ (pair.2.jobId = s.jobId ∧ pair.2.stepIndex = s.stepIndex))
      (assignmentBindings s) bindFirst (fun _ hold => Or.inl hold) ?_
    intro bs hold b hb pair hpair
    rcases mem_bindFirst hpair with hpair | hpair
    · exact hold pair hpair
    · obtain ⟨form, -, hb⟩ := List.mem_flatMap.mp hb
      obtain ⟨found, -, rfl⟩ := List.mem_map.mp hb
      rw [hpair]
      exact Or.inr ⟨rfl, rfl⟩
  revert pair
  refine List.foldlRecOn (motive := fun bs : EnvBindings => ∀ {pair}, pair ∈ bs →
    pair ∈ bindings ∨ (pair.2.jobId = s.jobId ∧ pair.2.stepIndex = s.stepIndex))
    _ (bindWrite s) (hassigned _) ?_
  intro bs hold found _ pair hpair
  unfold bindWrite at hpair
  split at hpair
  · rcases mem_bindFirst hpair with hpair | hpair
    · exact hold hpair
    · rw [hpair]
      exact Or.inr ⟨rfl, rfl⟩
  · exact hold hpair

/-- What Terraform steps bind, one of them binds for itself. -/
theorem exists_binder (h : pair ∈ steps.foldl bindStep []) :
    ∃ s ∈ steps, pair.2.jobId = s.jobId ∧ pair.2.stepIndex = s.stepIndex := by
  revert pair
  refine List.foldlRecOn (motive := fun bs : EnvBindings => ∀ {pair}, pair ∈ bs →
    ∃ s ∈ steps, pair.2.jobId = s.jobId ∧ pair.2.stepIndex = s.stepIndex) steps bindStep
    (fun hpair => absurd hpair List.not_mem_nil) ?_
  intro bs hold s hs pair hpair
  rcases mem_bindStep hpair with hpair | hmade
  · exact hold hpair
  · exact ⟨s, hs, hmade⟩

end

/-- A variable that a later step of a job is the first to bind is not bound before. -/
theorem Context.not_bindsBefore {ctx : Context} {jobId name : String} {index : Nat} {b : EnvBinding}
    (hb : Entries.get? (envBindings ctx) name = some b) (hjob : b.jobId = jobId)
    (hlater : index < b.stepIndex) : ¬ ctx.BindsBefore jobId index name := by
  rintro (hsteps | ⟨hnone, htables⟩)
  · obtain ⟨g, hg⟩ := get?_of_has hsteps
    obtain ⟨more, hsplit⟩ := eq_beforeLater_append TerraformStep.jobId TerraformStep.stepIndex jobId
      index ctx.terraformSteps
    have hfirst := get?_envBindings_of_steps hsplit hg
    rw [hb] at hfirst
    cases hfirst
    obtain ⟨s, hs, hsJob, hsIndex⟩ := exists_binder (Entries.mem_of_get? hg)
    have hearly : s.stepIndex ≤ index := index_le_of_mem_beforeLater hs (hsJob.symm.trans hjob)
    exact absurd (Nat.lt_of_lt_of_eq hlater hsIndex) (Nat.not_lt.mpr hearly)
  · rw [get?_envBindings, get?_of_not_has hnone, Option.none_or] at hb
    have hsome : ((beforeLater EnvBinding.jobId EnvBinding.stepIndex jobId index
        (tableBindings ctx)).find? (·.variableName == name)).isSome = true := by
      rw [List.find?_isSome]
      exact List.any_eq_true.mp htables
    obtain ⟨g, hg⟩ := Option.isSome_iff_exists.mp hsome
    obtain ⟨more, hsplit⟩ := eq_beforeLater_append EnvBinding.jobId EnvBinding.stepIndex jobId index
      (tableBindings ctx)
    rw [hsplit, List.find?_append, hg, Option.some_or] at hb
    cases hb
    have hearly := index_le_of_mem_beforeLater (List.mem_of_find?_eq_some hg) hjob
    omega

/-! ## Files -/

/-- Of two proposals for one step from steps of one job, the one from the earlier step comes first. -/
def EndsInOrder (a b : OutputSource × ValueTarget) : Prop :=
  a.2.jobId = b.2.jobId → a.2.stepIndex = b.2.stepIndex → a.1.jobId = b.1.jobId →
    a.1.stepIndex ≤ b.1.stepIndex

/-- The candidates for a file and a Helm step start from the step that writes the file and end in the
Helm step. -/
theorem ends_of_mem_fileCandidatesFor {ctx : Context} {h : HelmStep} {s : TerraformStep} {file : String}
    {c : Candidate} (hc : c ∈ fileCandidatesFor ctx h s file) :
    c.source = jsonSource ctx s ∧ c.target = ctx.target h c.target.path .valuesFile := by
  unfold fileCandidatesFor at hc
  split at hc
  · rw [Option.mem_toList] at hc
    obtain ⟨valuesFile, -, rfl⟩ := Option.map_eq_some_iff.mp hc
    exact ⟨rfl, rfl⟩
  · obtain ⟨q, -, rfl⟩ := List.mem_map.mp hc
    exact ⟨rfl, rfl⟩

theorem mem_fileCandidates {ctx : Context} {c : Candidate} :
    c ∈ fileCandidates ctx ↔ ∃ h ∈ ctx.helmSteps, ∃ s ∈ ctx.terraformSteps, ∃ file ∈ jsonFiles s.run,
      c ∈ fileCandidatesFor ctx h s file := by
  unfold fileCandidates writtenFiles
  simp only [List.mem_flatMap, List.mem_map]
  constructor
  · rintro ⟨h, hh, _, ⟨s, hs, file, hfile, rfl⟩, hc⟩
    exact ⟨h, hh, s, hs, file, hfile, hc⟩
  · rintro ⟨h, hh, s, hs, file, hfile, hc⟩
    exact ⟨h, hh, (s, file), ⟨s, hs, file, hfile, rfl⟩, hc⟩

/-- The files that are written stand in the order of the steps. -/
theorem writtenFiles_order (workflow : Table) (file : String) :
    (writtenFiles (.ofTable workflow file)).Pairwise fun a b =>
      a.1.jobId = b.1.jobId → a.1.stepIndex ≤ b.1.stepIndex := by
  refine List.pairwise_flatMap.mpr ⟨?_, ?_⟩
  · intro s _
    refine List.pairwise_map.mpr (List.pairwise_of_forall fun _ _ _ => Nat.le_refl _)
  · refine (Context.terraformSteps_order workflow file).imp ?_
    intro s t hlt a ha b hb hsame
    obtain ⟨_, -, rfl⟩ := List.mem_map.mp ha
    obtain ⟨_, -, rfl⟩ := List.mem_map.mp hb
    exact Nat.le_of_lt (hlt hsame)

/-- The candidates of files stand in the order of the steps that write them. -/
theorem fileCandidates_order (workflow : Table) (file : String) :
    ((fileCandidates (.ofTable workflow file)).map fun c => (c.source, c.target)).Pairwise
      EndsInOrder := by
  refine List.pairwise_map.mpr (List.pairwise_flatMap.mpr ⟨?_, ?_⟩)
  · intro h _
    refine List.pairwise_flatMap.mpr ⟨?_, ?_⟩
    · rintro ⟨s, written⟩ -
      refine List.pairwise_of_forall_mem_list fun a ha b hb => ?_
      have hsource : a.source = b.source :=
        (ends_of_mem_fileCandidatesFor ha).1.trans (ends_of_mem_fileCandidatesFor hb).1.symm
      intro _ _ _
      exact Nat.le_of_eq (congrArg OutputSource.stepIndex hsource)
    · refine (writtenFiles_order workflow file).imp ?_
      rintro ⟨s, _⟩ ⟨t, _⟩ hle a ha b hb _ _ hsame
      rw [(ends_of_mem_fileCandidatesFor ha).1, (ends_of_mem_fileCandidatesFor hb).1] at hsame ⊢
      exact hle hsame
  · refine (Context.helmSteps_order workflow file).imp ?_
    -- Two Helm steps are never at one place.
    intro h g hlt a ha b hb hjob hindex _
    obtain ⟨⟨s, _⟩, -, ha⟩ := List.mem_flatMap.mp ha
    obtain ⟨⟨t, _⟩, -, hb⟩ := List.mem_flatMap.mp hb
    rw [(ends_of_mem_fileCandidatesFor ha).2, (ends_of_mem_fileCandidatesFor hb).2] at hjob hindex
    exact absurd hindex (Nat.ne_of_lt (hlt hjob))

section

variable {digest : Digest} {workflow : Table} {file : String} {flows : List Flow} {seen : List FlowKey}
variable {f : Flow}

/-- A flow of a file that stays starts from the first step of its job that writes a file for the
value. -/
theorem source_first_of_file
    (hflows : flowsOf digest (.ofTable workflow file) (fileCandidates (.ofTable workflow file)) = .ok flows)
    (hf : f ∈ firstBy Flow.key seen flows) (hown : f.source.jobId = f.target.jobId) :
    ∃ h ∈ (Context.ofTable workflow file).helmSteps, h.jobId = f.target.jobId ∧
      h.stepIndex = f.target.stepIndex ∧
      ∀ s ∈ (Context.ofTable workflow file).terraformSteps, s.jobId = f.target.jobId →
        ∀ written ∈ jsonFiles s.run, ∀ c ∈ fileCandidatesFor (.ofTable workflow file) h s written,
          c.target.path = f.target.path → f.source.stepIndex ≤ s.stepIndex := by
  have order : flows.Pairwise fun a b => EndsInOrder (a.source, a.target) (b.source, b.target) := by
    have hends := fileCandidates_order workflow file
    rw [← flowsOf_ends hflows] at hends
    exact List.pairwise_map.mp hends
  obtain ⟨c, hc, hmade⟩ := (flowsOf_mem hflows).1 f ((firstBy_sublist seen flows).subset hf)
  obtain ⟨hsource, htarget⟩ := Candidate.flow_ends hmade
  obtain ⟨h, hh, producer, -, _, -, hc⟩ := mem_fileCandidates.mp hc
  obtain ⟨hcSource, hcTarget⟩ := ends_of_mem_fileCandidatesFor hc
  have hjob : h.jobId = f.target.jobId := by
    rw [htarget, hcTarget]
    rfl
  have hindex : h.stepIndex = f.target.stepIndex := by
    rw [htarget, hcTarget]
    rfl
  have hname : f.source.name = "json_outputs" := by
    rw [hsource, hcSource]
    rfl
  refine ⟨h, hh, hjob, hindex, ?_⟩
  intro s hs hsJob written hwritten other hother hpath
  obtain ⟨g, hg, hgMade⟩ := (flowsOf_mem hflows).2 other
    (mem_fileCandidates.mpr ⟨h, hh, s, hs, written, hwritten, hother⟩)
  obtain ⟨hgSource, hgTarget⟩ := Candidate.flow_ends hgMade
  obtain ⟨hotherSource, hotherTarget⟩ := ends_of_mem_fileCandidatesFor hother
  have hgFrom : g.source = jsonSource (.ofTable workflow file) s := hgSource.trans hotherSource
  have hgTo : g.target = (Context.ofTable workflow file).target h other.target.path .valuesFile :=
    hgTarget.trans hotherTarget
  have hkey : g.key = f.key := by
    unfold Flow.key
    rw [hgFrom, hgTo, hname, hown]
    simp [jsonSource, Context.target, hsJob, hjob, hpath]
  have hsIndex : g.source.stepIndex = s.stepIndex := by
    rw [hgFrom]
    rfl
  rw [← hsIndex]
  rcases first_of_mem_firstBy order hf hg hkey with rfl | hfirst
  · exact Nat.le_refl _
  · refine hfirst ?_ ?_ ?_
    · rw [hgTo]
      exact hjob.symm
    · rw [hgTo]
      exact hindex.symm
    · rw [hgFrom, hown]
      exact hsJob.symm

end

/-- The flow of a file stays in order, or later steps only write files for the value. -/
theorem file_forward {digest : Digest} {workflow : Table} {file : String} {flows : List Flow}
    {seen : List FlowKey} {f : Flow} (hpattern : f.pattern = .outputToFile)
    (hflows : flowsOf digest (.ofTable workflow file) (fileCandidates (.ofTable workflow file)) = .ok flows)
    (hf : f ∈ firstBy Flow.key seen flows) (hown : f.source.jobId = f.target.jobId) :
    f.source.stepIndex ≤ f.target.stepIndex ∨ f.FedLaterOnly (.ofTable workflow file) := by
  obtain ⟨h, hh, hjob, hindex, hfirst⟩ := source_first_of_file hflows hf hown
  refine (Nat.lt_or_ge f.target.stepIndex f.source.stepIndex).symm.imp_right fun hlater => ?_
  unfold Flow.FedLaterOnly
  rw [hpattern]
  refine ⟨h, hh, hjob, hindex, ?_⟩
  intro s hs hsJob written hwritten c hc hpath
  exact Nat.lt_of_lt_of_le hlater (hfirst s hs hsJob written hwritten c hc hpath)

/-! ## Candidates in order -/

section

variable {workflow : Table} {file : String} {c : Candidate} {f : Flow}

/-- The flow of a direct use stays in order, or later steps only name the output. -/
theorem direct_forward (hc : c ∈ directCandidates (.ofTable workflow file))
    (hpattern : f.pattern = .directOutput) (hsource : f.source = c.source) (htarget : f.target = c.target)
    (hown : f.source.jobId = f.target.jobId) :
    f.source.stepIndex ≤ f.target.stepIndex ∨ f.FedLaterOnly (.ofTable workflow file) := by
  obtain ⟨h, hh, hc⟩ := List.mem_flatMap.mp hc
  obtain ⟨use, huse, hc⟩ := List.mem_filterMap.mp hc
  obtain ⟨step, hstep, rfl⟩ := Option.map_eq_some_iff.mp hc
  unfold Flow.FedLaterOnly
  rw [hpattern]
  rw [hsource, htarget] at hown ⊢
  exact Context.outputStep?_order hh huse hstep hown

/-- The flow of a variable stays in order, or a later step is the first to bind the variable. -/
theorem relay_forward (hc : c ∈ relayCandidates (.ofTable workflow file))
    (hpattern : f.pattern = .outputToEnv) (hsource : f.source = c.source) (htarget : f.target = c.target)
    (hown : f.source.jobId = f.target.jobId) :
    f.source.stepIndex ≤ f.target.stepIndex ∨ f.FedLaterOnly (.ofTable workflow file) := by
  obtain ⟨h, hh, hc⟩ := List.mem_flatMap.mp hc
  obtain ⟨⟨key, value⟩, hvalue, hc⟩ := List.mem_filterMap.mp hc
  obtain ⟨name, hname, hc⟩ := List.exists_of_findSome?_eq_some hc
  obtain ⟨b, hb, rfl⟩ := Option.map_eq_some_iff.mp hc
  unfold Flow.FedLaterOnly
  rw [hpattern]
  rw [hsource, htarget] at hown ⊢
  refine (Nat.lt_or_ge h.stepIndex b.stepIndex).symm.imp_right fun hlater => ?_
  exact ⟨h, hh, rfl, rfl, value, hvalue, name, hname, ⟨b, hb, rfl, rfl, rfl⟩,
    Context.not_bindsBefore hb hown hlater⟩

/-- An artifact comes from another job. -/
theorem artifact_leaves_job {ctx : Context} (hc : c ∈ artifactCandidates ctx) :
    c.source.jobId ≠ c.target.jobId := by
  obtain ⟨job, -, hc⟩ := List.mem_flatMap.mp hc
  obtain ⟨u, hu, hc⟩ := List.mem_flatMap.mp hc
  obtain ⟨d, -, hc⟩ := List.mem_flatMap.mp hc
  obtain ⟨h, hh, rfl⟩ := List.mem_map.mp hc
  have hother : u.jobId ≠ job := by simpa using (List.mem_filter.mp hu).2
  have hjob : h.jobId = job := by
    have hkept := (List.mem_filter.mp hh).2
    rw [Bool.and_eq_true, beq_iff_eq] at hkept
    exact hkept.1
  exact fun hsame => hother (hsame.trans hjob)

end

/-! ## What is reported -/

section

variable {digest : Digest} {options : DetectorOptions} {ctx : Context} {d : Detector}

theorem detect_of_detectedBy (hne : detectedBy options ctx d ≠ []) :
    d.detect ctx = .ok (detectedBy options ctx d) := by
  unfold detectedBy at hne ⊢
  split at hne
  · rename_i hruns
    rw [if_pos hruns]
    split at hne
    · rename_i flows hflows
      rw [hflows]
    · exact absurd rfl hne
  · exact absurd rfl hne

/-- What is reported is the first of its key and sure enough. -/
theorem mem_atLeast_of_mem_selectFlows {lists : List (List Flow)} {f : Flow}
    (hf : f ∈ selectFlows options lists) : f ∈ atLeast options.minConfidence (mergeFlows lists) :=
  mem_sortBy.mp (keepFirst_subset _ _ hf)

theorem mem_mergeFlows_of_mem_selectFlows {lists : List (List Flow)} {f : Flow}
    (hf : f ∈ selectFlows options lists) : f ∈ mergeFlows lists :=
  (List.mem_filter.mp (mem_atLeast_of_mem_selectFlows hf)).1

/-- A flow that is reported stays of the flows that one detector finds. -/
theorem exists_detector_of_mem_flowsInContext {detectors : List Detector} {f : Flow}
    (hf : f ∈ flowsInContext options detectors ctx) :
    ∃ d ∈ detectors, ∃ found seen, d.detect ctx = .ok found ∧ f ∈ firstBy Flow.key seen found := by
  unfold flowsInContext at hf
  split at hf
  · have hmerged := mem_mergeFlows_of_mem_selectFlows hf
    unfold mergeFlows at hmerged
    rw [firstByKey_eq_firstBy] at hmerged
    obtain ⟨found, hfound, seen, hstays⟩ := mem_firstBy_flatten hmerged
    rw [foundFlows_eq_map] at hfound
    obtain ⟨d, hd, rfl⟩ := List.mem_map.mp hfound
    have hmem := (firstBy_sublist seen _).subset hstays
    exact ⟨d, hd, _, seen, detect_of_detectedBy (List.ne_nil_of_mem hmem), hstays⟩
  · cases hf

/-- A flow that is reported for a workflow stays of those of a registered detector. -/
theorem exists_detector_of_reported {workflow : Table} {file : String} {flows : List Flow}
    (hflows : detectFlows digest options (.table workflow) file = .ok flows) {f : Flow} (hf : f ∈ flows) :
    ∃ d ∈ registeredDetectors digest, ∃ found seen, d.detect (.ofTable workflow file) = .ok found ∧
      f ∈ firstBy Flow.key seen found := by
  rw [detectFlows_table] at hflows
  cases hflows
  obtain ⟨d, hd, found⟩ := exists_detector_of_mem_flowsInContext hf
  exact ⟨d, mem_sortBy.mp hd, found⟩

/-- A flow that is reported fits the context of its workflow. -/
theorem wellFormed_of_reported {workflow : Table} {file : String} {flows : List Flow}
    (hflows : detectFlows digest options (.table workflow) file = .ok flows) {f : Flow} (hf : f ∈ flows) :
    ∃ pattern, f.WellFormedIn (.ofTable workflow file) pattern := by
  obtain ⟨d, hd, found, seen, hfound, hstays⟩ := exists_detector_of_reported hflows hf
  obtain ⟨own, hown, hwell⟩ := detect_wellFormed (Context.ofTable_consistent workflow file) hd
  rw [hfound] at hown
  cases hown
  exact ⟨d.pattern, hwell f ((firstBy_sublist seen found).subset hstays)⟩

end

/-- Every flow that is reported for a workflow and stays inside one job starts no later than it ends, or
the step in which it ends is fed in the flow's way by later steps of the job only. -/
theorem detectFlows_forward {digest : Digest} {options : DetectorOptions} {workflow : Table}
    {file : String} {flows : List Flow}
    (hflows : detectFlows digest options (.table workflow) file = .ok flows) :
    ∀ f ∈ flows, f.source.jobId = f.target.jobId →
      f.source.stepIndex ≤ f.target.stepIndex ∨ f.FedLaterOnly (.ofTable workflow file) := by
  intro f hf hown
  obtain ⟨d, hd, found, seen, hfound, hstays⟩ := exists_detector_of_reported hflows hf
  have hmem : f ∈ found := (firstBy_sublist seen found).subset hstays
  have pattern_eq : f.pattern = d.pattern := by
    obtain ⟨others, hothers, hwell⟩ :=
      detect_wellFormed (Context.ofTable_consistent workflow file) hd
    rw [hfound] at hothers
    cases hothers
    exact (hwell f hmem).pattern_eq
  simp only [registeredDetectors, List.mem_cons, List.not_mem_nil, or_false] at hd
  rcases hd with rfl | rfl | rfl | rfl
  · obtain ⟨c, hc, hmade⟩ := (flowsOf_mem hfound).1 f hmem
    obtain ⟨hsource, htarget⟩ := Candidate.flow_ends hmade
    exact direct_forward hc pattern_eq hsource htarget hown
  · obtain ⟨c, hc, hmade⟩ := (flowsOf_mem hfound).1 f hmem
    obtain ⟨hsource, htarget⟩ := Candidate.flow_ends hmade
    exact relay_forward hc pattern_eq hsource htarget hown
  · exact file_forward pattern_eq hfound hstays hown
  · obtain ⟨c, hc, hmade⟩ := (flowsOf_mem hfound).1 f hmem
    obtain ⟨hsource, htarget⟩ := Candidate.flow_ends hmade
    rw [hsource, htarget] at hown
    exact absurd hown (artifact_leaves_job hc)

/-! ### A flow forward and one backward -/

/-- A workflow of one job with a script. -/
def scriptWorkflow (lines : List String) : Table :=
  [(.text "d", .table [(.text "script", .list (lines.map .text))])]

/-- The indices of the steps at both ends of each flow. -/
def stepIndices (result : Except SessionFault (List Flow)) : List (Nat × Nat) :=
  (result.toOption.getD []).map fun f => (f.source.stepIndex, f.target.stepIndex)

/-- A step that uses an output directly, and a variable that the next step binds. -/
def forwardAndBackward : Table :=
  scriptWorkflow ["helm --set k=$V --set m=$(terraform output y)", "V=$(terraform output x)"]

/-- Of the two flows one starts later than it ends, and its variable is bound by a later step only. -/
theorem detectFlows_forward_mixed :
    stepIndices (detectFlows plainDigest {} (.table forwardAndBackward) "ci.yml") = [(0, 0), (1, 0)] ∧
      ∃ flows, detectFlows plainDigest {} (.table forwardAndBackward) "ci.yml" = .ok flows ∧
        ∀ f ∈ flows, f.source.jobId = f.target.jobId →
          f.source.stepIndex ≤ f.target.stepIndex ∨
            f.FedLaterOnly (.ofTable forwardAndBackward "ci.yml") := by
  refine ⟨by decide +kernel, _, detectFlows_table forwardAndBackward, ?_⟩
  exact detectFlows_forward (detectFlows_table forwardAndBackward)

/-! ### Flows backward -/

/-- Reported flows of a pattern that stay inside one job never start later than they end. -/
def FlowPattern.AlwaysForward (pattern : FlowPattern) : Prop :=
  ∀ (digest : Digest) (options : DetectorOptions) (workflow : Table) (file : String)
    (flows : List Flow), detectFlows digest options (.table workflow) file = .ok flows →
    ∀ f ∈ flows, f.pattern = pattern → f.source.jobId = f.target.jobId →
      f.source.stepIndex ≤ f.target.stepIndex

/-- A flow of a pattern that stays in its job and starts later than it ends. -/
def isBackward (pattern : FlowPattern) (f : Flow) : Bool :=
  f.pattern == pattern && f.source.jobId == f.target.jobId && decide (f.target.stepIndex < f.source.stepIndex)

theorem not_alwaysForward {pattern : FlowPattern} (lines : List String)
    (hback : (flowsInContext {} (detectors plainDigest) (.ofTable (scriptWorkflow lines) "ci.yml")).any
      (isBackward pattern) = true) : ¬ pattern.AlwaysForward := by
  intro forward
  obtain ⟨f, hf, hback⟩ := List.any_eq_true.mp hback
  simp only [isBackward, Bool.and_eq_true, beq_iff_eq, decide_eq_true_eq] at hback
  obtain ⟨⟨hpattern, hown⟩, hlater⟩ := hback
  have hle := forward plainDigest {} (scriptWorkflow lines) "ci.yml" _
    (detectFlows_table (scriptWorkflow lines)) f hf hpattern hown
  exact absurd hle (Nat.not_le.mpr hlater)

/-- Flows inside one job may start later than they end, whether they are direct or pass through a
variable or a file. -/
theorem reported_backward : ¬ FlowPattern.directOutput.AlwaysForward ∧
    ¬ FlowPattern.outputToEnv.AlwaysForward ∧ ¬ FlowPattern.outputToFile.AlwaysForward := by
  refine ⟨not_alwaysForward ["helm --set k=$(terraform output -state=/$(terraform output x) y)",
    "terraform output x"] ?_, not_alwaysForward ["helm --set k=$V", "V=$(terraform output x)"] ?_,
    not_alwaysForward ["helm upgrade a b -f <(jq '.vpc' out.json)",
      "terraform output -json > out.json"] ?_⟩
  · decide +kernel
  · decide +kernel
  · decide +kernel

end DeployTrace
