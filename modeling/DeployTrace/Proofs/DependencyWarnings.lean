/-
  DeployTrace/Proofs/DependencyWarnings.lean --- when the evidence and the warnings disagree on a dependency.

  WHAT THIS FILE IS FOR.  Two things are said of a flow between two jobs.  Its evidence may say that the
  target declares a dependency on the source, and a warning may say that it does not.  Detectors give the
  evidence also where one job stands between the two; the warning asks for what the target itself declares.

  WHAT HOLDS.  It is shown here which flows have both: those whose target declares to depend on a job that
  declares to depend on the source, but not on the source itself.  Every detector gives the evidence to all
  of them, except that a values file which merely looks related to what a step writes has none.
-/
import DeployTrace.Proofs.AnalysisCounts

set_option autoImplicit false

namespace DeployTrace

/-! ## What evidence says -/

/-- Evidence of a flow says that its target declares a dependency on its source. -/
def Flow.ClaimsDependency (f : Flow) : Prop := ∃ e ∈ f.evidence, e.kind = .jobDependency

instance : DecidablePred Flow.ClaimsDependency := fun f =>
  inferInstanceAs (Decidable (∃ e ∈ f.evidence, e.kind = .jobDependency))

/-- A job declares a dependency on another one, or on a job that does. -/
def DependsWithinTwo (workflow : Table) (job other : String) : Prop :=
  Declares workflow job other ∨ ∃ between, Declares workflow job between ∧ Declares workflow between other

/-- A flow between two jobs of which the second does not declare to depend on the first, but on a job that
does. -/
def Flow.DependsThroughOne (workflow : Table) (f : Flow) : Prop :=
  f.Undeclared workflow ∧ ∃ between,
    Declares workflow f.target.jobId between ∧ Declares workflow between f.source.jobId

/-- The later of two different jobs depends on the earlier one, directly or with one job between them. -/
def Context.Leads (ctx : Context) (source target : String) : Prop :=
  source ≠ target ∧ ctx.dependsOn target source = true

/-- The evidence of a proposal about the dependency between its jobs. -/
structure Candidate.TellsDependency (ctx : Context) (c : Candidate) : Prop where
  text : ∀ e ∈ c.evidence, e.kind = .jobDependency →
    ∃ strength, e = dependencyEvidence c.source.jobId c.target.jobId strength
  sound : ∀ e ∈ c.evidence, e.kind = .jobDependency → ctx.Leads c.source.jobId c.target.jobId
  /-- the evidence is only left out for some files -/
  complete : c.pattern ≠ .outputToFile → ctx.Leads c.source.jobId c.target.jobId →
    ∃ e ∈ c.evidence, e.kind = .jobDependency

section

variable {ctx : Context} {c : Candidate}

/-- Evidence of a dependency that is given on a condition, among evidence of other kinds. -/
theorem Candidate.TellsDependency.of_evidence {fixed more : List Evidence} {given : Bool} {strength : Number}
    (hevidence : c.evidence = fixed ++
      (if given then [dependencyEvidence c.source.jobId c.target.jobId strength] else []) ++ more)
    (others : ∀ e ∈ fixed ++ more, e.kind ≠ .jobDependency)
    (hgiven : given = true ↔ ctx.Leads c.source.jobId c.target.jobId) : c.TellsDependency ctx := by
  have own : ∀ e ∈ c.evidence, e.kind = .jobDependency →
      given = true ∧ e = dependencyEvidence c.source.jobId c.target.jobId strength := by
    intro e he hkind
    rw [hevidence] at he
    rcases List.mem_append.mp he with he | he
    · rcases List.mem_append.mp he with he | he
      · exact absurd hkind (others e (List.mem_append_left _ he))
      · split at he
        · rename_i hif
          exact ⟨hif, List.mem_singleton.mp he⟩
        · cases he
    · exact absurd hkind (others e (List.mem_append_right _ he))
  constructor
  · exact fun e he hkind => ⟨strength, (own e he hkind).2⟩
  · exact fun e he hkind => hgiven.mp (own e he hkind).1
  · intro _ hleads
    refine ⟨dependencyEvidence c.source.jobId c.target.jobId strength, ?_, rfl⟩
    rw [hevidence, hgiven.mpr hleads]
    simp

/-! ## The detectors -/

theorem leads_of_ne_iff {source target : String} :
    (source != target && ctx.dependsOn target source) = true ↔ ctx.Leads source target := by
  unfold Context.Leads
  rw [Bool.and_eq_true, bne_iff_ne]

/-- The place of the two steps gives evidence of a dependency between jobs, and evidence of another kind
inside a job. -/
theorem exists_placeEvidence_eq (ctx : Context) (h : HelmStep) (step : TerraformStep) :
    ∃ more, (∀ e ∈ more, e.kind ≠ .jobDependency) ∧ placeEvidence ctx h step =
      (if step.jobId != h.jobId && ctx.dependsOn h.jobId step.jobId then
        [dependencyEvidence step.jobId h.jobId 85] else []) ++ more := by
  unfold placeEvidence
  by_cases hjob : step.jobId = h.jobId
  · rw [bne_eq_false_iff_eq.mpr hjob]
    exact ⟨_, by simp, rfl⟩
  · rw [bne_iff_ne.mpr hjob]
    exact ⟨[], by simp, (List.append_nil _).symm⟩

theorem tells_directCandidates (hc : c ∈ directCandidates ctx) : c.TellsDependency ctx := by
  obtain ⟨h, -, hc⟩ := List.mem_flatMap.mp hc
  obtain ⟨use, -, hc⟩ := List.mem_filterMap.mp hc
  obtain ⟨step, -, rfl⟩ := Option.map_eq_some_iff.mp hc
  obtain ⟨more, hmore, hplace⟩ := exists_placeEvidence_eq ctx h step
  refine .of_evidence ((congrArg _ hplace).trans (List.append_assoc _ _ _).symm) ?_ leads_of_ne_iff
  intro e he
  rcases List.mem_append.mp he with he | he
  · simp only [List.mem_cons, List.not_mem_nil, or_false] at he
    rcases he with rfl | rfl <;> simp
  · exact hmore e he

theorem tells_relayCandidates (hc : c ∈ relayCandidates ctx) : c.TellsDependency ctx := by
  obtain ⟨h, -, hc⟩ := List.mem_flatMap.mp hc
  obtain ⟨⟨key, value⟩, -, hc⟩ := List.mem_filterMap.mp hc
  obtain ⟨name, -, hc⟩ := List.exists_of_findSome?_eq_some hc
  obtain ⟨b, -, rfl⟩ := Option.map_eq_some_iff.mp hc
  refine .of_evidence (List.append_nil _).symm ?_ leads_of_ne_iff
  simp

theorem tells_fileCandidates (hc : c ∈ fileCandidates ctx) : c.TellsDependency ctx := by
  obtain ⟨h, -, step, -, file, -, hc⟩ := mem_fileCandidates.mp hc
  unfold fileCandidatesFor at hc
  split at hc
  · obtain ⟨valuesFile, -, rfl⟩ := Option.map_eq_some_iff.mp (Option.mem_toList.mp hc)
    have other : ∀ e ∈ (relatedCandidate ctx h step file valuesFile).evidence, e.kind ≠ .jobDependency := by
      simp [relatedCandidate]
    exact {
      text := fun e he hkind => absurd hkind (other e he)
      sound := fun e he hkind => absurd hkind (other e he)
      complete := fun hpattern => absurd rfl hpattern }
  · obtain ⟨q, -, rfl⟩ := List.mem_map.mp hc
    refine .of_evidence (List.append_nil _).symm ?_ leads_of_ne_iff
    simp

theorem tells_artifactCandidates (hc : c ∈ artifactCandidates ctx) : c.TellsDependency ctx := by
  have hleaves := artifact_leaves_job hc
  obtain ⟨helmJob, -, hc⟩ := List.mem_flatMap.mp hc
  obtain ⟨u, -, hc⟩ := List.mem_flatMap.mp hc
  obtain ⟨d, -, hc⟩ := List.mem_flatMap.mp hc
  obtain ⟨h, -, rfl⟩ := List.mem_map.mp hc
  refine .of_evidence rfl ?_ ?_
  · intro e he
    rcases List.mem_append.mp he with he | he
    · simp only [List.mem_cons, List.not_mem_nil, or_false] at he
      rcases he with rfl | rfl <;> simp
    · split at he
      · rw [List.mem_singleton.mp he]
        simp
      · cases he
  · exact ⟨fun hdepends => ⟨hleaves, hdepends⟩, And.right⟩

theorem tells_candidates {pattern : FlowPattern} (hc : c ∈ pattern.candidates ctx) :
    c.TellsDependency ctx := by
  cases pattern with
  | directOutput => exact tells_directCandidates hc
  | outputToEnv => exact tells_relayCandidates hc
  | outputToFile => exact tells_fileCandidates hc
  | artifactTransfer => exact tells_artifactCandidates hc
  | _ => exact absurd hc List.not_mem_nil

/-- Whatever a detector finds says of a dependency what the context records. -/
theorem tells_of_detect {digest : Digest} {d : Detector} (hd : d ∈ registeredDetectors digest)
    {flows : List Flow} (hflows : d.detect ctx = .ok flows) {f : Flow} (hf : f ∈ flows) :
    ∃ c : Candidate, c.TellsDependency ctx ∧ c.flow digest ctx = .ok f := by
  rw [detect_of_registered hd] at hflows
  obtain ⟨c, hc, hmade⟩ := (flowsOf_mem hflows).1 f hf
  exact ⟨c, tells_candidates hc, hmade⟩

end

/-! ## What is reported -/

section

variable {workflow : Table} {file : String}

theorem leads_iff {source target : String} :
    (Context.ofTable workflow file).Leads source target ↔
      source ≠ target ∧ DependsWithinTwo workflow target source := by
  unfold Context.Leads Context.dependsOn DependsWithinTwo
  rw [Bool.or_eq_true, List.contains_iff_mem, List.any_eq_true]
  simp only [List.contains_iff_mem, mem_dependenciesOf]

/-- What the evidence of a flow says of the dependency between its jobs. -/
structure Flow.TellsDependency (workflow : Table) (f : Flow) : Prop where
  text : ∀ e ∈ f.evidence, e.kind = .jobDependency →
    ∃ strength, e = dependencyEvidence f.source.jobId f.target.jobId strength
  sound : f.ClaimsDependency →
    f.source.jobId ≠ f.target.jobId ∧ DependsWithinTwo workflow f.target.jobId f.source.jobId
  /-- the evidence is only left out for some files -/
  complete : f.pattern ≠ .outputToFile → f.source.jobId ≠ f.target.jobId →
    DependsWithinTwo workflow f.target.jobId f.source.jobId → f.ClaimsDependency
  /-- a claim of a dependency that is not declared is made where one job is between -/
  contradicted : f.ClaimsDependency → f.Undeclared workflow → f.DependsThroughOne workflow
  contradicts : f.pattern ≠ .outputToFile → f.DependsThroughOne workflow →
    f.ClaimsDependency ∧ f.Undeclared workflow

theorem Candidate.TellsDependency.flow {digest : Digest} {c : Candidate} {f : Flow}
    (tells : c.TellsDependency (.ofTable workflow file)) (hmade : c.flow digest (.ofTable workflow file) = .ok f) :
    f.TellsDependency workflow := by
  rw [Candidate.flow_eq hmade]
  have sound : ∀ e ∈ c.evidence, e.kind = .jobDependency →
      c.source.jobId ≠ c.target.jobId ∧ DependsWithinTwo workflow c.target.jobId c.source.jobId :=
    fun e he hkind => leads_iff.mp (tells.sound e he hkind)
  have complete : c.pattern ≠ .outputToFile → c.source.jobId ≠ c.target.jobId →
      DependsWithinTwo workflow c.target.jobId c.source.jobId → ∃ e ∈ c.evidence, e.kind = .jobDependency :=
    fun hpattern hne hdepends => tells.complete hpattern (leads_iff.mpr ⟨hne, hdepends⟩)
  constructor
  · exact tells.text
  · rintro ⟨e, he, hkind⟩
    exact sound e he hkind
  · exact complete
  · rintro ⟨e, he, hkind⟩ missing
    exact ⟨missing, (sound e he hkind).2.resolve_left missing.2⟩
  · intro hpattern through
    exact ⟨complete hpattern through.1.1 (Or.inr through.2), through.1⟩

end

/-- For every workflow that is a table: there is one warning for each flow whose target does not declare a
dependency on its source; and evidence that it does declare one is given to such a flow only if its target
declares to depend on a job that declares to depend on its source, and then it is given, unless the flow
goes through a file. -/
theorem dependency_said_and_missing (digest : Digest) (options : DetectorOptions) (workflow : Table)
    (file : String) :
    let a := analyzeWorkflow digest options (.table workflow) file
    a.warnings.filter (·.code == "MISSING_JOB_DEPENDENCY") =
        (a.flows.filter fun f => f.Undeclared workflow).map dependencyWarning ∧
      ∀ f ∈ a.flows, f.TellsDependency workflow := by
  refine ⟨(analyzeWorkflow_warns digest options workflow file).undeclared, ?_⟩
  rw [analyzeWorkflow_table]
  intro f hf
  obtain ⟨d, hd, found, seen, hfound, hstays⟩ := exists_detector_of_reported (detectFlows_table workflow) hf
  obtain ⟨c, tells, hmade⟩ := tells_of_detect hd hfound ((firstBy_sublist seen found).subset hstays)
  exact tells.flow hmade

/-! ### A job between the two -/

/-- A job that binds a variable, one that hands it to Helm, and one between them. -/
def oneBetween : Table :=
  [(.text "a", oneLineJob "V=$(terraform output x)"), (.text "b", .table [(.text "needs", .ofTexts ["a"])]),
    (.text "c", .table [(.text "needs", .ofTexts ["b"]), (.text "script", .text "helm --set k=$V")])]

/-- There is a flow of which the evidence says that its target declares a dependency, and a warning that it
does not. -/
theorem evidence_contradicts_warning : ¬ ∀ (digest : Digest) (options : DetectorOptions) (workflow : Tree)
    (file : String), let a := analyzeWorkflow digest options workflow file
    ∀ f ∈ a.flows, ¬ (f.ClaimsDependency ∧
      ∃ w ∈ a.warnings, w.code = "MISSING_JOB_DEPENDENCY" ∧ w.flowId = some f.id) := by
  intro agree
  have hflows := agree plainDigest {} (.table oneBetween) "ci.yml"
  revert hflows
  decide +kernel

end DeployTrace
