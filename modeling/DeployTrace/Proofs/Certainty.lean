/-
  DeployTrace/Proofs/Certainty.lean --- how sure each detector is of what it finds.

  WHAT THIS FILE IS FOR.  The confidence of a flow is computed from a base and the strengths of its
  evidence, and what evidence there can be is fixed for each detector.  So every flow has one of a few
  confidences, and which one can be read off the flow: its pattern, whether it leaves its job for one that
  depends on it, how far apart its steps are, and of which kinds its evidence is.
-/
import DeployTrace.Proofs.StepOrder
import DeployTrace.Score.Breakdown

set_option autoImplicit false

namespace DeployTrace

/-! ## The table of confidences -/

/-- The confidence of a direct use inside one job, by the distance of the two steps. -/
def ownCertainty (distance : Nat) : Int :=
  if distance = 0 then 94 else if distance ≤ 2 then 92 else 90

/-- Whether a flow leaves its job for one that depends on it. -/
def Flow.followsDependency (ctx : Context) (f : Flow) : Bool :=
  f.isCrossJob && ctx.dependsOn f.target.jobId f.source.jobId

/-- The confidence of a flow by what it shows. -/
def Flow.certainty (ctx : Context) (f : Flow) : Int :=
  match f.pattern with
  | .directOutput =>
    if f.isCrossJob then if f.followsDependency ctx then 93 else 92
    else ownCertainty (stepDistance f.target.stepIndex f.source.stepIndex)
  | .outputToEnv => if f.followsDependency ctx then 78 else 77
  | .outputToFile =>
    if hasKind f.evidence .expressionMatch then if f.followsDependency ctx then 75 else 74 else 65
  | .artifactTransfer =>
    if hasKind f.evidence .explicitReference then if f.followsDependency ctx then 67 else 64
    else if f.followsDependency ctx then 64 else 62
  | _ => 0

/-- The least confidence of a flow of a pattern. -/
def FlowPattern.leastCertainty : FlowPattern → Int
  | directOutput => 90
  | outputToEnv => 77
  | outputToFile => 65
  | artifactTransfer => 62
  | _ => 0

/-- The greatest confidence of a flow of a pattern. -/
def FlowPattern.greatestCertainty : FlowPattern → Int
  | directOutput => 94
  | outputToEnv => 78
  | outputToFile => 75
  | artifactTransfer => 67
  | _ => 0

theorem ownCertainty_bounds (distance : Nat) :
    90 ≤ ownCertainty distance ∧ ownCertainty distance ≤ 94 := by
  unfold ownCertainty
  grind

/-- What a flow shows beside its pattern moves its confidence between two bounds. -/
theorem certainty_bounds (ctx : Context) (f : Flow) :
    f.pattern.leastCertainty ≤ f.certainty ctx ∧ f.certainty ctx ≤ f.pattern.greatestCertainty := by
  have hown := ownCertainty_bounds (stepDistance f.target.stepIndex f.source.stepIndex)
  unfold Flow.certainty
  cases f.pattern <;> simp only [FlowPattern.leastCertainty, FlowPattern.greatestCertainty] <;> grind

/-! ## Strengths of evidence -/

theorem detectorConfidence_own (distance : Nat) : detectorConfidence (.int 60)
    [95, 90, Number.int (max 50 (90 - 10 * (distance : Int)))] = ownCertainty distance := by
  rcases (by omega : distance = 0 ∨ distance = 1 ∨ distance = 2 ∨ distance = 3 ∨ 4 ≤ distance) with
    rfl | rfl | rfl | rfl | hfar
  · decide +kernel
  · decide +kernel
  · decide +kernel
  · decide +kernel
  · -- From four steps on the strength of the place is the least one.
    have hleast : max 50 (90 - 10 * (distance : Int)) = 50 := by omega
    have hown : ownCertainty distance = 90 := by
      unfold ownCertainty
      rw [if_neg (by omega), if_neg (by omega)]
    rw [hleast, hown]
    decide +kernel

theorem detectorConfidence_direct : ∀ depends : Bool,
    detectorConfidence (.int 60) ([95, 90] ++ if depends then [(85 : Number)] else []) =
      if depends then 93 else 92 := by decide +kernel

theorem detectorConfidence_relay : ∀ depends : Bool,
    detectorConfidence (.int 50) ([80, 75] ++ if depends then [(70 : Number)] else []) =
      if depends then 78 else 77 := by decide +kernel

theorem detectorConfidence_query : ∀ depends : Bool,
    detectorConfidence (.int 45) ([85, 80] ++ if depends then [(75 : Number)] else []) =
      if depends then 75 else 74 := by decide +kernel

theorem detectorConfidence_artifact : ∀ depends output : Bool,
    detectorConfidence (.int 35)
      ([75, 75] ++ (if depends then [(85 : Number)] else []) ++ if output then [(80 : Number)] else []) =
      if output then if depends then 67 else 64 else if depends then 64 else 62 := by decide +kernel

/-- The strength of an item that is there under a condition only. -/
theorem map_strength_ite (holds : Bool) (e : Evidence) :
    (if holds then [e] else []).map (·.strength) = if holds then [e.strength] else [] := by
  split <;> rfl

/-! ## The detectors keep to the table -/

section

variable {digest : Digest} {ctx : Context} {c : Candidate} {f : Flow}

theorem certainty_direct (hc : c ∈ directCandidates ctx) (hf : c.flow digest ctx = .ok f) :
    f.pattern = .directOutput ∧ f.confidence = .int (f.certainty ctx) := by
  obtain ⟨h, -, hc⟩ := List.mem_flatMap.mp hc
  obtain ⟨use, -, hcandidate⟩ := List.mem_filterMap.mp hc
  obtain ⟨step, -, rfl⟩ := Option.map_eq_some_iff.mp hcandidate
  obtain rfl := Candidate.flow_eq hf
  refine ⟨rfl, congrArg Number.int ?_⟩
  simp only [Candidate.flowWith, Flow.certainty, Flow.isCrossJob, Flow.followsDependency, Context.target,
    placeEvidence, List.map_append, bne_iff_ne, ne_eq]
  by_cases hjob : step.jobId = h.jobId
  · simp only [hjob, not_true, if_false]
    exact detectorConfidence_own _
  · simp only [hjob, not_false_iff, if_true, map_strength_ite, bne_iff_ne.mpr hjob, Bool.true_and]
    exact detectorConfidence_direct _

theorem certainty_relay (hc : c ∈ relayCandidates ctx) (hf : c.flow digest ctx = .ok f) :
    f.pattern = .outputToEnv ∧ f.confidence = .int (f.certainty ctx) := by
  obtain ⟨h, -, hc⟩ := List.mem_flatMap.mp hc
  obtain ⟨⟨key, value⟩, -, hc⟩ := List.mem_filterMap.mp hc
  obtain ⟨name, -, hc⟩ := List.exists_of_findSome?_eq_some hc
  obtain ⟨b, -, rfl⟩ := Option.map_eq_some_iff.mp hc
  obtain rfl := Candidate.flow_eq hf
  refine ⟨rfl, congrArg Number.int ?_⟩
  simp only [relayCandidate, List.map_append, map_strength_ite]
  exact detectorConfidence_relay _

theorem certainty_query (h : HelmStep) (step : TerraformStep) (q : FileQuery)
    (hf : (queryCandidate ctx h step q).flow digest ctx = .ok f) :
    f.pattern = .outputToFile ∧ f.confidence = .int (f.certainty ctx) := by
  obtain rfl := Candidate.flow_eq hf
  refine ⟨rfl, congrArg Number.int ?_⟩
  simp only [queryCandidate, List.map_append, map_strength_ite]
  exact detectorConfidence_query _

theorem certainty_related (h : HelmStep) (step : TerraformStep) (file valuesFile : String)
    (hf : (relatedCandidate ctx h step file valuesFile).flow digest ctx = .ok f) :
    f.pattern = .outputToFile ∧ f.confidence = .int (f.certainty ctx) := by
  obtain rfl := Candidate.flow_eq hf
  have hrelated : detectorConfidence (.int 45) [(60 : Number)] = 65 := by decide +kernel
  exact ⟨rfl, congrArg Number.int hrelated⟩

theorem certainty_file (hc : c ∈ fileCandidates ctx) (hf : c.flow digest ctx = .ok f) :
    f.pattern = .outputToFile ∧ f.confidence = .int (f.certainty ctx) := by
  obtain ⟨h, -, hc⟩ := List.mem_flatMap.mp hc
  obtain ⟨⟨step, file⟩, -, hc⟩ := List.mem_flatMap.mp hc
  simp only [fileCandidatesFor] at hc
  split at hc
  · obtain ⟨valuesFile, -, rfl⟩ := Option.map_eq_some_iff.mp (Option.mem_toList.mp hc)
    exact certainty_related h step file valuesFile hf
  · obtain ⟨q, -, rfl⟩ := List.mem_map.mp hc
    exact certainty_query h step q hf

theorem certainty_artifact (hc : c ∈ artifactCandidates ctx) (hf : c.flow digest ctx = .ok f) :
    f.pattern = .artifactTransfer ∧ f.confidence = .int (f.certainty ctx) := by
  have hleaves := artifact_leaves_job hc
  obtain ⟨job, -, hc⟩ := List.mem_flatMap.mp hc
  obtain ⟨u, -, hc⟩ := List.mem_flatMap.mp hc
  obtain ⟨d, -, hc⟩ := List.mem_flatMap.mp hc
  obtain ⟨h, -, rfl⟩ := List.mem_map.mp hc
  obtain rfl := Candidate.flow_eq hf
  refine ⟨rfl, congrArg Number.int ?_⟩
  have hcross : (u.jobId != h.jobId) = true := bne_iff_ne.mpr hleaves
  have houtput : hasKind (artifactCandidate ctx h u d).evidence .explicitReference = u.holdsOutput := by
    have hdepends : ((if ctx.dependsOn h.jobId u.jobId then [dependencyEvidence u.jobId h.jobId 85]
        else []).any fun e => e.kind == .explicitReference) = false := by split <;> rfl
    simp only [hasKind, artifactCandidate, List.any_append, hdepends]
    cases u.holdsOutput <;> rfl
  change detectorConfidence _ _ =
    if hasKind (artifactCandidate ctx h u d).evidence .explicitReference then
      if (u.jobId != h.jobId) && ctx.dependsOn h.jobId u.jobId then 67 else 64
    else if (u.jobId != h.jobId) && ctx.dependsOn h.jobId u.jobId then 64 else 62
  rw [houtput, hcross, Bool.true_and]
  simp only [artifactCandidate, List.map_append, map_strength_ite]
  exact detectorConfidence_artifact _ _

/-- What is proposed for a pattern keeps to the table. -/
theorem certainty_of_candidate {pattern : FlowPattern} (hc : c ∈ pattern.candidates ctx)
    (hf : c.flow digest ctx = .ok f) : f.pattern = pattern ∧ f.confidence = .int (f.certainty ctx) := by
  cases pattern with
  | directOutput => exact certainty_direct hc hf
  | outputToEnv => exact certainty_relay hc hf
  | outputToFile => exact certainty_file hc hf
  | artifactTransfer => exact certainty_artifact hc hf
  | _ => exact absurd hc List.not_mem_nil

/-- What an enabled detector finds has the pattern of the detector, and a confidence from the table. -/
theorem certainty_of_found {options : DetectorOptions} {d : Detector} (hd : d ∈ registeredDetectors digest)
    (hf : f ∈ detectedBy options ctx d) : f.pattern = d.pattern ∧ f.confidence = .int (f.certainty ctx) := by
  have hfound := detect_of_detectedBy (List.ne_nil_of_mem hf)
  rw [detect_of_registered hd] at hfound
  obtain ⟨c, hc, hflow⟩ := (flowsOf_mem hfound).1 f hf
  exact certainty_of_candidate hc hflow

end

end DeployTrace
