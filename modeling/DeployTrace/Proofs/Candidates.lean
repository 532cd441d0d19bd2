/-
  DeployTrace/Proofs/Candidates.lean --- candidates become flows, and the flows are well formed.

  WHAT THIS FILE IS FOR.  A flow is refused when a strength or its confidence is off the scale.  What a
  detector proposes is never refused: its strengths are on the scale by the way they are written down,
  and the confidence is cut to the scale.  `Candidate.Sound` collects what a proposal has to satisfy,
  and `Flow.WellFormedIn` what then holds of the flow made of it.
-/
import DeployTrace.Detection.Detector
import DeployTrace.Proofs.Chain
import DeployTrace.Proofs.Contexts
import DeployTrace.Proofs.Scale

set_option autoImplicit false

namespace DeployTrace

/-! ## Well-formed flows -/

/-- A flow of a pattern that fits the context it was found in. -/
structure Flow.WellFormedIn (ctx : Context) (pattern : FlowPattern) (f : Flow) : Prop where
  pattern_eq : f.pattern = pattern
  confidence_int : ∃ score : Int, f.confidence = .int score ∧ 0 ≤ score ∧ score ≤ 100
  level_eq : f.level = .ofScore f.confidence
  strengths : ∀ e ∈ f.evidence, inScoreRange e.strength = true
  source_job : f.source.jobId ∈ ctx.jobs.names
  target_job : f.target.jobId ∈ ctx.jobs.names
  target_step : ctx.RunsHelmAt f.target.jobId f.target.stepIndex
  output_named : f.source.name ≠ ""
  chain : LeadsFromTo f.setting.jobChain f.source.jobId f.target.jobId

/-- A well-formed flow could be recorded as it is. -/
theorem Flow.WellFormedIn.check_eq_ok {ctx : Context} {pattern : FlowPattern} {f : Flow}
    (h : f.WellFormedIn ctx pattern) : f.check = .ok f := by
  obtain ⟨score, hscore, hlow, hhigh⟩ := h.confidence_int
  refine if_pos ?_
  rw [hscore]
  exact inScoreRange_int hlow hhigh

/-- A proposal of a pattern that fits the context it is made in. -/
structure Candidate.Sound (ctx : Context) (pattern : FlowPattern) (c : Candidate) : Prop where
  pattern_eq : c.pattern = pattern
  strengths : ∀ e ∈ c.evidence, inScoreRange e.strength = true
  source_job : c.source.jobId ∈ ctx.jobs.names
  target_job : c.target.jobId ∈ ctx.jobs.names
  target_step : ctx.RunsHelmAt c.target.jobId c.target.stepIndex
  output_named : c.source.name ≠ ""

/-- When every element is accepted, the results stand in the order of the elements. -/
theorem mapM_eq_ok_of_forall {α β ε : Type} {f : α → Except ε β} {g : α → β} {xs : List α}
    (h : ∀ x ∈ xs, f x = .ok (g x)) : xs.mapM f = .ok (xs.map g) := by
  induction xs with
  | nil => rfl
  | cons x rest ih =>
      rw [List.mapM_cons, h x List.mem_cons_self, ih fun a ha => h a (List.mem_cons_of_mem x ha)]
      rfl

/-- When every element is accepted, with a result of some property, all of them are. -/
theorem mapM_accepts {α β ε : Type} {f : α → Except ε β} {P : β → Prop} {xs : List α}
    (accepts : ∀ x ∈ xs, ∃ y, f x = .ok y ∧ P y) : ∃ ys, xs.mapM f = .ok ys ∧ ∀ y ∈ ys, P y := by
  induction xs with
  | nil => exact ⟨[], rfl, by simp⟩
  | cons x rest ih =>
      obtain ⟨y, hy, hPy⟩ := accepts x List.mem_cons_self
      obtain ⟨ys, hys, hPys⟩ := ih fun a ha => accepts a (List.mem_cons_of_mem x ha)
      refine ⟨y :: ys, ?_, List.forall_mem_cons.mpr ⟨hPy, hPys⟩⟩
      rw [List.mapM_cons, hy, hys]
      rfl

theorem Evidence.check_eq_ok {e : Evidence} (h : inScoreRange e.strength = true) : e.check = .ok e :=
  if_pos h

theorem mapM_check_eq_ok {evidence : List Evidence}
    (strengths : ∀ e ∈ evidence, inScoreRange e.strength = true) :
    evidence.mapM Evidence.check = .ok evidence := by
  have hall := mapM_eq_ok_of_forall (f := Evidence.check) (g := id) fun e he =>
    Evidence.check_eq_ok (strengths e he)
  rwa [List.map_id] at hall

/-- A sound proposal is not refused, and the flow made of it is well formed. -/
theorem Candidate.flow_wellFormed {ctx : Context} {pattern : FlowPattern} {c : Candidate}
    (sound : c.Sound ctx pattern) (digest : Digest) :
    ∃ f, c.flow digest ctx = .ok f ∧ f.WellFormedIn ctx pattern := by
  let score := detectorConfidence (.int c.pattern.baseConfidence) (c.evidence.map (·.strength))
  obtain ⟨hlow, hhigh⟩ : 0 ≤ score ∧ score ≤ 100 := detectorConfidence_bounds _ _
  refine ⟨c.flowWith digest ctx c.evidence (.int score), ?_, ?_⟩
  · unfold Candidate.flow
    rw [mapM_check_eq_ok sound.strengths]
    exact if_pos (inScoreRange_int hlow hhigh)
  · exact {
      pattern_eq := sound.pattern_eq
      confidence_int := ⟨score, rfl, hlow, hhigh⟩
      level_eq := rfl
      strengths := sound.strengths
      source_job := sound.source_job
      target_job := sound.target_job
      target_step := sound.target_step
      output_named := sound.output_named
      chain := jobChain_leads ctx.dependencies c.source.jobId c.target.jobId }

/-- A detector whose proposals are sound does not fail, and its flows are well formed. -/
theorem flowsOf_wellFormed {ctx : Context} {pattern : FlowPattern} {candidates : List Candidate}
    (sound : ∀ c ∈ candidates, c.Sound ctx pattern) (digest : Digest) :
    ∃ flows, flowsOf digest ctx candidates = .ok flows ∧ ∀ f ∈ flows, f.WellFormedIn ctx pattern := by
  obtain ⟨flows, hflows, hwell⟩ := mapM_accepts fun c hc => Candidate.flow_wellFormed (sound c hc) digest
  refine ⟨flows, ?_, hwell⟩
  unfold flowsOf
  rw [hflows]
  rfl

/-! ## The ends of a flow -/

theorem Evidence.eq_of_check {e checked : Evidence} (h : e.check = .ok checked) : checked = e := by
  unfold check at h
  split at h
  · cases h
    rfl
  · cases h

/-- What is collected from the elements, when each gives what a function says, is the function's. -/
theorem mapM_eq_ok_map {α β ε : Type} {f : α → Except ε β} {g : α → β}
    (hg : ∀ x y, f x = .ok y → y = g x) {xs : List α} {ys : List β} (h : xs.mapM f = .ok ys) :
    ys = xs.map g := by
  induction xs generalizing ys with
  | nil =>
      cases h
      rfl
  | cons x rest ih =>
      rw [List.mapM_cons] at h
      cases hx : f x with
      | error fault =>
          rw [hx] at h
          cases h
      | ok y =>
          cases hrest : rest.mapM f with
          | error fault =>
              rw [hx, hrest] at h
              cases h
          | ok more =>
              rw [hx, hrest] at h
              cases h
              rw [List.map_cons, hg x y hx, ih hrest]

theorem eq_of_mapM_check {evidence checked : List Evidence}
    (h : evidence.mapM Evidence.check = .ok checked) : checked = evidence := by
  rw [mapM_eq_ok_map (g := id) (fun _ _ => Evidence.eq_of_check) h, List.map_id]

/-- The flow made of a proposal is the proposal's, with its evidence and the confidence from that. -/
theorem Candidate.flow_eq {digest : Digest} {ctx : Context} {c : Candidate} {f : Flow}
    (h : c.flow digest ctx = .ok f) : f = c.flowWith digest ctx c.evidence
      (.int (detectorConfidence (.int c.pattern.baseConfidence) (c.evidence.map (·.strength)))) := by
  unfold flow at h
  cases hevidence : c.evidence.mapM Evidence.check with
  | error fault =>
      rw [hevidence] at h
      cases h
  | ok evidence =>
      rw [hevidence] at h
      obtain rfl := eq_of_mapM_check hevidence
      change Flow.check _ = .ok f at h
      unfold Flow.check at h
      split at h
      · cases h
        rfl
      · cases h

/-- The flow made of a proposal has the ends that the proposal has. -/
theorem Candidate.flow_ends {digest : Digest} {ctx : Context} {c : Candidate} {f : Flow}
    (h : c.flow digest ctx = .ok f) : f.source = c.source ∧ f.target = c.target := by
  rw [Candidate.flow_eq h]
  exact ⟨rfl, rfl⟩

/-- What is collected from the elements is what each of them gives. -/
theorem mapM_eq_ok_mem {α β ε : Type} {f : α → Except ε β} {xs : List α} {ys : List β}
    (h : xs.mapM f = .ok ys) :
    (∀ y ∈ ys, ∃ x ∈ xs, f x = .ok y) ∧ ∀ x ∈ xs, ∃ y ∈ ys, f x = .ok y := by
  induction xs generalizing ys with
  | nil =>
      cases h
      simp
  | cons x rest ih =>
      rw [List.mapM_cons] at h
      cases hx : f x with
      | error fault =>
          rw [hx] at h
          cases h
      | ok y =>
          cases hrest : rest.mapM f with
          | error fault =>
              rw [hx, hrest] at h
              cases h
          | ok more =>
              rw [hx, hrest] at h
              cases h
              obtain ⟨hfrom, hto⟩ := ih hrest
              constructor
              · intro z hz
                rcases List.mem_cons.mp hz with rfl | hz
                · exact ⟨x, List.mem_cons_self, hx⟩
                · obtain ⟨a, ha, haz⟩ := hfrom z hz
                  exact ⟨a, List.mem_cons_of_mem x ha, haz⟩
              · intro a ha
                rcases List.mem_cons.mp ha with rfl | ha
                · exact ⟨y, List.mem_cons_self, hx⟩
                · obtain ⟨z, hz, haz⟩ := hto a ha
                  exact ⟨z, List.mem_cons_of_mem y hz, haz⟩

/-- The flows of some proposals are the flows made of each of them. -/
theorem flowsOf_mem {digest : Digest} {ctx : Context} {candidates : List Candidate} {flows : List Flow}
    (h : flowsOf digest ctx candidates = .ok flows) :
    (∀ f ∈ flows, ∃ c ∈ candidates, c.flow digest ctx = .ok f) ∧
      ∀ c ∈ candidates, ∃ f ∈ flows, c.flow digest ctx = .ok f := by
  unfold flowsOf at h
  cases hmap : candidates.mapM (Candidate.flow digest ctx) with
  | error fault =>
      rw [hmap] at h
      cases h
  | ok made =>
      rw [hmap] at h
      cases h
      exact mapM_eq_ok_mem hmap

/-- The flows of some proposals have the ends of the proposals, in their order. -/
theorem flowsOf_ends {digest : Digest} {ctx : Context} {candidates : List Candidate} {flows : List Flow}
    (h : flowsOf digest ctx candidates = .ok flows) :
    flows.map (fun f => (f.source, f.target)) = candidates.map fun c => (c.source, c.target) := by
  unfold flowsOf at h
  cases hmap : candidates.mapM (Candidate.flow digest ctx) with
  | error fault =>
      rw [hmap] at h
      cases h
  | ok made =>
      rw [hmap] at h
      cases h
      rw [mapM_eq_ok_map (fun _ _ => Candidate.flow_eq) hmap, List.map_map]
      rfl

/-! ## What all detectors have in common -/

/-- What the detector of a pattern proposes; the other patterns have no detector. -/
def FlowPattern.candidates (ctx : Context) : FlowPattern → List Candidate
  | directOutput => directCandidates ctx
  | outputToEnv => relayCandidates ctx
  | outputToFile => fileCandidates ctx
  | artifactTransfer => artifactCandidates ctx
  | _ => []

section Registered

variable {digest : Digest} {d : Detector} (hd : d ∈ registeredDetectors digest)

include hd

/-- Every detector applies where both tools run. -/
theorem applies_of_registered : d.applies = Context.hasBothTools := by
  simp only [registeredDetectors, List.mem_cons, List.not_mem_nil, or_false] at hd
  rcases hd with rfl | rfl | rfl | rfl <;> rfl

/-- Every detector finds the flows of what is proposed for its pattern. -/
theorem detect_of_registered (ctx : Context) :
    d.detect ctx = flowsOf digest ctx (d.pattern.candidates ctx) := by
  simp only [registeredDetectors, List.mem_cons, List.not_mem_nil, or_false] at hd
  rcases hd with rfl | rfl | rfl | rfl <;> rfl

end Registered

section

variable {ctx : Context} {h : HelmStep} {c : Candidate} {pattern : FlowPattern}

/-- A proposal for a value of a Helm step of the context fits the context at that end. -/
theorem Candidate.sound_of_target (consistent : ctx.Consistent) (hh : h ∈ ctx.helmSteps)
    {path : String} {channel : ValueChannel} (hpattern : c.pattern = pattern)
    (htarget : c.target = ctx.target h path channel)
    (hsource : c.source.jobId ∈ ctx.jobs.names) (hname : c.source.name ≠ "")
    (strengths : ∀ e ∈ c.evidence, inScoreRange e.strength = true) : c.Sound ctx pattern where
  pattern_eq := hpattern
  strengths := strengths
  source_job := hsource
  target_job := by
    rw [htarget]
    exact consistent.helm_job h hh
  target_step := by
    rw [htarget]
    exact consistent.helm_step h hh
  output_named := hname

theorem dependencyEvidence_strength {source target : String} {strength : Number}
    (hstrength : inScoreRange strength = true) :
    inScoreRange (dependencyEvidence source target strength).strength = true :=
  hstrength

/-- Evidence that is there under a condition only is on the scale when it would be there. -/
theorem strength_of_mem_ite {b : Bool} {e item : Evidence} (hitem : inScoreRange item.strength = true)
    (he : e ∈ if b then [item] else []) : inScoreRange e.strength = true := by
  split at he
  · rw [List.mem_singleton] at he
    rw [he]
    exact hitem
  · simp at he

end

end DeployTrace
