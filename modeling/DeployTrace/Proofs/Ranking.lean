/-
  DeployTrace/Proofs/Ranking.lean --- which flows of a context are reported.

  WHAT THIS FILE IS FOR.  Four rules decide what is reported: the first flow of a key stays, a flow must
  be sure enough, the surest flows come first, and the list has a limit.  Their joint effect is stated
  here as one specification, `SelectionOf`: what is reported obeys all four rules, AND whatever is not
  reported is kept out by one of them.

  FINDINGS.  The specification speaks about flows together with where they were found, because "first"
  and "stands as it stood" mean the priority of the detector and the place in the detector's own list.
  The detectors are arbitrary: a detector may find anything, or fail.
-/
import DeployTrace.Detection.Selection
import DeployTrace.Proofs.Merging
import DeployTrace.Proofs.Scale

set_option autoImplicit false

namespace DeployTrace

/-! ## Findings -/

/-- A flow, the priority of the detector that found it, and its place in the detector's list. -/
structure Finding where
  priority : Int
  place : Nat
  flow : Flow

/-- The flows of one detector: none when it is switched off, does not apply or fails. -/
def detectedBy (options : DetectorOptions) (ctx : Context) (d : Detector) : List Flow :=
  if options.isEnabled d.pattern && d.applies ctx then
    match d.detect ctx with
    | .ok flows => flows
    | .error _ => []
  else []

/-- The findings of one detector, in its own order. -/
def findingsOf (options : DetectorOptions) (ctx : Context) (d : Detector) : List Finding :=
  (detectedBy options ctx d).zipIdx.map fun (flow, place) => ⟨d.priority, place, flow⟩

/-- The findings of all detectors, one detector after the other. -/
def findings (options : DetectorOptions) (detectors : List Detector) (ctx : Context) : List Finding :=
  detectors.flatMap (findingsOf options ctx)

/-- Found earlier: by a detector of higher priority, or earlier in the list of the same detector. -/
def Finding.ComesBefore (a b : Finding) : Prop :=
  b.priority < a.priority ∨ (a.priority = b.priority ∧ a.place < b.place)

/-- Reported earlier: surer, or as sure and found earlier. -/
def Finding.RanksBefore (a b : Finding) : Prop :=
  b.flow.confidence.lt a.flow.confidence = true ∨
    (a.flow.confidence.same b.flow.confidence = true ∧ a.ComesBefore b)

/-- What it means that `chosen` is the right choice from what was found. -/
structure SelectionOf (options : DetectorOptions) (found chosen : List Finding) : Prop where
  from_found : ∀ a ∈ chosen, a ∈ found
  within_limit : (chosen.length : Int) ≤ options.maxFlows
  keys_differ : (chosen.map fun a => a.flow.key).Nodup
  sure_enough : ∀ a ∈ chosen, options.minConfidence.le a.flow.confidence = true
  ranked : chosen.Pairwise Finding.RanksBefore
  first_of_key : ∀ a ∈ chosen, ∀ b ∈ found, b.ComesBefore a → b.flow.key ≠ a.flow.key
  /-- whatever was found is chosen, or comes after a finding of its key, or is below the least
  confidence, which nothing reaches where it is no number, or ranks after as many others as may be
  chosen -/
  complete : ∀ a ∈ found, a ∈ chosen ∨
    (∃ b ∈ found, b.ComesBefore a ∧ b.flow.key = a.flow.key) ∨
    (a.flow.confidence.lt options.minConfidence = true ∨ options.minConfidence.isNan = true) ∨
    ((chosen.length : Int) = options.maxFlows ∧ ∀ b ∈ chosen, b.RanksBefore a)

theorem Finding.comesBefore_asymm (a b : Finding) (h : a.ComesBefore b) : ¬ b.ComesBefore a := by
  unfold Finding.ComesBefore at h ⊢
  omega

theorem foundFlows_eq_map (options : DetectorOptions) (detectors : List Detector) (ctx : Context) :
    foundFlows options detectors ctx = detectors.map (detectedBy options ctx) := rfl

theorem map_flow_findingsOf (options : DetectorOptions) (ctx : Context) (d : Detector) :
    (findingsOf options ctx d).map Finding.flow = detectedBy options ctx d := by
  unfold findingsOf
  rw [List.map_map]
  exact List.zipIdx_map_fst 0 (detectedBy options ctx d)

/-- Findings are the flows that were found, with their places. -/
theorem map_flow_findings (options : DetectorOptions) (detectors : List Detector) (ctx : Context) :
    (findings options detectors ctx).map Finding.flow = (foundFlows options detectors ctx).flatten := by
  unfold findings
  rw [foundFlows_eq_map, List.map_flatMap, List.flatMap_def]
  simp only [map_flow_findingsOf]

/-! ### The order of findings -/

theorem findingsOf_pairwise (options : DetectorOptions) (ctx : Context) (d : Detector) :
    (findingsOf options ctx d).Pairwise Finding.ComesBefore := by
  have places : ((detectedBy options ctx d).zipIdx.map Prod.snd).Pairwise (· < ·) := by
    rw [List.zipIdx_map_snd]
    exact List.pairwise_lt_range'
  unfold findingsOf
  rw [List.pairwise_map] at places ⊢
  exact places.imp fun hlt => Or.inr ⟨rfl, hlt⟩

theorem priority_of_mem_findingsOf {options : DetectorOptions} {ctx : Context} {d : Detector}
    {a : Finding} (ha : a ∈ findingsOf options ctx d) : a.priority = d.priority := by
  unfold findingsOf at ha
  obtain ⟨_, -, rfl⟩ := List.mem_map.mp ha
  rfl

/-- Findings stand in the order in which they were found. -/
theorem findings_pairwise {options : DetectorOptions} {detectors : List Detector} {ctx : Context}
    (order : detectors.Pairwise fun a b => b.priority < a.priority) :
    (findings options detectors ctx).Pairwise Finding.ComesBefore := by
  unfold findings
  refine List.pairwise_flatMap.mpr ⟨fun d _ => findingsOf_pairwise options ctx d, ?_⟩
  refine order.imp ?_
  intro d e hlt a ha b hb
  refine Or.inl ?_
  rw [priority_of_mem_findingsOf ha, priority_of_mem_findingsOf hb]
  exact hlt

/-- The detectors at work stand in the order of their priorities. -/
theorem detectors_order (digest : Digest) :
    (detectors digest).Pairwise fun a b => b.priority < a.priority := by
  have hpriorities : (detectors digest).map Detector.priority = [100, 90, 80, 70] := rfl
  have horder : ((detectors digest).map Detector.priority).Pairwise fun a b => b < a := by
    rw [hpriorities]
    decide
  exact List.pairwise_map.mp horder

/-- The flow of a finding is one of its detector's. -/
theorem flow_of_mem_findingsOf {options : DetectorOptions} {ctx : Context} {d : Detector} {a : Finding}
    (ha : a ∈ findingsOf options ctx d) : a.flow ∈ detectedBy options ctx d := by
  rw [← map_flow_findingsOf]
  exact List.mem_map_of_mem ha

/-- A finding is a flow that an enabled detector returned. -/
theorem flow_of_mem_findings {options : DetectorOptions} {detectors : List Detector} {ctx : Context}
    {a : Finding} (ha : a ∈ findings options detectors ctx) :
    ∃ d ∈ detectors, ∃ flows, d.detect ctx = .ok flows ∧ a.flow ∈ flows := by
  obtain ⟨d, hd, ha⟩ := List.mem_flatMap.mp ha
  have hflow := flow_of_mem_findingsOf ha
  refine ⟨d, hd, ?_⟩
  unfold detectedBy at hflow
  split at hflow
  · split at hflow
    · rename_i flows hflows
      exact ⟨flows, hflows, hflow⟩
    · simp at hflow
  · simp at hflow

/-! ## The choice -/

/-- Whether a finding is surer than another one. -/
def surer (a b : Finding) : Bool := b.flow.confidence.lt a.flow.confidence

/-- The findings that obey the first two rules: the first of every key, if it is sure enough. -/
def eligible (options : DetectorOptions) (found : List Finding) : List Finding :=
  (firstBy (fun a : Finding => a.flow.key) [] found).filter fun a =>
    options.minConfidence.le a.flow.confidence

/-- The choice from what was found. -/
def choice (options : DetectorOptions) (found : List Finding) : List Finding :=
  keepFirst options.maxFlows (sortBy surer (eligible options found))

/-- The choice from the findings is the selection from the flows. -/
theorem map_flow_choice {options : DetectorOptions} {found : List Finding} {lists : List (List Flow)}
    (hflows : found.map Finding.flow = lists.flatten) :
    (choice options found).map Finding.flow = selectFlows options lists := by
  have hfirst : (firstBy (fun a : Finding => a.flow.key) [] found).map Finding.flow = mergeFlows lists := by
    rw [map_firstBy Finding.flow, hflows, ← firstByKey_eq_firstBy]
    rfl
  have heligible : (eligible options found).map Finding.flow =
      atLeast options.minConfidence (mergeFlows lists) := by
    unfold eligible atLeast
    rw [← hfirst, List.filter_map]
    rfl
  unfold choice selectFlows sortByConfidence
  rw [map_keepFirst, ← heligible, ← map_sortBy]
  rfl

theorem mem_eligible {options : DetectorOptions} {found : List Finding} {a : Finding} :
    a ∈ eligible options found ↔
      a ∈ firstBy (fun a : Finding => a.flow.key) [] found ∧
        options.minConfidence.le a.flow.confidence = true :=
  List.mem_filter

theorem eligible_sublist (options : DetectorOptions) (found : List Finding) :
    (eligible options found).Sublist found :=
  List.filter_sublist.trans (firstBy_sublist [] found)

/-- Among flows that could be recorded, being surer is a matter of values. -/
theorem surer_eq_decide {a b : Finding} (ha : a.flow.confidence.IsFinite)
    (hb : b.flow.confidence.IsFinite) :
    surer a b = decide (b.flow.confidence.value < a.flow.confidence.value) :=
  Number.lt_eq_decide hb ha

/-! ## The choice is right -/

theorem isFinite_of_check {f : Flow} (h : f.check = .ok f) : f.confidence.IsFinite := by
  unfold Flow.check at h
  split at h
  · rename_i hrange
    exact (inScoreRange_iff.mp hrange).1
  · simp at h

/-- Sorted findings are ranked: being surer is a weak order on flows that could be recorded, and those
as sure keep the order in which they were found. -/
theorem sortBy_surer_ranked {found : List Finding} (order : found.Pairwise Finding.ComesBefore)
    (checked : ∀ a ∈ found, a.flow.check = .ok a.flow) :
    (sortBy surer found).Pairwise Finding.RanksBefore := by
  have finite : ∀ a ∈ found, a.flow.confidence.IsFinite := fun a ha => isFinite_of_check (checked a ha)
  have byValue : sortBy surer found =
      sortBy (fun a b => decide (b.flow.confidence.value < a.flow.confidence.value)) found :=
    sortBy_congr fun a ha b hb => surer_eq_decide (finite a ha) (finite b hb)
  have sorted := sortBy_pairwise
    (weakOrder_rat.flip.comap fun a : Finding => a.flow.confidence.value) order
  rw [byValue]
  refine sorted.imp_of_mem ?_
  intro a b ha hb hab
  have hfa := finite a (mem_sortBy.mp ha)
  have hfb := finite b (mem_sortBy.mp hb)
  unfold Finding.RanksBefore
  rw [Number.lt_eq_decide hfb hfa, Number.same_eq_decide hfa hfb, decide_eq_true_eq, decide_eq_true_eq]
  rcases hab with hlt | ⟨hnot, hfirst⟩
  · exact Or.inl (of_decide_eq_true hlt)
  · rcases Rat.le_iff_lt_or_eq.mp (Rat.not_lt.mp (of_decide_eq_false hnot)) with hlt | heq
    · exact Or.inl hlt
    · exact Or.inr ⟨heq.symm, hfirst⟩

section

variable {options : DetectorOptions} {found : List Finding}

theorem choice_eq_take (limit : 0 ≤ options.maxFlows) :
    choice options found = (sortBy surer (eligible options found)).take options.maxFlows.toNat :=
  keepFirst_of_nonneg limit _

theorem mem_eligible_of_mem_choice (limit : 0 ≤ options.maxFlows) {a : Finding}
    (ha : a ∈ choice options found) : a ∈ eligible options found := by
  rw [choice_eq_take limit] at ha
  exact mem_sortBy.mp (List.mem_of_mem_take ha)

/-- Eligible findings have different keys, and neither sorting nor cutting changes that. -/
theorem nodup_keys_choice (options : DetectorOptions) (found : List Finding) :
    ((choice options found).map fun a => a.flow.key).Nodup := by
  have eligibleKeys : ((eligible options found).map fun a => a.flow.key).Nodup :=
    (nodup_keys_firstBy [] found).sublist (List.filter_sublist.map _)
  have sortedKeys : ((sortBy surer (eligible options found)).map fun a => a.flow.key).Nodup :=
    ((sortBy_perm surer (eligible options found)).map fun a => a.flow.key).nodup_iff.mpr eligibleKeys
  exact sortedKeys.sublist ((keepFirst_sublist _ _).map _)

/-- Sorted eligible findings are ranked. -/
theorem eligible_ranked (order : found.Pairwise Finding.ComesBefore)
    (checked : ∀ a ∈ found, a.flow.check = .ok a.flow) :
    (sortBy surer (eligible options found)).Pairwise Finding.RanksBefore := by
  have sub := eligible_sublist options found
  exact sortBy_surer_ranked (order.sublist sub) fun a ha => checked a (sub.subset ha)

/-- An eligible finding is chosen, or the choice is full of findings that rank before it. -/
theorem mem_choice_or_full (limit : 0 ≤ options.maxFlows)
    (order : found.Pairwise Finding.ComesBefore)
    (checked : ∀ a ∈ found, a.flow.check = .ok a.flow) {a : Finding}
    (ha : a ∈ eligible options found) :
    a ∈ choice options found ∨ (((choice options found).length : Int) = options.maxFlows ∧
      ∀ b ∈ choice options found, b.RanksBefore a) := by
  have ranked : (sortBy surer (eligible options found)).Pairwise Finding.RanksBefore :=
    eligible_ranked order checked
  rw [choice_eq_take limit]
  rcases mem_take_or_full options.maxFlows.toNat ranked (mem_sortBy.mpr ha) with htake | ⟨hfull, hafter⟩
  · exact Or.inl htake
  · refine Or.inr ⟨?_, hafter⟩
    omega

/-- The choice from findings in their order obeys the four rules, and nothing else is left out. -/
theorem selectionOf_choice (limit : 0 ≤ options.maxFlows)
    (order : found.Pairwise Finding.ComesBefore)
    (checked : ∀ a ∈ found, a.flow.check = .ok a.flow) :
    SelectionOf options found (choice options found) where
  from_found a ha := (eligible_sublist options found).subset (mem_eligible_of_mem_choice limit ha)
  within_limit := by
    have hlength := List.length_take_le options.maxFlows.toNat (sortBy surer (eligible options found))
    rw [choice_eq_take limit]
    omega
  keys_differ := nodup_keys_choice options found
  sure_enough a ha := (mem_eligible.mp (mem_eligible_of_mem_choice limit ha)).2
  ranked := by
    rw [choice_eq_take limit]
    exact (eligible_ranked order checked).sublist (List.take_sublist _ _)
  first_of_key := by
    intro a ha b hb hba
    have hfirst := (mem_eligible.mp (mem_eligible_of_mem_choice limit ha)).1
    exact key_ne_of_mem_firstBy Finding.comesBefore_asymm order hfirst hb hba
  complete := by
    intro a ha
    rcases mem_firstBy_or (fun a : Finding => a.flow.key) [] order ha with hfirst | hseen | hearlier
    · cases hsure : options.minConfidence.le a.flow.confidence with
      | false =>
          have hfinite := isFinite_of_check (checked a ha)
          exact Or.inr (Or.inr (Or.inl (Number.lt_or_isNan_of_not_le hfinite hsure)))
      | true =>
          have heligible : a ∈ eligible options found := mem_eligible.mpr ⟨hfirst, hsure⟩
          rcases mem_choice_or_full limit order checked heligible with hchosen | hfull
          · exact Or.inl hchosen
          · exact Or.inr (Or.inr (Or.inr hfull))
    · simp at hseen
    · exact Or.inr (Or.inl hearlier)

end

/-- For a context that runs both tools the choice from the findings is reported. -/
theorem flowsInContext_eq_choice {options : DetectorOptions} {detectors : List Detector} {ctx : Context}
    (terraform : ctx.terraformSteps ≠ []) (helm : ctx.helmSteps ≠ []) :
    flowsInContext options detectors ctx =
      (choice options (findings options detectors ctx)).map Finding.flow := by
  have both : ctx.hasBothTools = true := by
    simp [Context.hasBothTools, terraform, helm]
  unfold flowsInContext
  rw [if_pos both, map_flow_choice (map_flow_findings options detectors ctx)]

/-- Flows that are reported have different keys, whatever the options are. -/
theorem nodup_keys_flowsInContext (options : DetectorOptions) (detectors : List Detector)
    (ctx : Context) : ((flowsInContext options detectors ctx).map Flow.key).Nodup := by
  unfold flowsInContext
  split
  · rw [← map_flow_choice (map_flow_findings options detectors ctx), List.map_map]
    exact nodup_keys_choice options _
  · exact List.nodup_nil

/-- The choice from the findings of detectors in the order of their priorities is right. -/
theorem selectionOf_findings {options : DetectorOptions} {detectors : List Detector} {ctx : Context}
    (limit : 0 ≤ options.maxFlows) (order : detectors.Pairwise fun a b => b.priority < a.priority)
    (checked : ∀ d ∈ detectors, ∀ flows, d.detect ctx = .ok flows → ∀ f ∈ flows, f.check = .ok f) :
    SelectionOf options (findings options detectors ctx)
      (choice options (findings options detectors ctx)) := by
  refine selectionOf_choice limit (findings_pairwise order) ?_
  intro a ha
  obtain ⟨d, hd, flows, hflows, hmem⟩ := flow_of_mem_findings ha
  exact checked d hd flows hflows a.flow hmem

/-- For detectors in the order of their priorities, whatever they find, the flows reported for a context
that runs both tools are the right choice from the flows found. -/
theorem flowsInContext_selects {options : DetectorOptions} {detectors : List Detector} {ctx : Context}
    (terraform : ctx.terraformSteps ≠ []) (helm : ctx.helmSteps ≠ []) (limit : 0 ≤ options.maxFlows)
    (order : detectors.Pairwise fun a b => b.priority < a.priority)
    (checked : ∀ d ∈ detectors, ∀ flows, d.detect ctx = .ok flows → ∀ f ∈ flows, f.check = .ok f) :
    ∃ chosen, flowsInContext options detectors ctx = chosen.map Finding.flow ∧
      SelectionOf options (findings options detectors ctx) chosen := by
  have hselection := selectionOf_findings limit order checked
  exact ⟨_, flowsInContext_eq_choice terraform helm, hselection⟩

/-! ### Three detectors, one of which fails -/

/-- A flow into one value of one job. -/
def plainFlow (output : String) (confidence : Int) : Flow where
  id := output
  source := { name := output, jobId := "infra", stepIndex := 0, command := "output" }
  target := { path := "host", jobId := "deploy", stepIndex := 0, command := "upgrade", channel := .setFlag }
  pattern := .directOutput
  confidence := .int confidence
  level := .ofScore (.int confidence)
  evidence := []
  setting := { workflowFile := "ci.yml", jobChain := ["infra", "deploy"] }

/-- A detector that gives one answer for every context. -/
def fixedDetector (priority : Int) (answer : Except DetectorFault (List Flow)) : Detector where
  pattern := .directOutput
  baseConfidence := 0
  priority := priority
  description := ""
  applies _ := true
  detect _ := answer

/-- The second detector fails, and the third one finds one flow again that the first one found. -/
def threeDetectors : List Detector :=
  [fixedDetector 3 (.ok [plainFlow "port" 50, plainFlow "host" 20, plainFlow "zone" 60]),
    fixedDetector 2 (.error .broken),
    fixedDetector 1 (.ok [plainFlow "port" 90, plainFlow "name" 60, plainFlow "size" 70])]

/-- A context that runs both tools. -/
def bothToolsContext : Context where
  workflow := []
  file := "ci.yml"
  jobs := []
  terraformSteps := [{ jobId := "infra", stepIndex := 0, command := "output", run := "" }]
  helmSteps := [{ jobId := "deploy", stepIndex := 0, command := "upgrade", run := "" }]
  dependencies := []

theorem plainFlow_check {output : String} {confidence : Int} (low : 0 ≤ confidence)
    (high : confidence ≤ 100) : (plainFlow output confidence).check = .ok (plainFlow output confidence) :=
  if_pos (inScoreRange_int low high)

/-- Of the flows that three detectors find, the surest three are reported; the two that are as sure stand
in the order of their detectors. -/
theorem flowsInContext_selects_three :
    (∃ chosen, flowsInContext { maxFlows := 3 } threeDetectors bothToolsContext =
        chosen.map Finding.flow ∧
      SelectionOf { maxFlows := 3 } (findings { maxFlows := 3 } threeDetectors bothToolsContext) chosen) ∧
    (flowsInContext { maxFlows := 3 } threeDetectors bothToolsContext).map Flow.id =
      ["size", "zone", "name"] := by
  refine ⟨flowsInContext_selects (by decide) (by decide) (by decide) (by decide) ?_, by decide +kernel⟩
  intro d hd flows hflows f hf
  simp only [threeDetectors, List.mem_cons, List.not_mem_nil, or_false] at hd
  rcases hd with rfl | rfl | rfl
  · cases hflows
    simp only [List.mem_cons, List.not_mem_nil, or_false] at hf
    rcases hf with rfl | rfl | rfl <;> exact plainFlow_check (by decide) (by decide)
  · cases hflows
  · cases hflows
    simp only [List.mem_cons, List.not_mem_nil, or_false] at hf
    rcases hf with rfl | rfl | rfl <;> exact plainFlow_check (by decide) (by decide)

/-! ### No number as the least confidence -/

/-- With no number as the least confidence a flow is left out that is below nothing: no flow of its key
comes before it, its confidence is not below the least one, and nothing at all is reported. -/
theorem flow_dropped_below_nothing :
    ¬ ∀ (options : DetectorOptions) (detectors : List Detector) (ctx : Context),
      ctx.terraformSteps ≠ [] → ctx.helmSteps ≠ [] → 0 ≤ options.maxFlows →
      (detectors.Pairwise fun a b => b.priority < a.priority) →
      (∀ d ∈ detectors, ∀ flows, d.detect ctx = .ok flows → ∀ f ∈ flows, f.check = .ok f) →
      ∀ a ∈ findings options detectors ctx, a.flow ∈ flowsInContext options detectors ctx ∨
        (∃ b ∈ findings options detectors ctx, b.ComesBefore a ∧ b.flow.key = a.flow.key) ∨
        a.flow.confidence.lt options.minConfidence = true ∨
        ((flowsInContext options detectors ctx).length : Int) = options.maxFlows := by
  intro complete
  have checked : ∀ d ∈ [fixedDetector 1 (.ok [plainFlow "port" 77])], ∀ flows,
      d.detect bothToolsContext = .ok flows → ∀ f ∈ flows, f.check = .ok f := by
    intro d hd flows hflows f hf
    cases List.mem_singleton.mp hd
    cases hflows
    cases List.mem_singleton.mp hf
    exact plainFlow_check (by decide) (by decide)
  have hcase := complete { minConfidence := .fraction .nan } _ _ (by decide) (by decide) (by decide)
    (List.pairwise_singleton _ _) checked ⟨1, 0, plainFlow "port" 77⟩ (List.mem_singleton_self _)
  rcases hcase with hreported | ⟨b, hb, hbefore, -⟩ | hbelow | hfull
  · have hnone : flowsInContext { minConfidence := .fraction .nan }
        [fixedDetector 1 (.ok [plainFlow "port" 77])] bothToolsContext = [] := by decide +kernel
    rw [hnone] at hreported
    exact List.not_mem_nil hreported
  · cases List.mem_singleton.mp hb
    exact Finding.comesBefore_asymm _ _ hbefore hbefore
  · cases hbelow
  · revert hfull
    decide +kernel

end DeployTrace
