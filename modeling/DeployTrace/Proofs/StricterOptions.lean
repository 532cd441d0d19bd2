/-
  DeployTrace/Proofs/StricterOptions.lean --- stricter options report the beginning of the same list.

  WHAT THIS FILE IS FOR.  Two options say how much is reported: the least confidence and the greatest
  number of flows.  Neither changes what is found, which flow of a key stays, or in which order flows
  stand.  So what is reported under a higher confidence and a smaller number is the beginning of what is
  reported under a lower confidence and a greater number.

  WHY THE ORDER OF THE RULES MATTERS.  The confidence is asked for after the first flow of every key was
  chosen: a flow that is not sure enough still keeps out later ones of its key, under either option.
  And it is asked for before sorting, which changes nothing, because sorting is stable: leaving flows
  out commutes with it.  As the surest come first, those left are the beginning of the sorted list.
-/
import DeployTrace.Proofs.Detectors
import DeployTrace.Proofs.Memory
import DeployTrace.Proofs.Ranking

set_option autoImplicit false

namespace DeployTrace

/-! ## Sorted flows -/

/-- Whether a flow has a greater value as confidence than another one. -/
def surerByValue (a b : Flow) : Bool := decide (b.confidence.value < a.confidence.value)

theorem surerByValue_weakOrder : WeakOrder surerByValue :=
  weakOrder_rat.flip.comap fun f : Flow => f.confidence.value

section

variable {flows : List Flow}

/-- Flows with finite confidences are sorted by the values of these. -/
theorem sortByConfidence_eq (finite : ∀ f ∈ flows, f.confidence.IsFinite) :
    sortByConfidence flows = sortBy surerByValue flows :=
  sortBy_congr fun a ha b hb => Number.lt_eq_decide (finite b hb) (finite a ha)

/-- Leaving out flows that are not sure enough commutes with sorting. -/
theorem sortByConfidence_atLeast (finite : ∀ f ∈ flows, f.confidence.IsFinite) (threshold : Number) :
    sortByConfidence (atLeast threshold flows) = atLeast threshold (sortByConfidence flows) := by
  unfold atLeast
  rw [sortByConfidence_eq finite, ← sortBy_filter surerByValue_weakOrder]
  exact sortByConfidence_eq fun f hf => finite f (List.mem_filter.mp hf).1

/-- Of sorted flows the sure enough ones are the beginning. -/
theorem atLeast_isPrefix (finite : ∀ f ∈ flows, f.confidence.IsFinite) (threshold : Number) :
    atLeast threshold (sortByConfidence flows) <+: sortByConfidence flows := by
  have sorted : (sortByConfidence flows).Pairwise fun a b => b.confidence.le a.confidence = true := by
    rw [sortByConfidence_eq finite]
    refine (sortBy_pairwise surerByValue_weakOrder
      (List.pairwise_of_forall fun _ _ => trivial)).imp_of_mem ?_
    intro a b ha hb hab
    rw [Number.le_eq_decide (finite b (mem_sortBy.mp hb)) (finite a (mem_sortBy.mp ha)),
      decide_eq_true_eq]
    exact Rat.not_lt.mp (of_decide_eq_false (hab.not_precedes surerByValue_weakOrder))
  exact filter_isPrefix sorted fun a b hba hb => Number.le_trans hb hba

/-- Of what reaches a lower confidence, what reaches a higher one is left. -/
theorem atLeast_atLeast {low high : Number} (h : low.le high = true) (flows : List Flow) :
    atLeast high (atLeast low flows) = atLeast high flows := by
  unfold atLeast
  rw [List.filter_filter]
  refine List.filter_congr fun f _ => ?_
  rw [Bool.and_eq_left_iff_imp]
  exact Number.le_trans h

end

/-! ## The selection -/

/-- From the same findings, stricter options select the beginning of what looser ones select. -/
theorem selectFlows_isPrefix {strict loose : DetectorOptions} {found : List (List Flow)}
    (hconfidence : loose.minConfidence.le strict.minConfidence = true) (hlow : 0 ≤ strict.maxFlows)
    (hmax : strict.maxFlows ≤ loose.maxFlows)
    (finite : ∀ f ∈ mergeFlows found, f.confidence.IsFinite) :
    selectFlows strict found <+: selectFlows loose found := by
  have finiteLoose : ∀ f ∈ atLeast loose.minConfidence (mergeFlows found), f.confidence.IsFinite :=
    fun f hf => finite f (List.mem_filter.mp hf).1
  have hsorted : sortByConfidence (atLeast strict.minConfidence (mergeFlows found)) =
      atLeast strict.minConfidence
        (sortByConfidence (atLeast loose.minConfidence (mergeFlows found))) := by
    rw [← atLeast_atLeast hconfidence, sortByConfidence_atLeast finiteLoose]
  unfold selectFlows
  rw [hsorted]
  exact keepFirst_isPrefix hlow hmax (atLeast_isPrefix finiteLoose strict.minConfidence)

/-- What the detectors at work find in a workflow has finite confidences. -/
theorem isFinite_of_mem_mergeFlows {digest : Digest} {options : DetectorOptions} {workflow : Table}
    {file : String} {f : Flow}
    (hf : f ∈ mergeFlows (foundFlows options (detectors digest) (.ofTable workflow file))) :
    f.confidence.IsFinite := by
  have hfound : f ∈ (foundFlows options (detectors digest) (.ofTable workflow file)).flatten := by
    unfold mergeFlows at hf
    rw [firstByKey_eq_firstBy] at hf
    exact (firstBy_sublist [] _).subset hf
  rw [← map_flow_findings] at hfound
  obtain ⟨a, ha, rfl⟩ := List.mem_map.mp hfound
  obtain ⟨d, hd, flows, hflows, hmem⟩ := flow_of_mem_findings ha
  obtain ⟨well, hwell, hfits⟩ :=
    detect_wellFormed (Context.ofTable_consistent workflow file) (mem_sortBy.mp hd)
  rw [hflows] at hwell
  cases hwell
  exact isFinite_of_check (hfits a.flow hmem).check_eq_ok

/-- Of options that differ in the least confidence and the greatest number of flows only, the stricter
ones report the beginning of what the looser ones report, for every workflow; what is no table is refused
under both. -/
theorem detectFlows_stricter {low high : Number} {few many : Int} (hconfidence : low.le high = true)
    (hlow : 0 ≤ few) (hmax : few ≤ many) (digest : Digest) (options : DetectorOptions) (workflow : Tree)
    (file : String) :
    let strict := detectFlows digest { options with minConfidence := high, maxFlows := few } workflow file
    let loose := detectFlows digest { options with minConfidence := low, maxFlows := many } workflow file
    (∃ first all, strict = .ok first ∧ loose = .ok all ∧ first <+: all) ∨
      ((∀ table, workflow ≠ .table table) ∧
        ∃ fault, strict = .error fault ∧ loose = .error fault) := by
  intro strict loose
  by_cases htable : ∀ table, workflow ≠ .table table
  · exact Or.inr ⟨htable, tableFault workflow, detectFlows_of_not_table htable,
      detectFlows_of_not_table htable⟩
  · obtain ⟨table, rfl⟩ : ∃ table, workflow = .table table := by simpa using htable
    refine Or.inl ⟨_, _, detectFlows_table table, detectFlows_table table, ?_⟩
    unfold flowsInContext
    split
    · exact selectFlows_isPrefix hconfidence hlow hmax fun f hf => isFinite_of_mem_mergeFlows hf
    · exact List.nil_prefix

/-! ### A sure flow and a less sure one -/

/-- A job that hands one output to Helm through a variable and another one directly. -/
def twoWaysJob : Tree :=
  .table [(.text "d", oneLineJob
    "V=$(terraform output x); helm --set k=$V --set j=$(terraform output y)")]

/-- The more is asked of flows, the shorter the beginning. -/
theorem detectFlows_stricter_twoWays :
    Number.le 40 85 = true ∧
      ((∃ first all, detectFlows plainDigest { minConfidence := 85, maxFlows := 1 } twoWaysJob "ci.yml" =
          .ok first ∧ detectFlows plainDigest { minConfidence := 40, maxFlows := 9 } twoWaysJob "ci.yml" =
          .ok all ∧ first <+: all) ∨
        ((∀ table, twoWaysJob ≠ .table table) ∧ ∃ fault,
          detectFlows plainDigest { minConfidence := 85, maxFlows := 1 } twoWaysJob "ci.yml" =
            .error fault ∧
          detectFlows plainDigest { minConfidence := 40, maxFlows := 9 } twoWaysJob "ci.yml" =
            .error fault)) ∧
      answerSources (detectFlows plainDigest { minConfidence := 85, maxFlows := 1 } twoWaysJob
        "ci.yml") = [("d", "y")] ∧
      answerSources (detectFlows plainDigest { minConfidence := 40, maxFlows := 9 } twoWaysJob
        "ci.yml") = [("d", "y"), ("d", "x")] :=
  ⟨by decide, detectFlows_stricter (by decide) (by decide) (by decide) plainDigest {} twoWaysJob "ci.yml",
    by decide +kernel, by decide +kernel⟩

end DeployTrace
