/-
  DeployTrace/Proofs/StrongerEvidence.lean --- stronger evidence never lowers a score.

  WHAT THIS FILE IS FOR.  The strength of an item enters a score twice: through the weighted mean, which
  it raises, and through the count of the items below one half, whose majority costs points.  Everything
  else in a score depends on the kinds and the snippets alone.  So when some items become stronger and
  nothing else changes, no part of the score moves the wrong way.

  The comparison is between two whole lists, item by item; raising one item is a special case.
-/
import DeployTrace.Proofs.ExactScores
import DeployTrace.Proofs.Entries
import DeployTrace.Proofs.Scale

set_option autoImplicit false

namespace DeployTrace

/-! ## Lists that differ in strength -/

/-- The second item differs from the first at most by a greater strength. -/
structure Evidence.RaisedTo (a b : Evidence) : Prop where
  kind : b.kind = a.kind
  snippet : b.snippet = a.snippet
  strength : a.exactStrength ≤ b.exactStrength

theorem Evidence.RaisedTo.refl (a : Evidence) : a.RaisedTo a := ⟨rfl, rfl, le_refl _⟩

/-- Giving one item a greater strength. -/
def raiseAt (evidence : List Evidence) (position : Nat) (strength : Number) : List Evidence :=
  evidence.modify position fun e => { e with strength := strength }

theorem forall₂_raiseAt {evidence : List Evidence} {position : Nat} {strength : Number}
    (h : ∀ e, evidence[position]? = some e → e.exactStrength ≤ strength.value) :
    List.Forall₂ Evidence.RaisedTo evidence (raiseAt evidence position strength) := by
  induction evidence generalizing position with
  | nil => simp [raiseAt]
  | cons e rest ih =>
      cases position with
      | zero =>
          refine .cons ⟨rfl, rfl, h e rfl⟩ ?_
          exact List.forall₂_same.mpr fun a _ => Evidence.RaisedTo.refl a
      | succ n => exact .cons (Evidence.RaisedTo.refl e) (ih h)

section RaisedEvidence

variable {evidence raised : List Evidence}

/-- What is read from the kind and the snippet of each item is the same for both lists. -/
theorem map_eq_of_raised {β : Type} {f : Evidence → β}
    (hf : ∀ a b : Evidence, b.kind = a.kind → b.snippet = a.snippet → f b = f a)
    (h : List.Forall₂ Evidence.RaisedTo evidence raised) : raised.map f = evidence.map f := by
  induction h with
  | nil => rfl
  | cons hitem _ ih => rw [List.map_cons, List.map_cons, ih, hf _ _ hitem.kind hitem.snippet]

theorem all_eq_of_raised {p : Evidence → Bool}
    (hp : ∀ a b : Evidence, b.kind = a.kind → b.snippet = a.snippet → p b = p a)
    (h : List.Forall₂ Evidence.RaisedTo evidence raised) : raised.all p = evidence.all p := by
  simpa [List.all_map] using congrArg (List.all · id) (map_eq_of_raised hp h)

theorem any_eq_of_raised {p : Evidence → Bool}
    (hp : ∀ a b : Evidence, b.kind = a.kind → b.snippet = a.snippet → p b = p a)
    (h : List.Forall₂ Evidence.RaisedTo evidence raised) : raised.any p = evidence.any p := by
  simpa [List.any_map] using congrArg (List.any · id) (map_eq_of_raised hp h)

/-! ## What does not change -/

theorem hasKind_of_raised (h : List.Forall₂ Evidence.RaisedTo evidence raised) (kind : EvidenceKind) :
    hasKind raised kind = hasKind evidence kind :=
  any_eq_of_raised (fun a b hkind _ => by rw [hkind]) h

theorem explicitPoints_of_raised (h : List.Forall₂ Evidence.RaisedTo evidence raised) :
    explicitPoints raised = explicitPoints evidence := by
  have hneeds : raised.any Evidence.quotesNeeds = evidence.any Evidence.quotesNeeds :=
    any_eq_of_raised (fun a b _ hsnippet => by simp only [Evidence.quotesNeeds, hsnippet]) h
  simp only [explicitPoints, hasKind_of_raised h, hneeds]

theorem snippetText_of_raised (h : List.Forall₂ Evidence.RaisedTo evidence raised) :
    snippetText raised = snippetText evidence := by
  have hsnippets : raised.map Evidence.snippet = evidence.map Evidence.snippet :=
    map_eq_of_raised (fun a b _ hsnippet => hsnippet) h
  have hfilter : ∀ items : List Evidence,
      items.filterMap Evidence.snippet = (items.map Evidence.snippet).filterMap id := by
    intro items
    rw [List.filterMap_map]
    rfl
  simp only [snippetText, hfilter, hsnippets]

theorem weightOf_of_raised (w : ScoringWeights Rat)
    (h : List.Forall₂ Evidence.RaisedTo evidence raised) : w.weightOf raised = w.weightOf evidence := by
  unfold ScoringWeights.weightOf
  rw [map_eq_of_raised (fun a b hkind _ => by rw [hkind]) h]

/-! ## What changes in one direction -/

/-- Of the stronger items no more are below one half. -/
theorem countWeak_of_raised (h : List.Forall₂ Evidence.RaisedTo evidence raised) :
    (raised.filter fun e => decide (e.exactStrength < 50)).length ≤
      (evidence.filter fun e => decide (e.exactStrength < 50)).length := by
  induction h with
  | nil => exact Nat.le_refl _
  | cons hitem _ ih =>
      rename_i a b rest more _
      by_cases hb : b.exactStrength < 50
      · have ha : a.exactStrength < 50 := lt_of_le_of_lt hitem.strength hb
        simpa [ha, hb] using ih
      · by_cases ha : a.exactStrength < 50
        · simpa [ha, hb] using Nat.le_succ_of_le ih
        · simpa [ha, hb] using ih

theorem weakPoints_of_raised (h : List.Forall₂ Evidence.RaisedTo evidence raised) (pattern : String) :
    weakPoints Evidence.exactStrength pattern raised ≤
      weakPoints Evidence.exactStrength pattern evidence := by
  have hlength : raised.length = evidence.length := h.length_eq.symm
  have hempty : raised.isEmpty = evidence.isEmpty := by cases h <;> rfl
  have hweak : raised.all (·.kind.isWeak) = evidence.all (·.kind.isWeak) :=
    all_eq_of_raised (fun a b hkind _ => by rw [hkind]) h
  have hcount := countWeak_of_raised h
  simp only [weakPoints, hempty, hweak, snippetText_of_raised h, hlength, Arithmetic.lt_rat,
    Arithmetic.ofInt_rat, Int.cast_ofNat]
  -- Only the last summand can differ: a majority of weak items among the raised ones was there before.
  refine Nat.add_le_add_left ?_ _
  split
  · rename_i hmajority
    rw [Bool.and_eq_true, decide_eq_true_eq] at hmajority
    rw [if_pos]
    rw [Bool.and_eq_true, decide_eq_true_eq]
    exact ⟨hmajority.1, by omega⟩
  · exact Nat.zero_le _

section Weights

variable {w : ScoringWeights Rat} (hkinds : ∀ entry ∈ w.kindWeights, 0 ≤ entry.2)

include hkinds in
theorem kindWeight_nonneg (kind : EvidenceKind) : 0 ≤ w.kindWeight kind := by
  unfold ScoringWeights.kindWeight
  cases hentry : w.kindWeights.get? kind.name with
  | none => simp [Arithmetic.ofRat_rat]
  | some weight => exact hkinds _ (Entries.mem_of_get? hentry)

include hkinds in
theorem weighted_le_of_raised (h : List.Forall₂ Evidence.RaisedTo evidence raised) :
    w.weighted Evidence.exactStrength evidence ≤ w.weighted Evidence.exactStrength raised := by
  unfold ScoringWeights.weighted
  refine List.Forall₂.sum_le_sum ?_
  rw [List.forall₂_map_left_iff, List.forall₂_map_right_iff]
  refine h.imp fun a b hitem => ?_
  rw [hitem.kind]
  exact mul_le_mul_of_nonneg_right hitem.strength (kindWeight_nonneg hkinds _)

include hkinds in
theorem evidenceScore_le_of_raised (hevidence : 0 ≤ w.evidenceWeight)
    (h : List.Forall₂ Evidence.RaisedTo evidence raised) :
    evidenceScore w Evidence.exactStrength evidence ≤ evidenceScore w Evidence.exactStrength raised := by
  have hweight : 0 ≤ w.weightOf evidence := by
    refine List.sum_nonneg fun x hx => ?_
    obtain ⟨e, -, rfl⟩ := List.mem_map.mp hx
    exact kindWeight_nonneg hkinds _
  rw [evidenceScore_eq, evidenceScore_eq, weightOf_of_raised w h]
  exact mul_le_mul_of_nonneg_right
    (div_le_div_of_nonneg_right (weighted_le_of_raised hkinds h) hweight) hevidence

include hkinds in
/-- Item by item stronger evidence gives a score that is no lower. -/
theorem total_le_of_raised (hevidence : 0 ≤ w.evidenceWeight)
    (h : List.Forall₂ Evidence.RaisedTo evidence raised) (pattern : String) :
    (breakdown w Evidence.exactStrength pattern evidence).total ≤
      (breakdown w Evidence.exactStrength pattern raised).total := by
  have hscore := evidenceScore_le_of_raised hkinds hevidence h
  have hbonus : explicitBonus w raised = explicitBonus w evidence := by
    simp only [explicitBonus, explicitPoints_of_raised h]
  have hpenalty : weaknessPenalty w Evidence.exactStrength pattern raised ≤
      weaknessPenalty w Evidence.exactStrength pattern evidence := by
    simp only [weaknessPenalty, Arithmetic.least_rat, Arithmetic.ofInt_rat]
    exact min_le_min_right _ (by exact_mod_cast weakPoints_of_raised h pattern)
  refine round_clampScore_mono ?_
  simp only [Arithmetic.add_rat, Arithmetic.sub_rat, hbonus]
  linarith

end Weights

/-- Item by item stronger evidence gives a detector a confidence that is no lower. -/
theorem detectorConfidence_le_of_raised (base : Rat)
    (h : List.Forall₂ Evidence.RaisedTo evidence raised) :
    detectorConfidence base (evidence.map Evidence.exactStrength) ≤
      detectorConfidence base (raised.map Evidence.exactStrength) := by
  have hsum : (evidence.map Evidence.exactStrength).sum ≤ (raised.map Evidence.exactStrength).sum := by
    refine List.Forall₂.sum_le_sum ?_
    rw [List.forall₂_map_left_iff, List.forall₂_map_right_iff]
    exact h.imp fun a b hitem => hitem.strength
  have hcount : (0 : Rat) ≤ evidence.length := Nat.cast_nonneg _
  have hmean := div_le_div_of_nonneg_right hsum hcount
  rw [detectorConfidence_eq, detectorConfidence_eq]
  simp only [List.length_map, ← h.length_eq]
  refine round_clampScore_mono ?_
  linarith

end RaisedEvidence

/-! ## Raising one item -/

/-- Raising the strength of one item within the scale never lowers the score of a flow, whatever the
pattern, nor the confidence of a detector, whatever its base. -/
theorem scores_monotone_in_strength {w : ScoringWeights Rat} (hevidence : 0 ≤ w.evidenceWeight)
    (hkinds : ∀ entry ∈ w.kindWeights, 0 ≤ entry.2) {evidence : List Evidence} {position : Nat}
    {e : Evidence} (hitem : evidence[position]? = some e) {strength : Number}
    (hbefore : inScoreRange e.strength = true) (hafter : inScoreRange strength = true)
    (hraise : e.strength.le strength = true) (pattern : String) (base : Rat) :
    (breakdown w Evidence.exactStrength pattern evidence).total ≤
        (breakdown w Evidence.exactStrength pattern (raiseAt evidence position strength)).total ∧
      detectorConfidence base (evidence.map Evidence.exactStrength) ≤
        detectorConfidence base ((raiseAt evidence position strength).map Evidence.exactStrength) := by
  have hvalue : e.exactStrength ≤ strength.value := by
    rwa [Number.le_eq_decide (inScoreRange_iff.mp hbefore).1 (inScoreRange_iff.mp hafter).1,
      decide_eq_true_eq] at hraise
  have hraised : List.Forall₂ Evidence.RaisedTo evidence (raiseAt evidence position strength) := by
    refine forall₂_raiseAt fun a ha => ?_
    rw [hitem] at ha
    cases ha
    exact hvalue
  exact ⟨total_le_of_raised hkinds hevidence hraised pattern,
    detectorConfidence_le_of_raised base hraised⟩

/-- Two items, of which the weaker one is raised over one half. -/
theorem scores_monotone_in_strength_standard :
    let evidence : List Evidence :=
      [{ kind := .stepProximity, description := "near", strength := 30 },
        { kind := .semanticMatch, description := "alike", strength := 45 }]
    (breakdown ScoringWeights.standard Evidence.exactStrength "inferred" evidence).total ≤
        (breakdown ScoringWeights.standard Evidence.exactStrength "inferred"
          (raiseAt evidence 1 70)).total ∧
      detectorConfidence (45 : Rat) (evidence.map Evidence.exactStrength) ≤
        detectorConfidence (45 : Rat) ((raiseAt evidence 1 70).map Evidence.exactStrength) :=
  scores_monotone_in_strength (by decide +kernel) (by decide +kernel) rfl (by decide) (by decide) (by decide)
    "inferred" 45

end DeployTrace
