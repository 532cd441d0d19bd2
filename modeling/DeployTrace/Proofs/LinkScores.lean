/-
  DeployTrace/Proofs/LinkScores.lean --- scores of nodes are on the scale.

  WHAT THIS FILE IS FOR.  A score comes from one of several rules.  Some of them give a fixed number, the
  others a likeness of paths or names, which is a share in percent and rounded on the way.  It is shown
  here that every score is from 0 to 100, whatever the job, the operation, the node and the options are,
  and that scoring fails for no node whose facts are texts.
-/
import DeployTrace.Link.Score
import DeployTrace.Proofs.Rounding
import Mathlib.Tactic.NormNum

set_option autoImplicit false

namespace DeployTrace

open Text

/-! ## Likeness -/

/-- An integer is a score when it is from 0 to 100. -/
def IsScore (i : Int) : Prop := 0 ≤ i ∧ i ≤ 100

instance (i : Int) : Decidable (IsScore i) := inferInstanceAs (Decidable (0 ≤ i ∧ i ≤ 100))

/-- A part of a whole is a score in percent. -/
theorem isScore_percentage {part whole : Nat} (hpart : part ≤ whole) (hwhole : 0 < whole) :
    IsScore (percentage part whole) := by
  have hpos : (0 : Rat) < whole := Nat.cast_pos.mpr hwhole
  have hshare : (Binary64.ofRat ((part : Rat) / (whole : Rat))).Within 1 := by
    refine Binary64.within_ofRat (by decide) (div_nonneg (Nat.cast_nonneg part) hpos.le) ?_
    rw [div_le_iff₀ hpos, Nat.cast_one, one_mul]
    exact Nat.cast_le.mpr hpart
  have hhundred : (Binary64.ofInt 100).Within 100 :=
    Binary64.within_ofRat (by decide) (by decide) (by decide)
  have hne : ((whole : Int) == 0) = false := by
    rw [beq_eq_false_iff_ne]
    omega
  have hquotient : percentage part whole =
      ((Binary64.ofRat ((part : Rat) / (whole : Rat))).mul (.ofInt 100)).round := by
    unfold percentage Number.div
    simp only [hne]
    rfl
  rw [hquotient]
  exact (hshare.mul hhundred (by decide)).round_bounds

theorem sharedLead_le {α : Type} [BEq α] (xs ys : List α) : sharedLead xs ys ≤ xs.length := by
  induction xs generalizing ys with
  | nil => simp [sharedLead]
  | cons x rest ih =>
      cases ys with
      | nil => simp [sharedLead]
      | cons y more =>
          have hrest := ih more
          unfold sharedLead
          split
          · rw [List.length_cons]
            omega
          · omega

theorem isScore_pathSimilarity (a b : String) : IsScore (pathSimilarity a b) := by
  unfold pathSimilarity
  simp only
  split
  · decide
  · rename_i hempty
    have hfirst : plainSegments a ≠ [] := by
      intro h
      simp [h] at hempty
    have hpos : 0 < (plainSegments a).length := List.length_pos_iff.mpr hfirst
    have hlead := sharedLead_le (plainSegments a) (plainSegments b)
    exact isScore_percentage (by omega) (by omega)

theorem isScore_nameSimilarity (a b : String) : IsScore (nameSimilarity a b) := by
  unfold nameSimilarity
  simp only
  split
  · decide
  · rename_i hempty
    split
    · decide
    split
    · decide
    · have hfirst : plainName a ≠ [] := by
        intro h
        simp [h] at hempty
      have hpos : 0 < (plainName a).length := List.length_pos_iff.mpr hfirst
      exact isScore_percentage (Nat.sub_le _ _) (by omega)

theorem isScore_foldl_max {scores : List Int} (hscores : ∀ s ∈ scores, IsScore s) {best : Int}
    (hbest : IsScore best) : IsScore (scores.foldl max best) := by
  induction scores generalizing best with
  | nil => exact hbest
  | cons s rest ih =>
      have hs := hscores s List.mem_cons_self
      refine ih (fun t ht => hscores t (List.mem_cons_of_mem s ht)) ?_
      unfold IsScore at hbest hs ⊢
      omega

theorem isScore_bestNameSimilarity (job : JobNode) (o : Operation) (n : InfraNode) :
    IsScore (bestNameSimilarity job o n) := by
  refine isScore_foldl_max (fun s hs => ?_) (by decide)
  obtain ⟨name, -, rfl⟩ := List.mem_map.mp hs
  exact isScore_nameSimilarity name n.name

theorem isScore_nameScore {similarity : Int} (h : IsScore similarity) : IsScore (nameScore similarity) := by
  have hsimilarity : (Binary64.ofInt similarity).Within 100 := by
    refine Binary64.within_ofRat (by decide) (Int.cast_nonneg h.1) ?_
    exact_mod_cast h.2
  have hseven : (Binary64.ofRat (7 / 10)).Within 1 :=
    Binary64.within_ofRat (by decide) (by norm_num) (by norm_num)
  exact (hsimilarity.mul hseven (by decide)).round_bounds

/-! ## Facts that are texts -/

/-- A tree is textual when it is a text or nothing. -/
def Tree.IsTextual (t : Tree) : Prop := t = .null ∨ ∃ s, t = .text s

/-- All facts about a node are texts. -/
def InfraNode.HasTextFacts (n : InfraNode) : Prop := ∀ entry ∈ n.facts, ∃ s, entry.2 = .text s

theorem InfraNode.HasTextFacts.fact {n : InfraNode} (h : n.HasTextFacts) (name : String) :
    (n.fact name).IsTextual := by
  unfold InfraNode.fact Table.field Table.field? Table.get?
  cases hfind : n.facts.find? fun entry => entry.1.same (.text name) with
  | none => exact Or.inl rfl
  | some entry => exact Or.inr (h entry (List.mem_of_find?_eq_some hfind))

theorem Tree.IsTextual.orElse {t : Tree} (h : t.IsTextual) (s : String) : (t.orElse (.text s)).IsTextual := by
  unfold Tree.orElse
  split
  · exact h
  · exact Or.inr ⟨s, rfl⟩

theorem Tree.IsTextual.textFactFor {t : Tree} (h : t.IsTextual) (needed : Bool) :
    ∃ text, textFactFor needed t = .ok text := by
  have hfact : ∃ text, textFact t = .ok text := by
    obtain rfl | ⟨s, rfl⟩ := h
    · exact ⟨none, rfl⟩
    · unfold textFact
      split
      · exact ⟨none, rfl⟩
      · exact ⟨some s, rfl⟩
  unfold DeployTrace.textFactFor
  split
  · exact hfact
  · exact ⟨none, rfl⟩

/-! ## The best score -/

/-- The best score so far, if any, is on the scale. -/
def OnScale (best : Option LinkScore) : Prop := ∀ s ∈ best, IsScore s.confidence

theorem onScale_none : OnScale none := fun _ h => absurd h (Option.not_mem_none _)

section

variable {best : Option LinkScore} {job : JobNode} {o : Operation} {n : InfraNode} {options : LinkerOptions}

theorem OnScale.considered (h : OnScale best) {score : LinkScore} (hscore : IsScore score.confidence) :
    OnScale (considered best score) := by
  have hsome : OnScale (some score) := fun s hs => Option.mem_some.mp hs ▸ hscore
  unfold DeployTrace.considered
  split <;> split
  · exact hsome
  · exact onScale_none
  · exact hsome
  · exact h

theorem OnScale.consideredIf (h : OnScale best) (applies : Bool) {confidence : Int}
    (hconfidence : IsScore confidence) (reason : MatchReason) :
    OnScale (consideredIf best applies confidence reason) := by
  unfold DeployTrace.consideredIf
  split
  · exact h.considered hconfidence
  · exact h

theorem OnScale.consideringNearness (h : OnScale best) {near : Int} (hnear : IsScore near) :
    OnScale (consideringNearness near job n best) :=
  h.consideredIf _ hnear _

theorem OnScale.consideringNames (h : OnScale best) : OnScale (consideringNames job o n options best) := by
  unfold DeployTrace.consideringNames
  split
  · exact h.consideredIf _ (isScore_nameScore (isScore_bestNameSimilarity job o n)) _
  · exact h

theorem onScale_directoryScore {similarity : Int} (h : IsScore similarity) :
    OnScale (directoryScore similarity options) := by
  unfold directoryScore
  split
  · exact onScale_none.considered h
  split
  · exact onScale_none.considered h
  · exact onScale_none

/-! ## Scoring -/

/-- A node with texts as facts is scored for a Terraform operation, on the scale. -/
theorem terraformScore_onScale (hn : n.HasTextFacts) (job : JobNode) (o : Operation)
    (options : LinkerOptions) : ∃ best, terraformScore job o n options = .ok best ∧ OnScale best := by
  obtain ⟨home, hhome⟩ := ((hn.fact "modulePath").orElse (plainDirectory n.filePath)).textFactFor
    (nonempty? o.workingDir).isSome
  obtain ⟨output, houtput⟩ := ((hn.fact "outputName").orElse n.name).textFactFor
    (!o.outputs.isEmpty && n.kind == .terraformOutput)
  unfold terraformScore modulePath
  simp only [hhome, houtput]
  refine ⟨_, rfl, ?_⟩
  refine OnScale.consideringNames (OnScale.consideredIf (OnScale.consideringNearness ?_ ?_) _ ?_ _)
  · split
    · exact onScale_directoryScore (isScore_pathSimilarity _ _)
    · exact onScale_none
  · decide
  · decide

/-- A node with texts as facts is scored for a Helm operation, on the scale. -/
theorem helmScore_onScale (hn : n.HasTextFacts) (job : JobNode) (o : Operation) (options : LinkerOptions) :
    ∃ best, helmScore job o n options = .ok best ∧ OnScale best := by
  obtain ⟨chartPath, hchartPath⟩ := (hn.fact "chartPath").textFactFor
    (!((nonempty? o.workingDir).toList ++ (nonempty? (chartReference? o.text)).toList).isEmpty)
  obtain ⟨release, hrelease⟩ := (hn.fact "releaseName").textFactFor
    (nonempty? (releaseName? o.text)).isSome
  obtain ⟨chart, hchart⟩ := (hn.fact "chartName").textFactFor (nonempty? (chartReference? o.text)).isSome
  unfold helmScore
  simp only [hchartPath, hrelease, hchart]
  refine ⟨_, rfl, ?_⟩
  refine OnScale.consideringNames (OnScale.consideringNearness ?_ (by decide))
  refine OnScale.consideredIf ?_ _ (by decide) _
  refine OnScale.consideredIf ?_ _ (by decide) _
  refine OnScale.consideredIf ?_ _ (by decide) _
  exact onScale_none.consideredIf _ (by decide) _

end

end DeployTrace
