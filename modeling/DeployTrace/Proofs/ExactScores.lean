/-
  DeployTrace/Proofs/ExactScores.lean --- scores over the rationals.

  WHAT THIS FILE IS FOR.  Scores are defined over any arithmetic.  Over the rationals their parts are what
  a textbook would write: sums, the smaller and the greater of two, a weighted mean, and a nearest integer
  that is half a unit away at most.  Here the parts are brought to that form, and the last two steps of
  every score, the cut to the scale and the rounding, are shown never to turn two scores around.
-/
import DeployTrace.Score.Breakdown
import DeployTrace.Detection.Candidate
import Mathlib.Algebra.BigOperators.Group.List.Lemmas
import Mathlib.Algebra.Order.BigOperators.Group.List
import Mathlib.Algebra.Order.Field.Basic
import Mathlib.Algebra.Order.Field.Rat
import Mathlib.Tactic.Linarith
import Mathlib.Tactic.Ring

set_option autoImplicit false

namespace DeployTrace

/-! ## The arithmetic of the rationals -/

namespace Arithmetic

@[simp] theorem ofInt_rat (i : Int) : (ofInt i : Rat) = i := rfl

@[simp] theorem ofRat_rat (q : Rat) : (ofRat q : Rat) = q := rfl

@[simp] theorem add_rat (a b : Rat) : add a b = a + b := rfl

@[simp] theorem sub_rat (a b : Rat) : sub a b = a - b := rfl

@[simp] theorem mul_rat (a b : Rat) : mul a b = a * b := rfl

@[simp] theorem div_rat (a b : Rat) : div a b = a / b := rfl

@[simp] theorem lt_rat (a b : Rat) : lt a b = decide (a < b) := rfl

@[simp] theorem same_rat (a b : Rat) : same a b = (a == b) := rfl

@[simp] theorem least_rat (a b : Rat) : least a b = min a b := by
  simp only [least, lt_rat, decide_eq_true_eq]
  grind

@[simp] theorem greatest_rat (a b : Rat) : greatest a b = max a b := by
  simp only [greatest, lt_rat, decide_eq_true_eq]
  grind

@[simp] theorem sum_rat (xs : List Rat) : sum xs = xs.sum := by
  rw [List.sum_eq_foldl]
  rfl

theorem clampScore_mono {x y : Rat} (h : x ≤ y) : clampScore x ≤ clampScore y := by
  simp only [clampScore, least_rat, greatest_rat]
  exact max_le_max_left _ (min_le_min_left _ h)

end Arithmetic

/-! ## Rounding -/

/-- A rounded quotient is half a unit away at most. -/
theorem roundedQuotient_near (num : Nat) {den : Nat} (hden : 0 < den) :
    2 * num ≤ (2 * roundedQuotient num den + 1) * den ∧
      2 * roundedQuotient num den * den ≤ 2 * num + den := by
  have hsplit : den * (num / den) + num % den = num := Nat.div_add_mod num den
  have hrest : num % den < den := Nat.mod_lt num hden
  unfold roundedQuotient
  generalize num / den = below at hsplit ⊢
  generalize num % den = rest at hsplit hrest ⊢
  subst hsplit
  have hup : 2 * (below + 1) * den = 2 * (den * below) + 2 * den := by ring
  have hdown : 2 * below * den = 2 * (den * below) := by ring
  have hhalfUp : (2 * (below + 1) + 1) * den = 2 * (den * below) + 3 * den := by ring
  have hhalfDown : (2 * below + 1) * den = 2 * (den * below) + den := by ring
  simp only
  split
  · omega
  · split
    · omega
    · split <;> omega

/-- The nearest integer is half a unit away at most. -/
theorem abs_nearestInt_sub_le (q : Rat) : |(nearestInt q : Rat) - q| ≤ 1 / 2 := by
  have hden : (0 : Rat) < q.den := Nat.cast_pos.mpr q.den_pos
  obtain ⟨hlow, hhigh⟩ := roundedQuotient_near q.num.natAbs q.den_pos
  generalize hsize : roundedQuotient q.num.natAbs q.den = size at hlow hhigh
  have hlow' : (2 : Rat) * q.num.natAbs ≤ (2 * size + 1) * q.den := by exact_mod_cast hlow
  have hhigh' : (2 : Rat) * size * q.den ≤ 2 * q.num.natAbs + q.den := by exact_mod_cast hhigh
  have hq : q * q.den = q.num := Rat.mul_den_eq_num q
  unfold nearestInt
  simp only [hsize]
  rw [abs_le]
  split
  · rename_i hneg
    have habs : (q.num.natAbs : Rat) = -(q * q.den) := by
      rw [Nat.cast_natAbs, abs_of_neg hneg, Int.cast_neg, hq]
    rw [habs] at hlow' hhigh'
    push_cast
    constructor <;> nlinarith
  · rename_i hpos
    have habs : (q.num.natAbs : Rat) = q * q.den := by
      rw [Nat.cast_natAbs, abs_of_nonneg (Int.not_lt.mp hpos), hq]
    rw [habs] at hlow' hhigh'
    push_cast
    constructor <;> nlinarith

/-- Rounding never turns two numbers around: if it did, they would lie half a unit beyond the same
border, each on the wrong side. -/
theorem nearestInt_mono {p q : Rat} (h : p ≤ q) : nearestInt p ≤ nearestInt q := by
  rcases eq_or_lt_of_le h with rfl | hlt
  · exact le_refl _
  by_contra hturned
  have hstep : (nearestInt q : Rat) + 1 ≤ nearestInt p := by exact_mod_cast not_le.mp hturned
  have hp := (abs_le.mp (abs_nearestInt_sub_le p)).2
  have hq := (abs_le.mp (abs_nearestInt_sub_le q)).1
  linarith

/-- What is cut to the scale and rounded keeps its order. -/
theorem round_clampScore_mono {x y : Rat} (h : x ≤ y) :
    (Arithmetic.round (Arithmetic.clampScore x)) ≤ (Arithmetic.round (Arithmetic.clampScore y)) :=
  nearestInt_mono (Arithmetic.clampScore_mono h)

/-! ## The parts of a score -/

/-- The strength of an item by its exact value. -/
def Evidence.exactStrength (e : Evidence) : Rat := e.strength.value

variable (w : ScoringWeights Rat)

/-- The weight of some evidence. -/
def ScoringWeights.weightOf (evidence : List Evidence) : Rat :=
  (evidence.map fun e => w.kindWeight e.kind).sum

/-- The strengths of some evidence, each with the weight of its kind. -/
def ScoringWeights.weighted (strength : Evidence → Rat) (evidence : List Evidence) : Rat :=
  (evidence.map fun e => strength e * w.kindWeight e.kind).sum

/-- The part that the evidence adds is its weighted mean.  Where nothing weighs anything, the quotient by
zero is the zero that is meant. -/
theorem evidenceScore_eq (strength : Evidence → Rat) (evidence : List Evidence) :
    evidenceScore w strength evidence =
      w.weighted strength evidence / w.weightOf evidence * w.evidenceWeight := by
  simp only [evidenceScore, Arithmetic.sum_rat, Arithmetic.same_rat, Arithmetic.mul_rat,
    Arithmetic.div_rat, Arithmetic.ofInt_rat, Int.cast_zero]
  split
  · rename_i hzero
    have hweight : w.weightOf evidence = 0 := by
      rcases Bool.or_eq_true _ _ |>.mp hzero with hempty | hsum
      · rw [List.isEmpty_iff.mp hempty]
        rfl
      · exact beq_iff_eq.mp hsum
    rw [hweight, div_zero, zero_mul]
  · rfl

/-- The mean that a detector adds; there is none without evidence, where the quotient is zero too. -/
theorem detectorConfidence_eq (base : Rat) (strengths : List Rat) :
    detectorConfidence base strengths = Arithmetic.round (Arithmetic.clampScore
      (base + 3 / 10 * (strengths.sum / strengths.length) + (min 10 (2 * strengths.length) : Nat))) := by
  unfold detectorConfidence
  cases strengths with
  | nil => simp
  | cons first rest => simp

end DeployTrace
