/-
  DeployTrace/Proofs/Scale.lean --- the scale from 0 to 100.

  WHAT THIS FILE IS FOR.  Confidences and strengths are numbers that may be integers or binary fractions,
  and fractions have values that are no number or beyond every bound.  A number ON THE SCALE is none of
  those: it is compared by its exact value.  And whatever the evidence, the confidence of a detector is
  an integer on the scale, because it is cut to the scale before it is rounded.
-/
import DeployTrace.Detection.Candidate
import DeployTrace.Proofs.Sorting

set_option autoImplicit false

namespace DeployTrace

/-! ## Finite numbers -/

/-- A number with an exact value: neither infinite nor no number. -/
def Number.IsFinite (n : Number) : Prop := n.isNan = false ∧ n.reach = 0

namespace Number

theorem isFinite_int (i : Int) : (Number.int i).IsFinite := ⟨rfl, rfl⟩

theorem lt_eq_decide {a b : Number} (ha : a.IsFinite) (hb : b.IsFinite) :
    a.lt b = decide (a.value < b.value) := by
  simp [lt, ha.1, ha.2, hb.1, hb.2]

theorem same_eq_decide {a b : Number} (ha : a.IsFinite) (hb : b.IsFinite) :
    a.same b = decide (a.value = b.value) := by
  simp [same, ha.1, ha.2, hb.1, hb.2]
  rfl

theorem le_eq_decide {a b : Number} (ha : a.IsFinite) (hb : b.IsFinite) :
    a.le b = decide (a.value ≤ b.value) := by
  simp only [le, lt_eq_decide ha hb, same_eq_decide ha hb, Rat.le_iff_lt_or_eq, Bool.decide_or]

/-- Being at most is transitive, also for numbers beyond every bound. -/
theorem le_trans {a b c : Number} (hab : a.le b = true) (hbc : b.le c = true) : a.le c = true := by
  simp only [le, lt, same, Bool.or_eq_true, Bool.and_eq_true, Bool.not_eq_true', decide_eq_true_eq,
    beq_iff_eq] at hab hbc ⊢
  grind

/-- A number is finite, or no number, or beyond every bound. -/
theorem isFinite_or (n : Number) :
    n.IsFinite ∨ n = .fraction .nan ∨ ∃ negative, n = .fraction (.infinite negative) := by
  cases n with
  | int i => exact Or.inl (isFinite_int i)
  | fraction x =>
      cases x with
      | nan => exact Or.inr (Or.inl rfl)
      | infinite negative => exact Or.inr (Or.inr ⟨negative, rfl⟩)
      | finite negative size => exact Or.inl ⟨rfl, rfl⟩

/-- An integer that is not below a number reaches it, unless it is no number. -/
theorem le_int_of_not_lt {n : Number} {i : Int} (hnan : n.isNan = false) (h : (int i).lt n = false) :
    n.le (int i) = true := by
  rcases isFinite_or n with hn | rfl | ⟨negative, rfl⟩
  · rw [lt_eq_decide (isFinite_int i) hn, decide_eq_false_iff_not] at h
    rw [le_eq_decide hn (isFinite_int i), decide_eq_true_eq]
    exact Rat.not_lt.mp h
  · cases hnan
  · cases negative with
    | true => rfl
    | false => cases h

/-- A number that does not reach a bound is below it, unless the bound is no number. -/
theorem lt_or_isNan_of_not_le {least n : Number} (hn : n.IsFinite) (h : least.le n = false) :
    n.lt least = true ∨ least.isNan = true := by
  rcases isFinite_or least with hleast | rfl | ⟨negative, rfl⟩
  · rw [le_eq_decide hleast hn, decide_eq_false_iff_not] at h
    rw [lt_eq_decide hn hleast, decide_eq_true_eq]
    exact Or.inl (Rat.not_le.mp h)
  · exact Or.inr rfl
  · have hnan : (fraction (.infinite negative)).isNan = false := rfl
    cases negative with
    | true =>
        have hreach : (fraction (.infinite true)).reach = -1 := rfl
        simp [le, lt, hnan, hn.1, hn.2, hreach] at h
    | false =>
        have hreach : (fraction (.infinite false)).reach = 1 := rfl
        exact Or.inl (by simp [lt, hnan, hn.1, hn.2, hreach])

/-- Only a finite number is at once not below and not above finite ones. -/
theorem isFinite_of_le_of_le {a b c : Number} (ha : a.IsFinite) (hc : c.IsFinite)
    (hab : a.le b = true) (hbc : b.le c = true) : b.IsFinite := by
  rcases isFinite_or b with hb | rfl | ⟨negative, rfl⟩
  · exact hb
  · simp [le, lt, same, isNan] at hab
  · cases negative with
    | true =>
        have hreach : (fraction (.infinite true)).reach = -1 := rfl
        simp [le, lt, same, ha.2, hreach] at hab
    | false =>
        have hreach : (fraction (.infinite false)).reach = 1 := rfl
        simp [le, lt, same, hc.2, hreach] at hbc

theorem int_le_int {a b : Int} (h : a ≤ b) : (int a).le (int b) = true := by
  rw [le_eq_decide (isFinite_int a) (isFinite_int b), decide_eq_true_eq]
  exact Rat.intCast_le_intCast.mpr h

end Number

/-- Comparing rationals is a strict weak order. -/
theorem weakOrder_rat : WeakOrder (fun a b : Rat => decide (a < b)) where
  asymm a b h := by
    simp only [decide_eq_true_eq, decide_eq_false_iff_not] at h ⊢
    exact Rat.not_lt.mpr (Rat.le_of_lt h)
  between a b c h := by
    simp only [decide_eq_true_eq] at h ⊢
    by_cases hab : a < b
    · exact Or.inl hab
    · refine Or.inr (Rat.not_le.mp fun hcb => ?_)
      exact Rat.not_lt.mpr (Rat.le_trans hcb (Rat.not_lt.mp hab)) h

theorem weakOrder_int : WeakOrder (fun a b : Int => decide (a < b)) where
  asymm a b h := by
    simp only [decide_eq_true_eq, decide_eq_false_iff_not] at h ⊢
    omega
  between a b c h := by
    simp only [decide_eq_true_eq] at h ⊢
    omega

/-! ## The scale -/

/-- A number is on the scale when it is finite and its value is between 0 and 100. -/
theorem inScoreRange_iff {n : Number} :
    inScoreRange n = true ↔ n.IsFinite ∧ 0 ≤ n.value ∧ n.value ≤ 100 := by
  have h0 : Number.IsFinite 0 := Number.isFinite_int 0
  have h100 : Number.IsFinite 100 := Number.isFinite_int 100
  have v0 : Number.value 0 = 0 := rfl
  have v100 : Number.value 100 = 100 := rfl
  constructor
  · intro h
    simp only [inScoreRange, Bool.and_eq_true] at h
    have hn : n.IsFinite := Number.isFinite_of_le_of_le h0 h100 h.1 h.2
    simp only [Number.le_eq_decide h0 hn, Number.le_eq_decide hn h100, v0, v100,
      decide_eq_true_eq] at h
    exact ⟨hn, h⟩
  · rintro ⟨hn, hlow, hhigh⟩
    simp [inScoreRange, Number.le_eq_decide h0 hn, Number.le_eq_decide hn h100, v0, v100, hlow, hhigh]

theorem inScoreRange_int {i : Int} (hlow : 0 ≤ i) (hhigh : i ≤ 100) :
    inScoreRange (.int i) = true := by
  refine inScoreRange_iff.mpr ⟨Number.isFinite_int i, ?_, ?_⟩
  · exact Rat.intCast_nonneg.mpr hlow
  · exact Rat.intCast_le_intCast.mpr hhigh

/-- A number cut to the scale is on it, whatever it was: no number counts as the upper end. -/
theorem inScoreRange_clampScore (x : Number) : inScoreRange (Arithmetic.clampScore x) = true := by
  have upper : ∀ y : Number, y.isNan = false → y.lt 100 = true → Number.lt 0 y = true →
      inScoreRange y = true := by
    intro y _ hlt hpos
    simp [inScoreRange, Number.le, hlt, hpos]
  unfold Arithmetic.clampScore Arithmetic.greatest Arithmetic.least
  show inScoreRange (if Number.lt 0 (if x.lt 100 then x else 100) = true
    then (if x.lt 100 then x else 100) else 0) = true
  by_cases hx : x.lt 100 = true
  · by_cases hpos : Number.lt 0 x = true
    · have hnan : x.isNan = false := by
        simp only [Number.lt, Bool.and_eq_true, Bool.not_eq_true'] at hx
        exact hx.1.1
      simpa [hx, hpos] using upper x hnan hx hpos
    · simp [hx, hpos]
      decide
  · simp [hx]
    decide

/-! ## Rounding -/

theorem roundedQuotient_le {num den n : Nat} (hden : 0 < den) (h : num ≤ n * den) :
    roundedQuotient num den ≤ n := by
  have hbelow : num / den ≤ n := by
    rw [Nat.div_le_iff_le_mul_add_pred hden]
    rw [Nat.mul_comm] at h
    omega
  -- At the upper end nothing is left over, so that nothing is rounded up.
  have hrest : num / den = n → num % den = 0 := by
    intro heq
    have hsplit := Nat.div_add_mod num den
    rw [heq, Nat.mul_comm] at hsplit
    omega
  unfold roundedQuotient
  by_cases hlt : num / den < n
  · grind
  · have hzero := hrest (by omega)
    simp only [hzero, Nat.mul_zero, hden, if_true]
    omega

/-- The integer nearest to a number that is not negative is not above a natural number that the number
does not exceed. -/
theorem nearestInt_bounds {q : Rat} {n : Nat} (hlow : 0 ≤ q) (hhigh : q ≤ n) :
    0 ≤ nearestInt q ∧ nearestInt q ≤ n := by
  have hnum : 0 ≤ q.num := Rat.num_nonneg.mpr hlow
  have hle : q.num.natAbs ≤ n * q.den := by
    have hcross := (Rat.le_iff q n).mp hhigh
    simp only [Rat.num_natCast, Rat.den_natCast] at hcross
    omega
  have hround := roundedQuotient_le q.den_pos hle
  unfold nearestInt
  simp only [Int.not_lt.mpr hnum, if_false]
  omega

theorem round_bounds {n : Number} (h : inScoreRange n = true) : 0 ≤ n.round ∧ n.round ≤ 100 := by
  obtain ⟨-, hlow, hhigh⟩ := inScoreRange_iff.mp h
  cases n with
  | int i => exact ⟨Rat.intCast_nonneg.mp hlow, Rat.intCast_le_intCast.mp hhigh⟩
  | fraction x => exact nearestInt_bounds (n := 100) hlow hhigh

/-- Whatever the base and the evidence, the confidence of a detector is on the scale. -/
theorem detectorConfidence_bounds (base : Number) (strengths : List Number) :
    0 ≤ detectorConfidence base strengths ∧ detectorConfidence base strengths ≤ 100 :=
  round_bounds (inScoreRange_clampScore _)

end DeployTrace
