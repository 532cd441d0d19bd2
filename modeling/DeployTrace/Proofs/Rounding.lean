/-
  DeployTrace/Proofs/Rounding.lean --- rounding keeps sizes within natural bounds.

  WHAT THIS FILE IS FOR.  Shares and likenesses are computed with binary fractions, and every step rounds.
  A share of a whole must not come out above the whole.  It does not, because rounding goes to the nearest
  of the numbers with 53 bits, and a natural number that is not too large is one of these: what is below
  it before rounding is not above it afterwards.
-/
import DeployTrace.Proofs.Scale
import Mathlib.Algebra.Order.Field.Basic
import Mathlib.Algebra.Order.Field.Rat

set_option autoImplicit false

namespace DeployTrace

/-! ## The weight of the last bit -/

theorem lt_twoTo {n j k : Nat} (h : n < 2 ^ j) (hjk : j ≤ k) : (n : Rat) < twoTo k := by
  have hpower : twoTo k = ((2 ^ k : Nat) : Rat) := if_pos (Int.natCast_nonneg k)
  rw [hpower, Nat.cast_lt]
  exact Nat.lt_of_lt_of_le h (Nat.pow_le_pow_right Nat.two_pos hjk)

theorem twoTo_of_nonpos {e : Int} (he : e ≤ 0) : twoTo e = 1 / ((2 ^ (-e).toNat : Nat) : Rat) := by
  unfold twoTo
  by_cases hzero : 0 ≤ e
  · obtain rfl : e = 0 := Int.le_antisymm he hzero
    simp
  · rw [if_neg hzero, Rat.mkRat_eq_div]
    rfl

/-- Below `2 ^ 52` all 53 bits of a number weigh at most one. -/
theorem lastBitExponent_nonpos {q : Rat} {n : Nat} (hn : n < 2 ^ 52) (hlow : 0 ≤ q) (hhigh : q ≤ n) :
    lastBitExponent q ≤ 0 := by
  have hnum : q.num.natAbs ≤ n * q.den := by
    have hcross := (Rat.le_iff q n).mp hhigh
    simp only [Rat.num_natCast, Rat.den_natCast] at hcross
    have hpos : 0 ≤ q.num := Rat.num_nonneg.mpr hlow
    omega
  have hden : q.den < 2 ^ (q.den.log2 + 1) := Nat.lt_log2_self
  have hlog : q.num.natAbs.log2 ≤ 52 + q.den.log2 := by
    by_cases hzero : q.num.natAbs = 0
    · simp [hzero]
    · have hlt : q.num.natAbs < 2 ^ (52 + q.den.log2 + 1) := by
        calc q.num.natAbs ≤ n * q.den := hnum
          _ < 2 ^ 52 * 2 ^ (q.den.log2 + 1) := Nat.mul_lt_mul'' hn hden
          _ = 2 ^ (52 + q.den.log2 + 1) := by rw [← Nat.pow_add, Nat.add_assoc]
      have := (Nat.log2_lt hzero).mpr hlt
      omega
  have hexp : binaryExponent q ≤ 52 := by
    unfold binaryExponent
    simp only
    split <;> omega
  unfold lastBitExponent
  omega

/-! ## Sizes -/

theorem roundedQuotient_eq_nearestInt {q : Rat} (h : 0 ≤ q) :
    (roundedQuotient q.num.natAbs q.den : Int) = nearestInt q := by
  unfold nearestInt
  rw [if_neg (Int.not_lt.mpr (Rat.num_nonneg.mpr h))]

/-- The integer nearest to a number that reaches a natural number reaches it too. -/
theorem le_nearestInt {q : Rat} {m : Nat} (h : m ≤ q) : (m : Int) ≤ nearestInt q := by
  have hnonneg : 0 ≤ q := (Nat.cast_nonneg m).trans h
  have hcross : m * q.den ≤ q.num.natAbs := by
    have hint := (Rat.le_iff m q).mp h
    simp only [Rat.num_natCast, Rat.den_natCast] at hint
    omega
  have hbelow : m ≤ q.num.natAbs / q.den := (Nat.le_div_iff_mul_le q.den_pos).mpr hcross
  rw [← roundedQuotient_eq_nearestInt hnonneg, Nat.cast_le]
  unfold roundedQuotient
  grind

/-- A size below a bound is rounded to the nearest multiple of a last bit that weighs at most one. -/
theorem exists_roundedSize_eq {q : Rat} {n : Nat} (hn : n < 2 ^ 52) (hlow : 0 ≤ q) (hhigh : q ≤ n) :
    ∃ k : Nat, roundedSize q = (nearestInt (q * ((2 ^ k : Nat) : Rat)) : Rat) / ((2 ^ k : Nat) : Rat) := by
  obtain ⟨k, hk⟩ : ∃ k, k = (-lastBitExponent q).toNat := ⟨_, rfl⟩
  have hunit : twoTo (lastBitExponent q) = 1 / ((2 ^ k : Nat) : Rat) := by
    rw [twoTo_of_nonpos (lastBitExponent_nonpos hn hlow hhigh), hk]
  have hscaled : 0 ≤ q * ((2 ^ k : Nat) : Rat) := mul_nonneg hlow (Nat.cast_nonneg _)
  refine ⟨k, ?_⟩
  rw [← roundedQuotient_eq_nearestInt hscaled]
  unfold roundedSize
  simp only [hunit, one_div, div_inv_eq_mul]
  split
  · rename_i hzero
    have hq : q = 0 := Rat.num_eq_zero.mp (beq_iff_eq.mp hzero)
    subst hq
    simp [roundedQuotient]
  · rw [← div_eq_mul_inv]
    rfl

/-- A size between natural numbers is rounded to one between them: the bounds are multiples of the last
bit, so that the multiple next to the size is not beyond them. -/
theorem roundedSize_between {q : Rat} {m n : Nat} (hn : n < 2 ^ 52) (hlow : m ≤ q) (hhigh : q ≤ n) :
    m ≤ roundedSize q ∧ roundedSize q ≤ n := by
  have hnonneg : 0 ≤ q := (Nat.cast_nonneg m).trans hlow
  obtain ⟨k, hk⟩ := exists_roundedSize_eq hn hnonneg hhigh
  have hpow : (0 : Rat) < ((2 ^ k : Nat) : Rat) := by exact_mod_cast Nat.two_pow_pos k
  have hlower : ((m * 2 ^ k : Nat) : Rat) ≤ q * ((2 ^ k : Nat) : Rat) := by
    rw [Nat.cast_mul]
    exact mul_le_mul_of_nonneg_right hlow hpow.le
  have hupper : q * ((2 ^ k : Nat) : Rat) ≤ ((n * 2 ^ k : Nat) : Rat) := by
    rw [Nat.cast_mul]
    exact mul_le_mul_of_nonneg_right hhigh hpow.le
  have hbelow := le_nearestInt hlower
  have habove := (nearestInt_bounds (mul_nonneg hnonneg hpow.le) hupper).2
  rw [hk, le_div_iff₀ hpow, div_le_iff₀ hpow]
  constructor
  · exact_mod_cast hbelow
  · exact_mod_cast habove

/-- A size within a natural number is rounded to one within it. -/
theorem roundedSize_bounds {q : Rat} {n : Nat} (hn : n < 2 ^ 52) (hlow : 0 ≤ q) (hhigh : q ≤ n) :
    0 ≤ roundedSize q ∧ roundedSize q ≤ n :=
  roundedSize_between (m := 0) hn hlow hhigh

namespace Binary64

/-! ## Numbers -/

/-- A number is within a natural number when it is finite and between zero and it. -/
def Within (x : Binary64) (n : Nat) : Prop := ∃ size, x = .finite false size ∧ 0 ≤ size ∧ size ≤ n

theorem ofSize_eq {q : Rat} {n : Nat} (hn : n < 2 ^ 52) (hlow : 0 ≤ q) (hhigh : q ≤ n) :
    ofSize false q = .finite false (roundedSize q) := by
  have hlarge : (n : Rat) < twoTo 1024 := lt_twoTo hn (by decide : 52 ≤ 1024)
  have hle : roundedSize q ≤ n := (roundedSize_bounds hn hlow hhigh).2
  have hfinite : ¬ twoTo 1024 ≤ roundedSize q := not_le.mpr (lt_of_le_of_lt hle hlarge)
  unfold ofSize
  rw [if_neg hfinite]

theorem ofRat_eq {q : Rat} {n : Nat} (hn : n < 2 ^ 52) (hlow : 0 ≤ q) (hhigh : q ≤ n) :
    ofRat q = .finite false (roundedSize q) := by
  unfold ofRat ofRatSigned
  split
  · rename_i hzero
    unfold roundedSize
    rw [if_pos hzero]
  · have hnum : 0 ≤ q.num := Rat.num_nonneg.mpr hlow
    have hsame : mkRat q.num.natAbs q.den = q := by
      rw [Int.natAbs_of_nonneg hnum, Rat.mkRat_self]
    have hsign : decide (q.num < 0) = false := decide_eq_false (Int.not_lt.mpr hnum)
    rw [hsame, hsign]
    exact ofSize_eq hn hlow hhigh

theorem within_ofSize {q : Rat} {n : Nat} (hn : n < 2 ^ 52) (hlow : 0 ≤ q) (hhigh : q ≤ n) :
    (ofSize false q).Within n :=
  ⟨roundedSize q, ofSize_eq hn hlow hhigh, roundedSize_bounds hn hlow hhigh⟩

theorem within_ofRat {q : Rat} {n : Nat} (hn : n < 2 ^ 52) (hlow : 0 ≤ q) (hhigh : q ≤ n) :
    (ofRat q).Within n :=
  ⟨roundedSize q, ofRat_eq hn hlow hhigh, roundedSize_bounds hn hlow hhigh⟩

/-- A rational between natural numbers is still between them when it is made a number and then rounded. -/
theorem round_ofRat_between {q : Rat} {m n : Nat} (hn : n < 2 ^ 52) (hlow : m ≤ q) (hhigh : q ≤ n) :
    m ≤ (ofRat q).round ∧ (ofRat q).round ≤ n := by
  obtain ⟨hbelow, habove⟩ := roundedSize_between hn hlow hhigh
  have hnonneg : 0 ≤ roundedSize q := (Nat.cast_nonneg m).trans hbelow
  rw [ofRat_eq hn ((Nat.cast_nonneg m).trans hlow) hhigh]
  exact ⟨le_nearestInt hbelow, (nearestInt_bounds hnonneg habove).2⟩

variable {x y : Binary64} {m n : Nat}

/-- A product is within the product of the bounds. -/
theorem Within.mul (hx : x.Within m) (hy : y.Within n) (h : m * n < 2 ^ 52) :
    (x.mul y).Within (m * n) := by
  obtain ⟨a, rfl, ha, ham⟩ := hx
  obtain ⟨b, rfl, hb, hbn⟩ := hy
  refine within_ofSize h (mul_nonneg ha hb) ?_
  rw [Nat.cast_mul]
  exact mul_le_mul ham hbn hb (Nat.cast_nonneg m)

theorem Within.round_bounds (h : x.Within n) : 0 ≤ x.round ∧ x.round ≤ n := by
  obtain ⟨size, rfl, hlow, hhigh⟩ := h
  exact nearestInt_bounds hlow hhigh

end Binary64

end DeployTrace
