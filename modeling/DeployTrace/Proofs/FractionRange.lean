/-
  DeployTrace/Proofs/FractionRange.lean --- which integers are within the range of fractions.

  WHAT THIS FILE IS FOR.  A setting that is an integer is read as a fraction, which is refused when the
  integer is too large.  The largest finite fraction is `2 ^ 1024 - 2 ^ 971`, and the next one would be
  `2 ^ 1024`.  Integers between the two are rounded to the nearer one, and the one half way is rounded
  up, since the last bit is then even.  So just the sizes from `2 ^ 1024 - 2 ^ 970` on are beyond all
  finite fractions (`isFinite_ofInt_iff`).
-/
import DeployTrace.Proofs.Rounding
import Mathlib.Algebra.Order.Field.Power
import Mathlib.Tactic.Linarith
import Mathlib.Tactic.Ring

set_option autoImplicit false

namespace DeployTrace

/-! ## Powers of two -/

theorem twoTo_eq_zpow (e : Int) : twoTo e = (2 : Rat) ^ e := by
  by_cases he : 0 ≤ e
  · obtain ⟨k, rfl⟩ := Int.eq_ofNat_of_zero_le he
    have hpower : twoTo (k : Int) = ((2 ^ k : Nat) : Rat) := if_pos he
    rw [hpower, Nat.cast_pow, zpow_natCast]
    rfl
  · obtain ⟨k, rfl⟩ := Int.exists_eq_neg_ofNat (Int.le_of_lt (Int.not_le.mp he))
    rw [twoTo_of_nonpos (by omega), zpow_neg, zpow_natCast]
    simp

theorem zpow_two_pos (e : Int) : (0 : Rat) < (2 : Rat) ^ e := zpow_pos (by decide) e

/-- The exponent of a natural number is that of its first bit. -/
theorem binaryExponent_natCast {n : Nat} (hn : n ≠ 0) : binaryExponent (n : Rat) = n.log2 := by
  have hlog : (n.log2 : Int) - (Nat.log2 1 : Int) = n.log2 := by
    have hone : Nat.log2 1 = 0 := by decide
    rw [hone]
    omega
  have hlow : ¬ (n : Rat) < twoTo (n.log2 : Int) := by
    rw [twoTo_eq_zpow, zpow_natCast, not_lt]
    exact_mod_cast Nat.log2_self_le hn
  unfold binaryExponent
  simp only [Rat.num_natCast, Rat.den_natCast, Int.natAbs_natCast, hlog, if_neg hlow]

/-! ## Rounding up to an even number -/

/-- An even number is reached by rounding from half a step below it on. -/
theorem le_roundedQuotient_iff {num den m : Nat} (hden : 0 < den) (heven : m % 2 = 0) :
    m ≤ roundedQuotient num den ↔ 2 * (m * den) ≤ 2 * num + den := by
  have hsplit := Nat.div_add_mod num den
  have hrest := Nat.mod_lt num hden
  unfold roundedQuotient
  generalize num / den = below at *
  generalize num % den = rest at *
  rw [Nat.mul_comm] at hsplit
  rcases Nat.lt_trichotomy m (below + 1) with hlt | rfl | hgt
  · -- What is cut off reaches it already.
    have hle : m * den ≤ below * den := Nat.mul_le_mul_right den (Nat.le_of_lt_succ hlt)
    refine iff_of_true ?_ (by omega)
    grind
  · rw [Nat.add_mul, Nat.one_mul]
    grind
  · have hle : (below + 2) * den ≤ m * den := Nat.mul_le_mul_right den hgt
    rw [Nat.add_mul] at hle
    refine iff_of_false ?_ (by omega)
    grind

theorem le_roundedQuotient_rat_iff {q : Rat} {m : Nat} (hq : 0 ≤ q) (heven : m % 2 = 0) :
    m ≤ roundedQuotient q.num.natAbs q.den ↔ (m : Rat) ≤ q + 1 / 2 := by
  have hden : (0 : Rat) < q.den := Nat.cast_pos.mpr q.den_pos
  have hvalue : q * q.den = q.num.natAbs := by
    rw [Rat.mul_den_eq_num, ← Int.cast_natCast, Int.natAbs_of_nonneg (Rat.num_nonneg.mpr hq)]
  rw [le_roundedQuotient_iff q.den_pos heven, ← mul_le_mul_iff_left₀ hden, add_mul, hvalue]
  constructor
  · intro h
    have hcast : ((2 * (m * q.den) : Nat) : Rat) ≤ ((2 * q.num.natAbs + q.den : Nat) : Rat) := Nat.cast_le.mpr h
    push_cast at hcast
    linarith
  · intro h
    have hcast : ((2 * (m * q.den) : Nat) : Rat) ≤ ((2 * q.num.natAbs + q.den : Nat) : Rat) := by
      push_cast
      linarith
    exact Nat.cast_le.mp hcast

/-! ## Integers beyond all fractions -/

/-- The nearest size with 53 bits reaches an even multiple of the last bit when the size is not more than
half a last bit below it. -/
theorem le_roundedSize_iff {n m : Nat} (hn : n ≠ 0) (heven : m % 2 = 0) :
    (m : Rat) * 2 ^ ((n.log2 : Int) - 52) ≤ roundedSize n ↔
      (m : Rat) * 2 ^ ((n.log2 : Int) - 52) ≤ n + 2 ^ ((n.log2 : Int) - 53) := by
  have hunit : lastBitExponent (n : Rat) = (n.log2 : Int) - 52 := by
    unfold lastBitExponent
    rw [binaryExponent_natCast hn]
    omega
  have hpos := zpow_two_pos ((n.log2 : Int) - 52)
  have hnum : ((n : Rat).num == 0) = false := by simpa using hn
  have hrounded : roundedSize n =
      (roundedQuotient ((n : Rat) / 2 ^ ((n.log2 : Int) - 52)).num.natAbs
        ((n : Rat) / 2 ^ ((n.log2 : Int) - 52)).den : Nat) * 2 ^ ((n.log2 : Int) - 52) := by
    unfold roundedSize
    rw [hnum, hunit, twoTo_eq_zpow]
    rfl
  have hhalf : (2 : Rat) ^ ((n.log2 : Int) - 53) = 1 / 2 * 2 ^ ((n.log2 : Int) - 52) := by
    rw [show (n.log2 : Int) - 52 = ((n.log2 : Int) - 53) + 1 by omega, zpow_add_one₀ (by decide)]
    ring
  rw [hrounded, mul_le_mul_iff_left₀ hpos, Nat.cast_le,
    le_roundedQuotient_rat_iff (div_nonneg (Nat.cast_nonneg n) hpos.le) heven,
    ← mul_le_mul_iff_left₀ hpos, add_mul, div_mul_cancel₀ _ hpos.ne', hhalf]

theorem zpow_two_natCast (k : Nat) : (2 : Rat) ^ (k : Int) = ((2 ^ k : Nat) : Rat) := by
  rw [zpow_natCast, Nat.cast_pow, Nat.cast_two]

/-- A power of two as a multiple of the last bit of numbers with `l` as the place of their first bit. -/
theorem two_pow_mul_lastBit {k l m : Nat} (h : k + l = m + 52) :
    ((2 ^ k : Nat) : Rat) * 2 ^ ((l : Int) - 52) = ((2 ^ m : Nat) : Rat) := by
  rw [← zpow_two_natCast, ← zpow_two_natCast, ← zpow_add₀ (by decide)]
  congr 1
  omega

/-- Two sizes below a power of two do not make up the next power. -/
theorem add_lt_two_pow_of_succ {a b k l : Nat} (hl : l = k + 1) (ha : a < 2 ^ k) (hb : b ≤ 2 ^ k) :
    a + b < 2 ^ l := by
  rw [hl, Nat.pow_succ, Nat.mul_two]
  exact Nat.add_lt_add_of_lt_of_le ha hb

/-- Just the natural numbers from `2 ^ 1024 - 2 ^ 970` on are rounded to `2 ^ 1024` or more. -/
theorem twoTo_le_roundedSize_iff {n : Nat} (hn : n ≠ 0) :
    twoTo 1024 ≤ roundedSize n ↔ 2 ^ 1024 ≤ n + 2 ^ 970 := by
  have hfirst : 2 ^ n.log2 ≤ n := Nat.log2_self_le hn
  have hlast : n < 2 ^ (n.log2 + 1) := Nat.lt_log2_self
  have hgoal : twoTo 1024 = ((2 ^ 1024 : Nat) : Rat) := (twoTo_eq_zpow 1024).trans (zpow_two_natCast 1024)
  rcases Nat.lt_or_ge n.log2 1024 with hlog | hlog
  · -- Here the power is an even multiple of the last bit.
    have heven : 2 ^ (1076 - n.log2) % 2 = 0 := Nat.mod_eq_zero_of_dvd (dvd_pow_self 2 (by omega))
    have hreach := le_roundedSize_iff hn heven
    rw [two_pow_mul_lastBit (m := 1024) (by omega)] at hreach
    rw [hgoal, hreach]
    rcases Nat.lt_or_ge n.log2 1023 with hsmall | hlarge
    · have hbelow : n < 2 ^ 1023 := hlast.trans_le (pow_le_pow_right₀ one_le_two hsmall)
      have hhalf : (2 : Rat) ^ ((n.log2 : Int) - 53) ≤ ((2 ^ 1023 : Nat) : Rat) := by
        rw [← zpow_two_natCast]
        exact zpow_le_zpow_right₀ (by decide) (by omega)
      refine iff_of_false (not_le.mpr ?_) (Nat.not_le.mpr ?_)
      · calc (n : Rat) + 2 ^ ((n.log2 : Int) - 53)
            ≤ (n : Rat) + ((2 ^ 1023 : Nat) : Rat) := add_le_add_right hhalf _
          _ = ((n + 2 ^ 1023 : Nat) : Rat) := (Nat.cast_add _ _).symm
          _ < ((2 ^ 1024 : Nat) : Rat) := Nat.cast_lt.mpr (add_lt_two_pow_of_succ rfl hbelow le_rfl)
      · exact add_lt_two_pow_of_succ rfl hbelow (pow_le_pow_right₀ one_le_two (by decide))
    · have hexact : (n.log2 : Int) - 53 = ((970 : Nat) : Int) := by omega
      rw [hexact, zpow_two_natCast, ← Nat.cast_add, Nat.cast_le]
  · have hreach := (le_roundedSize_iff (m := 2 ^ 52) hn (by decide)).mpr
    rw [two_pow_mul_lastBit (Nat.add_comm 52 n.log2)] at hreach
    have hlarge : 2 ^ 1024 ≤ 2 ^ n.log2 := pow_le_pow_right₀ one_le_two hlog
    refine iff_of_true ?_ ((hlarge.trans hfirst).trans (Nat.le_add_right _ _))
    rw [hgoal]
    refine (Nat.cast_le.mpr hlarge).trans (hreach ?_)
    exact (Nat.cast_le.mpr hfirst).trans (le_add_of_nonneg_right (zpow_two_pos _).le)

/-- An integer has a finite fraction next to it just when its size is below `2 ^ 1024 - 2 ^ 970`. -/
theorem isFinite_ofInt_iff (i : Int) : (Binary64.ofInt i).isFinite = true ↔ i.natAbs + 2 ^ 970 < 2 ^ 1024 := by
  by_cases hi : i = 0
  · subst hi
    refine iff_of_true (by decide +kernel) ?_
    rw [Int.natAbs_zero, Nat.zero_add]
    exact pow_lt_pow_right₀ Nat.one_lt_two (by decide)
  · have hnum : ((i : Rat).num == 0) = false := by simpa using hi
    have hsize : mkRat (i : Rat).num.natAbs (i : Rat).den = ((i.natAbs : Nat) : Rat) := by
      rw [Rat.num_intCast, Rat.den_intCast, Rat.mkRat_one]
      rfl
    have hlarge := twoTo_le_roundedSize_iff (Int.natAbs_ne_zero.mpr hi)
    unfold Binary64.ofInt Binary64.ofRat Binary64.ofRatSigned Binary64.ofSize
    rw [hnum, hsize, ← Nat.not_le, ← hlarge]
    simp only [Bool.false_eq_true, if_false]
    split
    · rename_i hbeyond
      exact iff_of_false (by simp [Binary64.isFinite]) (not_not_intro hbeyond)
    · rename_i hwithin
      exact iff_of_true rfl hwithin

end DeployTrace
