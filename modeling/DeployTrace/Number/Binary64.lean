/-
  DeployTrace/Number/Binary64.lean --- binary floating-point numbers of 64 bits.

  WHAT THIS FILE IS FOR.  Scores are computed with fractions such as 0.3, and a score that falls on a
  half is rounded to the even neighbour; whether it falls there depends on every rounding before.  So
  the machine's arithmetic is part of the answer, and it is given here by its rule: the exact result,
  rounded once to the nearest number of 53 significant bits, a tie going to the even one.

  A number is a sign and a size, the size an exact rational.  The sign of zero is kept, since it shows
  when the number is written.
-/

set_option autoImplicit false

namespace DeployTrace

/-- A binary floating-point number. -/
inductive Binary64 where
  /-- no number: the result of an operation without one -/
  | nan
  /-- beyond the largest finite number -/
  | infinite (negative : Bool)
  /-- a sign and a size -/
  | finite (negative : Bool) (size : Rat)
  deriving DecidableEq, Repr

/-! ## Rounding -/

/-- The integer nearest to `num / den`; of two as near, the even one. -/
def roundedQuotient (num den : Nat) : Nat :=
  let below := num / den
  let twice := 2 * (num % den)
  if twice < den then below
  else if den < twice then below + 1
  else if below % 2 == 0 then below else below + 1

/-- The integer nearest to a rational; of two as near, the even one. -/
def nearestInt (q : Rat) : Int :=
  let size : Int := roundedQuotient q.num.natAbs q.den
  if q.num < 0 then -size else size

/-- Two to an integer power. -/
def twoTo (e : Int) : Rat := if 0 ≤ e then (Nat.pow 2 e.toNat : Rat) else mkRat 1 (Nat.pow 2 (-e).toNat)

/-- The `e` with `2 ^ e ≤ q < 2 ^ (e + 1)`, for a positive `q`. -/
def binaryExponent (q : Rat) : Int :=
  let guess : Int := (q.num.natAbs.log2 : Int) - (q.den.log2 : Int)
  if q < twoTo guess then guess - 1 else guess

/-- The weight of the last of the 53 bits of a number near `q`; numbers near zero share the smallest. -/
def lastBitExponent (q : Rat) : Int := max (binaryExponent q - 52) (-1074)

/-- A size rounded to the nearest one with 53 bits, not yet limited above. -/
def roundedSize (q : Rat) : Rat :=
  if q.num == 0 then 0
  else
    let unit := twoTo (lastBitExponent q)
    ((roundedQuotient (q / unit).num.natAbs (q / unit).den : Nat) : Rat) * unit

/-- The number nearest to a size with a sign; sizes from `2 ^ 1024` on are infinite. -/
def Binary64.ofSize (negative : Bool) (size : Rat) : Binary64 :=
  let rounded := roundedSize size
  if twoTo 1024 ≤ rounded then .infinite negative else .finite negative rounded

/-- The number nearest to a rational; zero has the sign given for it. -/
def Binary64.ofRatSigned (negativeZero : Bool) (q : Rat) : Binary64 :=
  if q.num == 0 then .finite negativeZero 0
  else .ofSize (q.num < 0) (mkRat q.num.natAbs q.den)

/-- The number nearest to a rational. -/
def Binary64.ofRat (q : Rat) : Binary64 := .ofRatSigned false q

/-- The number nearest to an integer. -/
def Binary64.ofInt (i : Int) : Binary64 := .ofRat (i : Rat)

namespace Binary64

/-! ## Values and order -/

/-- The exact value of a finite number; zero for the others. -/
def value : Binary64 → Rat
  | .finite negative size => if negative then -size else size
  | _ => 0

/-- The sign of a number; a number that is none has none. -/
def isNegative : Binary64 → Bool
  | .nan => false
  | .infinite negative => negative
  | .finite negative _ => negative

/-- Whether the number is finite. -/
def isFinite : Binary64 → Bool
  | .finite _ _ => true
  | _ => false

/-! ## Arithmetic -/

/-- Sum: a zero sum is positive unless both sides are negative. -/
def add : Binary64 → Binary64 → Binary64
  | .nan, _ | _, .nan => .nan
  | .infinite a, .infinite b => if a == b then .infinite a else .nan
  | .infinite a, _ => .infinite a
  | _, .infinite b => .infinite b
  | .finite a x, .finite b y =>
    .ofRatSigned (a && b) ((if a then -x else x) + (if b then -y else y))

/-- The number with the other sign. -/
def neg : Binary64 → Binary64
  | .nan => .nan
  | .infinite a => .infinite !a
  | .finite a x => .finite (!a) x

/-- Difference. -/
def sub (x y : Binary64) : Binary64 := x.add y.neg

/-- Product: negative when the signs differ. -/
def mul : Binary64 → Binary64 → Binary64
  | .nan, _ | _, .nan => .nan
  | .infinite a, .infinite b => .infinite (a != b)
  | .infinite a, .finite b y => if y.num == 0 then .nan else .infinite (a != b)
  | .finite a x, .infinite b => if x.num == 0 then .nan else .infinite (a != b)
  | .finite a x, .finite b y => .ofSize (a != b) (x * y)

/-- Quotient: negative when the signs differ. -/
def div : Binary64 → Binary64 → Binary64
  | .nan, _ | _, .nan => .nan
  | .infinite _, .infinite _ => .nan
  | .infinite a, .finite b _ => .infinite (a != b)
  | .finite a _, .infinite b => .finite (a != b) 0
  | .finite a x, .finite b y =>
    if y.num == 0 then (if x.num == 0 then .nan else .infinite (a != b)) else .ofSize (a != b) (x / y)

/-- The nearest integer; of two as near, the even one.  Zero for a number that is not finite. -/
def round (x : Binary64) : Int := nearestInt x.value

/-- The integer part: what is left when the places after the point are cut off. -/
def truncate (x : Binary64) : Int := Int.tdiv x.value.num x.value.den

/-- The number nearest to the value rounded to `places` places after the point, with its sign kept. -/
def roundTo (places : Nat) : Binary64 → Binary64
  | .finite negative size =>
    let scale : Rat := (Nat.pow 10 places : Rat)
    .ofSize negative ((nearestInt (size * scale) : Rat) / scale)
  | x => x

end Binary64

end DeployTrace
