/-
  DeployTrace/Number/Basic.lean --- numbers as workflows and settings hold them.

  A number is an integer of any size or a binary fraction, and stays what it is: 50 and 50.0 compare as
  equal and are written differently.  Comparison is exact also between the two kinds.
-/
import DeployTrace.Number.Shortest

set_option autoImplicit false

namespace DeployTrace

/-- An integer or a binary fraction. -/
inductive Number where
  | int (i : Int)
  | fraction (x : Binary64)
  deriving DecidableEq, Repr

namespace Number

instance (n : Nat) : OfNat Number n where
  ofNat := .int n

/-! ## Order -/

/-- Where a number stands on the extended line: below, on or above the finite part. -/
def reach : Number → Int
  | .fraction (.infinite negative) => if negative then -1 else 1
  | _ => 0

/-- The exact value of a finite number. -/
def value : Number → Rat
  | .int i => i
  | .fraction x => x.value

/-- Whether the number is no number. -/
def isNan : Number → Bool
  | .fraction .nan => true
  | _ => false

/-- Strictly less; never true of something that is no number. -/
def lt (a b : Number) : Bool :=
  !a.isNan && !b.isNan &&
    (decide (a.reach < b.reach) || (a.reach == 0 && b.reach == 0 && decide (a.value < b.value)))

/-- Equal in value. -/
def same (a b : Number) : Bool :=
  !a.isNan && !b.isNan && a.reach == b.reach && a.value == b.value

/-- Less or equal. -/
def le (a b : Number) : Bool := a.lt b || a.same b

/-- The smaller of two, the first when neither is smaller. -/
def least (a b : Number) : Number := if b.lt a then b else a

/-- The greater of two, the first when neither is greater. -/
def greatest (a b : Number) : Number := if a.lt b then b else a

/-- The number, brought into the range from `low` to `high`; when the range is empty, its lower end. -/
def clamp (x : Number) (low : Number) (high : Number) : Number := low.greatest (high.least x)

/-- The part of the range from 0 to 100 nearest to a score. -/
def clampScore (x : Number) : Number := x.clamp 0 100

/-! ## Arithmetic -/

/-- The number as a binary fraction. -/
def toBinary : Number → Binary64
  | .int i => .ofInt i
  | .fraction x => x

/-- Sum: of integers exact, otherwise rounded. -/
def add : Number → Number → Number
  | .int a, .int b => .int (a + b)
  | a, b => .fraction (a.toBinary.add b.toBinary)

/-- Difference. -/
def sub : Number → Number → Number
  | .int a, .int b => .int (a - b)
  | a, b => .fraction (a.toBinary.sub b.toBinary)

/-- Product. -/
def mul : Number → Number → Number
  | .int a, .int b => .int (a * b)
  | a, b => .fraction (a.toBinary.mul b.toBinary)

/-- Quotient, always a fraction: of integers the exact quotient rounded once. -/
def div : Number → Number → Number
  | .int a, .int b => if b == 0 then .fraction .nan else .fraction (.ofRat ((a : Rat) / (b : Rat)))
  | a, b => .fraction (a.toBinary.div b.toBinary)

/-- The nearest integer; of two as near, the even one. -/
def round : Number → Int
  | .int i => i
  | .fraction x => x.round

/-- The number rounded to two places; an integer stays as it is. -/
def roundToCents : Number → Number
  | .int i => .int i
  | .fraction x => .fraction (x.roundTo 2)

/-! ## Text -/

/-- Decimal digits for an integer, the shortest text that reads back for a fraction. -/
def render : Number → String
  | .int i => Int.repr i
  | .fraction x => x.render

/-- The nearest integer as text, which keeps the sign of a negative fraction that rounds to zero. -/
def renderWhole : Number → String
  | .int i => Int.repr i
  | .fraction x => if x.isNegative && x.round == 0 then "-0" else Int.repr x.round

end Number

/-- The most digits of an integer that is read from a text or turned into one. -/
def digitLimit : Nat := 4300

end DeployTrace
