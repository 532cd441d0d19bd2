/-
  DeployTrace/Number/Arithmetic.lean --- the arithmetic that scores are computed with.

  Scores are defined once, over whatever arithmetic is given.  The library runs them with the machine's
  numbers; statements such as "more evidence never lowers a score" are about exact rationals, for which
  the same definitions are read with the second instance below.
-/
import DeployTrace.Number.Basic

set_option autoImplicit false

namespace DeployTrace

/-- Numbers that scores can be computed with. -/
class Arithmetic (α : Type) where
  /-- an integer -/
  ofInt : Int → α
  /-- a rational, or the nearest number to it -/
  ofRat : Rat → α
  add : α → α → α
  sub : α → α → α
  mul : α → α → α
  div : α → α → α
  /-- strictly less -/
  lt : α → α → Bool
  /-- equal in value -/
  same : α → α → Bool
  /-- the nearest integer; of two as near, the even one -/
  round : α → Int

instance : Arithmetic Number where
  ofInt := .int
  ofRat q := .fraction (.ofRat q)
  add := Number.add
  sub := Number.sub
  mul := Number.mul
  div := Number.div
  lt := Number.lt
  same := Number.same
  round := Number.round

instance : Arithmetic Rat where
  ofInt i := i
  ofRat q := q
  add := (· + ·)
  sub := (· - ·)
  mul := (· * ·)
  div := (· / ·)
  lt a b := decide (a < b)
  same a b := a == b
  round := nearestInt

namespace Arithmetic

variable {α : Type} [Arithmetic α]

/-- The smaller of two, the first when neither is smaller. -/
def least (a b : α) : α := if lt b a then b else a

/-- The greater of two, the first when neither is greater. -/
def greatest (a b : α) : α := if lt a b then b else a

/-- A score brought into the range from 0 to 100. -/
def clampScore (x : α) : α := greatest (ofInt 0) (least (ofInt 100) x)

/-- Sum from left to right. -/
def sum (xs : List α) : α := xs.foldl add (ofInt 0)

end Arithmetic

/-- The mean of some numbers, rounded; zero without any. -/
def roundedMean (xs : List Number) : Int :=
  if xs.isEmpty then 0 else ((Arithmetic.sum xs).div (.int xs.length)).round

end DeployTrace
