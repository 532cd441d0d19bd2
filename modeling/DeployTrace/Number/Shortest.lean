/-
  DeployTrace/Number/Shortest.lean --- the shortest decimal that reads back.

  A binary number is written with as few decimal digits as single it out.  For each count of digits the
  two decimals next to the number on that grid are tried; the first count at which one of them rounds to
  the number is taken, and of two the nearer one.
-/
import DeployTrace.Number.Binary64

set_option autoImplicit false

namespace DeployTrace

/-- A decimal `digits * 10 ^ exponent`. -/
structure Decimal where
  digits : Nat
  exponent : Int
  deriving DecidableEq, Repr

/-- Ten to an integer power. -/
def tenTo (e : Int) : Rat := if 0 ≤ e then (Nat.pow 10 e.toNat : Rat) else mkRat 1 (Nat.pow 10 (-e).toNat)

/-- The exact value. -/
def Decimal.value (d : Decimal) : Rat := (d.digits : Rat) * tenTo d.exponent

/-- Digits of a natural number in base ten. -/
def decimalDigits (n : Nat) : Nat := (Nat.repr n).length

/-- The `e` with `10 ^ e ≤ q < 10 ^ (e + 1)`, for a positive `q`. -/
def decimalExponent (q : Rat) : Int :=
  let guess : Int := (decimalDigits q.num.natAbs : Int) - (decimalDigits q.den : Int)
  if q < tenTo guess then guess - 1 else guess

/-- Whether a decimal reads back as the size. -/
def readsBack (size : Rat) (d : Decimal) : Bool := roundedSize d.value == size

/-- The decimals of `count` digits next to the size, the nearer one first. -/
def neighbours (size : Rat) (count : Nat) : List Decimal :=
  let exponent := decimalExponent size + 1 - count
  let scaled := size / tenTo exponent
  let below := scaled.num.natAbs / scaled.den
  let near := roundedQuotient scaled.num.natAbs scaled.den
  [⟨near, exponent⟩, ⟨if near == below then below + 1 else below, exponent⟩]

/-- The shortest decimal from `count` digits on, trying at most `tries` counts. -/
def shortestFrom (size : Rat) : Nat → Nat → Decimal
  | 0, count => ((neighbours size count).head?).getD ⟨0, 0⟩
  | tries + 1, count =>
    match (neighbours size count).find? (readsBack size) with
    | some found => found
    | none => shortestFrom size tries (count + 1)

/-- The shortest decimal that reads back as the size. -/
def shortestDecimal (size : Rat) : Decimal :=
  if size.num == 0 then ⟨0, 0⟩ else shortestFrom size 17 1

/-- A decimal without the zeros at the end of its digits, following at most `steps` of them. -/
def Decimal.trim : Nat → Decimal → Decimal
  | 0, d => d
  | steps + 1, d =>
    if d.digits % 10 == 0 && d.digits != 0 then Decimal.trim steps ⟨d.digits / 10, d.exponent + 1⟩ else d

/-! ## The written form -/

/-- How numbers with a fraction are written: with a point and at least one place when the leading digit
counts between 10⁻⁴ and 10¹⁵, and with an exponent of at least two digits otherwise. -/
structure FractionFormat where
  leastPositional : Int
  greatestPositional : Int
  exponentDigits : Nat
  deriving DecidableEq, Repr

/-- The format of every number in reports, identifiers and messages. -/
def fractionFormat : FractionFormat := ⟨-4, 15, 2⟩

/-- A decimal without sign in the given format. -/
def Decimal.render (format : FractionFormat) (d : Decimal) : String :=
  let d := d.trim 20
  let digits := Nat.repr d.digits
  let count := digits.length
  let leading : Int := if d.digits == 0 then 0 else d.exponent + count - 1
  if format.leastPositional ≤ leading && leading ≤ format.greatestPositional then
    if 0 ≤ d.exponent then digits ++ String.ofList (List.replicate d.exponent.toNat '0') ++ ".0"
    else
      let places := (-d.exponent).toNat
      let padded := List.replicate (places + 1 - count) '0' ++ digits.toList
      String.ofList (padded.take (padded.length - places) ++ '.' :: padded.drop (padded.length - places))
  else
    let fraction := digits.toList.drop 1
    let power := Nat.repr leading.natAbs
    let power := String.ofList (List.replicate (format.exponentDigits - power.length) '0') ++ power
    String.ofList (digits.toList.take 1 ++ (if fraction.isEmpty then [] else '.' :: fraction)) ++ "e"
      ++ (if leading < 0 then "-" else "+") ++ power

/-- The shortest text that reads back as the number. -/
def Binary64.render : Binary64 → String
  | .nan => "nan"
  | .infinite negative => if negative then "-inf" else "inf"
  | .finite negative size =>
    (if negative then "-" else "") ++ (shortestDecimal size).render fractionFormat

end DeployTrace
