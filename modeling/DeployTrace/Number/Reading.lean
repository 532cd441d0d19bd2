/-
  DeployTrace/Number/Reading.lean --- numbers written as text.

  Settings may hold numbers as text.  Blanks around the number and single underscores between its digits
  are allowed, and the digits may be those of any script.
-/
import DeployTrace.Number.Basic
import DeployTrace.Text.Cut
import DeployTrace.Text.Digit
import DeployTrace.Text.Casing

set_option autoImplicit false

namespace DeployTrace

open Text

/-- The value of decimal digits read so far, `sofar`, continued. -/
def digitsValue (sofar : Nat) (digits : List Nat) : Nat := digits.foldl (fun n d => 10 * n + d) sofar

/-- Digits from a place on and the rest.  An underscore is passed over `after` a digit and before one. -/
def takeDigitsFrom : Bool → Chars → List Nat × Chars
  | _, [] => ([], [])
  | after, c :: rest =>
    match digitValue? c with
    | some d =>
      let (digits, left) := takeDigitsFrom true rest
      (d :: digits, left)
    | none =>
      if after && c == '_' && (rest.head?.bind digitValue?).isSome then takeDigitsFrom false rest
      else ([], c :: rest)

/-- Digits at the start of a text and the rest. -/
def takeDigits (text : Chars) : List Nat × Chars := takeDigitsFrom false text

/-- A sign at the start of a text: whether it is negative, and the rest. -/
def takeSign : Chars → Bool × Chars
  | '-' :: rest => (true, rest)
  | '+' :: rest => (false, rest)
  | text => (false, text)

/-- An integer with its sign. -/
def signed (negative : Bool) (n : Nat) : Int := if negative then -(n : Int) else n

/-- The integer a text stands for. -/
def readInt? (text : String) : Option Int :=
  let (negative, body) := takeSign (stripChars text.toList)
  match takeDigits body with
  | ([], _) => none
  | (ds, []) => some (signed negative (digitsValue 0 ds))
  | _ => none

/-- `digits * 10 ^ exponent` with a sign.  An exponent that is out of reach for so many digits gives
zero or infinity at once. -/
def decimalNumber (negative : Bool) (digits : Nat) (exponent : Int) : Binary64 :=
  if digits == 0 then .finite negative 0
  else
    let leading := exponent + decimalDigits digits
    if 400 < leading then .infinite negative
    else if leading < -400 then .finite negative 0
    else .ofSize negative (Decimal.value ⟨digits, exponent⟩)

/-- An exponent at the start of a text, if a mark and digits are there, and the rest. -/
def takeExponent : Chars → Int × Chars
  | c :: rest =>
    if c == 'e' || c == 'E' then
      let (negative, body) := takeSign rest
      match takeDigits body with
      | ([], _) => (0, c :: rest)
      | (ds, left) => (signed negative (digitsValue 0 ds), left)
    else (0, c :: rest)
  | [] => (0, [])

/-- The fraction a text stands for: digits with an optional point and exponent, or the words for
infinity and for no number. -/
def readFraction? (text : String) : Option Binary64 :=
  let (negative, body) := takeSign (stripChars text.toList)
  let letters := (body.map Char.toLower)
  if letters == "inf".toList || letters == "infinity".toList then some (.infinite negative)
  else if letters == "nan".toList then some .nan
  else
    let (whole, rest) := takeDigits body
    let (places, rest) := match rest with
      | '.' :: more => takeDigits more
      | _ => ([], rest)
    if whole.isEmpty && places.isEmpty then none
    else
      let (exponent, rest) := takeExponent rest
      if rest.isEmpty then
        some (decimalNumber negative (digitsValue 0 (whole ++ places)) (exponent - places.length))
      else none

end DeployTrace
