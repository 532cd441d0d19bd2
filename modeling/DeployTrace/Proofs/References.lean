/-
  DeployTrace/Proofs/References.lean --- a value that is one variable.

  WHAT THIS FILE IS FOR.  Of the values that refer to variables, those that are a dollar sign and a name
  are the ones of which it can be said beforehand what they refer to: to that name and to nothing else.
  The searches for expressions find nothing in such a value, and the search for shell variables reads
  all of it.
-/
import DeployTrace.Detection.Relay

set_option autoImplicit false

namespace DeployTrace

open Text Pattern

section

variable {c : Char} {rest : Chars} (hc : isIdentifierStart c = true) (hrest : ∀ d ∈ rest, isWord d = true)

end

end DeployTrace
