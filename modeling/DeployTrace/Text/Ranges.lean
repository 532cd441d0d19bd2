/-
  DeployTrace/Text/Ranges.lean --- sets of characters given as ranges of code points.

  The character classes of this library follow the Unicode Character Database.  Each class is a short
  rule for ASCII and, above it, a table of ranges; this module is the reading of such a table.
-/

set_option autoImplicit false

namespace DeployTrace.Text

/-- Inclusive ranges of code points. -/
abbrev Ranges : Type := List (Nat × Nat)

/-- A character is in the set when some range covers its code point. -/
def Ranges.holds (table : Ranges) (c : Char) : Bool :=
  table.any fun range => range.1 ≤ c.toNat && c.toNat ≤ range.2

theorem Ranges.holds_iff (table : Ranges) (c : Char) :
    table.holds c = true ↔ ∃ range ∈ table, range.1 ≤ c.toNat ∧ c.toNat ≤ range.2 := by
  simp [Ranges.holds]

end DeployTrace.Text
