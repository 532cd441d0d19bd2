/-
  DeployTrace/Text/Blank.lean --- white space and line ends.

  Two sets that are easily confused: the blanks, which stripping removes and which separate words, and
  the line ends, at which a text is cut into lines.  Four of the blanks are information separators,
  and three of those end a line as well.
-/
import DeployTrace.Text.Ranges

set_option autoImplicit false

namespace DeployTrace.Text

/-- White space above ASCII. -/
def blankRanges : Ranges :=
  [(0x85, 0x85), (0xA0, 0xA0), (0x1680, 0x1680), (0x2000, 0x200A), (0x2028, 0x2029),
    (0x202F, 0x202F), (0x205F, 0x205F), (0x3000, 0x3000)]

/-- White space: the space, tab to carriage return, the information separators, and the blanks of
other scripts. -/
def isBlank (c : Char) : Bool :=
  if c.toNat < 128 then
    c.toNat == 32 || (9 ≤ c.toNat && c.toNat ≤ 13) || (28 ≤ c.toNat && c.toNat ≤ 31)
  else blankRanges.holds c

/-- The characters that end a line.  A carriage return followed by a line feed is one end. -/
def isLineEnd (c : Char) : Bool :=
  let n := c.toNat
  (10 ≤ n && n ≤ 13) || (28 ≤ n && n ≤ 30) || n == 0x85 || n == 0x2028 || n == 0x2029

end DeployTrace.Text
