/-
  DeployTrace/Format/Yaml/Cursor.lean --- places in a YAML text.

  The structure of a YAML text hangs on columns, and a key has to end on the line on which it starts; so
  a place knows its line and its column.
-/
import DeployTrace.Text.Cut

set_option autoImplicit false

namespace DeployTrace.Yaml

open Text

/-! ## Characters -/

/-- A character that ends a line. -/
def isBreak (c : Char) : Bool :=
  c == '\n' || c.toNat == 0x85 || c.toNat == 0x2028 || c.toNat == 0x2029

/-- The line end that a scalar keeps for one in the text: two kinds are the same. -/
def keptBreak (c : Char) : Char := if c.toNat == 0x85 then '\n' else c

/-- Whether a line or the text ends here. -/
def endsLine (c : Option Char) : Bool := (c.map isBreak).getD true

/-- Whether a word ends here: at a blank, a line end or the end of the text. -/
def endsWord (c : Option Char) : Bool := endsLine c || c == some ' ' || c == some '\t'

/-- The mark of byte order, which has no width. -/
def byteOrderMark : Char := Char.ofNat 0xFEFF

/-- A character that may stand in a YAML text. -/
def isAllowed (c : Char) : Bool :=
  let n := c.toNat
  n == 9 || n == 10 || n == 13 || n == 0x85 || (0x20 ≤ n && n ≤ 0x7E) || (0xA0 ≤ n && n ≤ 0xD7FF) ||
    (0xE000 ≤ n && n ≤ 0xFFFD) || 0x10000 ≤ n

/-! ## Places -/

/-- A place: the text after it, how many characters stand before it, its line and its column. -/
structure Cursor where
  rest : Chars
  index : Nat := 0
  line : Nat := 0
  column : Nat := 0
  deriving DecidableEq, Repr

namespace Cursor

/-- The character at a place. -/
def peek (cur : Cursor) : Option Char := cur.rest.head?

/-- The character so many after a place. -/
def ahead (cur : Cursor) (n : Nat) : Option Char := cur.rest[n]?

/-- The place after the character at a place. -/
def next (cur : Cursor) : Cursor :=
  match cur.rest with
  | [] => cur
  | c :: rest =>
    { rest := rest, index := cur.index + 1, line := if isBreak c then cur.line + 1 else cur.line,
      column := if isBreak c then 0 else if c == byteOrderMark then cur.column else cur.column + 1 }

/-- The place so many characters on. -/
def skip : Nat → Cursor → Cursor
  | 0, cur => cur
  | n + 1, cur => skip n cur.next

/-- The characters at a place that satisfy `p`. -/
def run (cur : Cursor) (p : Char → Bool) : Chars := cur.rest.takeWhile p

/-- The place after the characters that satisfy `p`. -/
def skipWhile (cur : Cursor) (p : Char → Bool) : Cursor := cur.skip (cur.run p).length

/-- The place after the spaces at a place, but not beyond a column. -/
def skipSpacesTo (cur : Cursor) (column : Nat) : Cursor :=
  cur.skip (min (column - cur.column) (cur.run (· == ' ')).length)

/-- Whether three characters that mark a document stand at a place. -/
def atMark (cur : Cursor) (marks : List String) : Bool :=
  marks.any (fun mark => mark.toList.isPrefixOf cur.rest) && endsWord (cur.ahead 3)

/-- Whether a document starts or ends at a place. -/
def atDocumentMark (cur : Cursor) : Bool := cur.atMark ["---", "..."]

/-- The place after the rest of a line, whose end is not passed. -/
def skipLine (cur : Cursor) : Cursor := cur.skipWhile fun c => !isBreak c

end Cursor

end DeployTrace.Yaml
