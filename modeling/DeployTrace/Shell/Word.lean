/-
  DeployTrace/Shell/Word.lean --- words and lines of shell text.

  WHAT THIS FILE IS FOR.  A run script is not parsed as a shell would parse it; it is searched.  The
  search needs two notions of the shell: what one word is, when quotes, substitutions and expansions
  may stand in it, and that a backslash at the end of a line joins it to the next.
-/
import DeployTrace.Text.Pattern

set_option autoImplicit false

namespace DeployTrace.Shell

open Text Pattern

/-! ## Continuation lines -/

/-- Shell text with every continuation replaced by one space, `skipping` the blanks after one. -/
def joinLinesFrom : Bool → Chars → Chars
  | _, [] => []
  | skipping, c :: rest =>
    if skipping && isBlank c then joinLinesFrom true rest
    else match c, rest with
      | '\\', '\n' :: more => ' ' :: joinLinesFrom true more
      | '\\', '\r' :: '\n' :: more => ' ' :: joinLinesFrom true more
      | c, rest => c :: joinLinesFrom false rest

/-- Shell text in which a backslash before a line end, the line end and the blanks after it have become
one space. -/
def joinLines (text : Chars) : Chars := joinLinesFrom false text

/-! ## Words -/

/-- A grave accent, which encloses the older form of a command substitution. -/
def graveAccent : Char := Char.ofNat 96

/-- The characters that end a run of plain ones inside a word. -/
def wordBreaks : Chars := ['\x22', '\x27', graveAccent, '$', '<', ';', '|', '&']

/-- Text between two marks, which does not hold the closing one. -/
def enclosed (opening : String) (closing : Char) : Pattern :=
  seq [word opening, span true (· != closing), char (· == closing)]

/-- One part of a word: a substitution, an expression, an expansion, a quotation, or plain text. -/
def wordPart : Pattern :=
  oneOf [enclosed "$(" ')',
    seq [word "$\x7b\x7b", shortLine, word "\x7d\x7d"],
    enclosed "$\x7b" '\x7d',
    enclosed "\x22" '\x22',
    enclosed "\x27" '\x27',
    enclosed (String.singleton graveAccent) graveAccent,
    enclosed "<(" ')',
    solid1 wordBreaks,
    word "$",
    word "<"]

/-- A word: parts without a blank between them. -/
def wordPattern : Pattern := some1 wordPart

/-- What ends the command a word belongs to. -/
def commandEnd : Pattern := oneOf [word "&&", word "||", word ";", word "\n", word "|"]

/-- The text up to the end of the first command in it. -/
def firstCommand (text : Chars) : Chars :=
  match commandEnd.search text with
  | some found => text.take found.skipped
  | none => text

/-- The words of a text, in order. -/
def words (text : Chars) : List Chars := (wordPattern.findAll text).map (·.whole)

end DeployTrace.Shell
