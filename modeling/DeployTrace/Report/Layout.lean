/-
  DeployTrace/Report/Layout.lean --- text in lines of a width.

  WHAT THIS FILE IS FOR.  Text is laid out in cells of a terminal.  Lines break between words; a word that
  is wider than a line is either folded over several lines or stands on a line of its own, cut with an
  ellipsis.
-/
import DeployTrace.Text.Cells
import DeployTrace.Text.Cut

set_option autoImplicit false

namespace DeployTrace.Report

open Text

/-- What becomes of a text that is too wide for a line. -/
inductive Overflow where
  | fold
  | ellipsis
  deriving DecidableEq, Repr, Inhabited

/-- Where in its space a text stands. -/
inductive Justify where
  | left
  | center
  deriving DecidableEq, Repr, Inhabited

/-! ## Widths -/

/-- A text cut or filled up to a number of cells; half of a wide character is a blank. -/
def fit : Nat → Chars → Chars
  | 0, _ => []
  | width, [] => List.replicate width ' '
  | width, c :: rest => if charCells c ≤ width then c :: fit (width - charCells c) rest else [' ']

/-- A text that is too wide cut to a number of cells. -/
def crop (overflow : Overflow) (width : Nat) (text : Chars) : Chars :=
  if cells text ≤ width then text
  else match overflow with
    | .fold => fit width text
    | .ellipsis => fit (width - 1) text ++ ['…']

/-- A text with blanks after it up to a number of cells. -/
def fill (width : Nat) (text : Chars) : Chars := text ++ List.replicate (width - cells text) ' '

/-- A text in the middle of so many copies of a character that it fills a number of cells; the side after
it has the odd one. -/
def centered (filler : Char) (width : Nat) (text : Chars) : Chars :=
  let space := width - cells text
  List.replicate (space / 2) filler ++ text ++ List.replicate (space - space / 2) filler

/-- A line brought to a number of cells. -/
def Justify.place (j : Justify) (overflow : Overflow) (width : Nat) (line : Chars) : Chars :=
  match j with
  | .left => fill width (crop overflow width line)
  | .center => centered ' ' width (crop overflow width (dropEndWhile isBlank line))

/-! ## Words -/

/-- The first word of a text with the blanks around it, and the text after them; blanks alone hold no
word. -/
def readWord? (text : Chars) : Option (Chars × Chars) :=
  let start := text.takeWhile isBlank
  let body := text.drop start.length
  let word := body.takeWhile fun c => !isBlank c
  let after := body.drop word.length
  let tail := after.takeWhile isBlank
  if word.isEmpty then none else some (start ++ word ++ tail, after.drop tail.length)

theorem length_lt_of_readWord? {text word rest : Chars} (h : readWord? text = some (word, rest)) :
    rest.length < text.length := by
  simp only [readWord?] at h
  split at h
  · simp at h
  · rename_i found
    simp only [Option.some.injEq, Prod.mk.injEq] at h
    obtain ⟨-, rfl⟩ := h
    have positive := List.length_pos_iff.2 fun e => found (List.isEmpty_iff.2 e)
    have short := (List.takeWhile_prefix (fun c => !isBlank c)
      (l := text.drop (text.takeWhile isBlank).length)).length_le
    simp only [List.length_drop] at short ⊢
    omega

/-- The words of a text, each with the blanks around it. -/
def words (text : Chars) : List Chars :=
  match h : readWord? text with
  | some (word, rest) =>
    have := length_lt_of_readWord? h
    word :: words rest
  | none => []
termination_by text.length

/-- A word in parts that each fit into a line, where `part` is the part so far, last character first, and
`used` its cells. -/
def chopAfter (width : Nat) (part : Chars) (used : Nat) : Chars → List Chars
  | [] => [part.reverse]
  | c :: rest =>
    if width < used + charCells c then part.reverse :: chopAfter width [c] (charCells c) rest
    else chopAfter width (c :: part) (used + charCells c) rest

/-- A word in parts that each fit into a line. -/
def chop (width : Nat) (word : Chars) : List Chars := chopAfter width [] 0 word

/-! ## Lines -/

/-- Lines that are being filled. -/
structure Filling where
  /-- lines that are full, the last first -/
  full : List Chars := []
  line : Chars := []
  /-- the cells of the line -/
  used : Nat := 0
  deriving DecidableEq, Repr

namespace Filling

/-- The lines with one more text in the last one. -/
def extend (f : Filling) (text : Chars) : Filling :=
  { f with line := f.line ++ text, used := f.used + cells text }

/-- The lines with a new one at the end, unless there is no text yet. -/
def turn (f : Filling) : Filling :=
  if f.full.isEmpty && f.line.isEmpty then f else { full := f.line :: f.full }

/-- The lines with one more word; its blanks may stand over the edge. -/
def put (overflow : Overflow) (width : Nat) (f : Filling) (word : Chars) : Filling :=
  let size := cells (dropEndWhile isBlank word)
  if f.used + size ≤ width then f.extend word
  else if width < size && overflow == .fold then
    (chop width word).foldl (fun f part => f.turn.extend part) f
  else f.turn.extend word

/-- All lines. -/
def lines (f : Filling) : List Chars := (f.line :: f.full).reverse

end Filling

/-- A line broken into lines of a width. -/
def breakLine (overflow : Overflow) (width : Nat) (line : Chars) : List Chars :=
  match words line with
  | [] => [line]
  | found => (found.foldl (Filling.put overflow width) {}).lines

/-- A line without the blanks at its end that are too many. -/
def trimEnd (width : Nat) (line : Chars) : Chars :=
  let blanks := line.length - (dropEndWhile isBlank line).length
  line.take (line.length - min blanks (line.length - width))

/-- A line in which every tab goes to the next multiple of eight cells, from a place on. -/
def expandTabs : Nat → Chars → Chars
  | _, [] => []
  | place, '\t' :: rest =>
    List.replicate (8 - place % 8) ' ' ++ expandTabs (place + (8 - place % 8)) rest
  | place, c :: rest => c :: expandTabs (place + charCells c) rest

/-- The lines of a text, broken to a width but not yet brought to it. -/
def wrap (overflow : Overflow) (width : Nat) (text : Chars) : List Chars :=
  (text.splitOn '\n').flatMap fun line =>
    (breakLine overflow width (expandTabs 0 line)).map (trimEnd width)

/-- The lines in which a text is printed. -/
def printed (width : Nat) (text : Chars) : List Chars := (wrap .fold width text).map (crop .fold width)

/-- The lines of a text that fill a width. -/
def block (justify : Justify) (overflow : Overflow) (width : Nat) (text : Chars) : List Chars :=
  (wrap overflow width text).map (justify.place overflow width)

end DeployTrace.Report
