/-
  DeployTrace/Report/Grid.lean --- tables and frames of lines.

  WHAT THIS FILE IS FOR.  A grid has a title, columns with headings, and rows of cells.  Each column is as
  wide as its widest line; while the grid is wider than the terminal, the widest columns are made
  narrower until they are as wide as the next ones.  A frame goes around a text and has a title in its
  upper and a subtitle in its lower edge.
-/
import DeployTrace.Report.Layout

set_option autoImplicit false

namespace DeployTrace.Report

open Text

/-! ## Columns -/

/-- A column of a grid. -/
structure Column where
  heading : String
  justify : Justify := .left
  deriving DecidableEq, Repr

/-- A table of texts. -/
structure Grid where
  title : String
  columns : List Column
  rows : List (List Chars)
  deriving DecidableEq, Repr

/-- The cells of the widest line of a text. -/
def widestLine (text : Chars) : Nat := ((linesAfter [] text).map cells).foldl max 0

/-- The width of a column that holds some texts, with a blank on either side and at most a limit. -/
def columnWidth (limit : Nat) (texts : List Chars) : Nat :=
  min limit ((texts.map widestLine).foldl max 0 + 2)

/-- The nearest integer to a quotient; of two as near, the even one. -/
def nearestQuotient (a b : Nat) : Nat :=
  let q := a / b
  let twice := 2 * (a % b)
  if b < twice || (twice == b && q % 2 == 1) then q + 1 else q

/-- The cells of columns side by side. -/
def together (widths : List Nat) : Nat := widths.foldl (· + ·) 0

/-- Widths of which those equal to `widest` give up `excess` cells in equal shares, none more than
`most`; `sharers` of them are left. -/
def giveUp (widest most : Nat) : Nat → Nat → List Nat → List Nat
  | _, _, [] => []
  | excess, sharers, width :: rest =>
    if width == widest && 0 < sharers then
      let share := min most (nearestQuotient excess sharers)
      (width - share) :: giveUp widest most (excess - share) (sharers - 1) rest
    else width :: giveUp widest most excess sharers rest

/-- Widths made narrower until they fit into a limit, in at most so many steps. -/
def narrow (limit : Nat) : Nat → List Nat → List Nat
  | 0, widths => widths
  | steps + 1, widths =>
    let excess := together widths - limit
    if excess == 0 then widths
    else
      let widest := widths.foldl max 0
      let second := (widths.filter (· != widest)).foldl max 0
      narrow limit steps
        (giveUp widest (min excess (widest - second)) excess (widths.filter (· == widest)).length widths)

namespace Grid

/-- The texts of a grid by rows, the headings first. -/
def allRows (g : Grid) : List (List Chars) := (g.columns.map fun c => c.heading.toList) :: g.rows

/-- The texts of one column. -/
def columnTexts (g : Grid) (index : Nat) : List Chars := g.allRows.map fun row => row.getD index []

/-- The widths of the columns of a grid on a terminal; a rule stands on both sides of each. -/
def widths (terminal : Nat) (g : Grid) : List Nat :=
  let limit := terminal - (g.columns.length + 1)
  let natural := (List.range g.columns.length).map fun i => columnWidth limit (g.columnTexts i)
  narrow limit (together natural) natural

/-! ## Lines -/

/-- A line of rules with its two ends and the sign between columns. -/
def rule (left between right : Char) (widths : List Nat) : Chars :=
  left :: ([between].intercalate (widths.map fun w => List.replicate w '─')) ++ [right]

/-- The lines of a cell. -/
def cellLines (justify : Justify) (width : Nat) (text : Chars) : List Chars :=
  (block justify .ellipsis (width - 2) text).map fun line => ' ' :: line ++ [' ']

/-- The lines of a row, as many as its highest cell has. -/
def rowLines (columns : List Column) (widths : List Nat) (row : List Chars) : List Chars :=
  let laid := (columns.zip (widths.zip row)).map fun (c, w, text) => (w, cellLines c.justify w text)
  let height := (laid.map fun (_, lines) => lines.length).foldl max 1
  (List.range height).map fun i =>
    '│' :: ['│'].intercalate (laid.map fun (w, lines) => lines.getD i (List.replicate w ' ')) ++ ['│']

/-- The lines of a grid on a terminal. -/
def lines (terminal : Nat) (g : Grid) : List Chars :=
  let widths := g.widths terminal
  let whole := together widths + widths.length + 1
  block .center .fold whole g.title.toList
    ++ [rule '╭' '┬' '╮' widths]
    ++ rowLines g.columns widths (g.columns.map fun c => c.heading.toList)
    ++ [rule '├' '┼' '┤' widths]
    ++ g.rows.flatMap (rowLines g.columns widths)
    ++ [rule '╰' '┴' '╯' widths]

end Grid

/-! ## Frames -/

/-- An edge of a frame with a title in it. -/
def frameEdge (left right : Char) (terminal : Nat) (title : String) : Chars :=
  [left, '═'] ++ centered '═' (terminal - 4) (crop .fold (terminal - 4) (' ' :: title.toList ++ [' ']))
    ++ ['═', right]

/-- The lines of a frame around a text, as wide as the terminal. -/
def frame (terminal : Nat) (title subtitle : String) (text : Chars) : List Chars :=
  [frameEdge '╔' '╗' terminal title]
    ++ (printed (terminal - 4) text).map (fun line => ['║', ' '] ++ fill (terminal - 4) line ++ [' ', '║'])
    ++ [frameEdge '╚' '╝' terminal subtitle]

end DeployTrace.Report
