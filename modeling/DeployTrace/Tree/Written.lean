/-
  DeployTrace/Tree/Written.lean --- data as text.

  Where a workflow holds something other than a text in the place of one --- a number as the value of a
  variable, a list as a name --- its written form is used.  A text alone is written as it is; inside a
  list or a table it is quoted.
-/
import DeployTrace.Tree.Basic
import DeployTrace.Text.Cut
import DeployTrace.Text.Printable

set_option autoImplicit false

namespace DeployTrace

open Text

/-! ## Quoted texts -/

/-- Hexadecimal digits of a number, at least `width` of them. -/
def hexDigits (width n : Nat) : Chars :=
  let digits := (Nat.toDigits 16 n)
  List.replicate (width - digits.length) '0' ++ digits

/-- One character of a text quoted with `quote`. -/
def quotedChar (quote c : Char) : Chars :=
  if c == quote || c == '\\' then ['\\', c]
  else if c == '\n' then ['\\', 'n']
  else if c == '\r' then ['\\', 'r']
  else if c == '\t' then ['\\', 't']
  else if isPrintable c then [c]
  else if c.toNat < 0x100 then '\\' :: 'x' :: hexDigits 2 c.toNat
  else if c.toNat < 0x10000 then '\\' :: 'u' :: hexDigits 4 c.toNat
  else '\\' :: 'U' :: hexDigits 8 c.toNat

/-- A text in quotes: single ones, unless it holds a single quote and no double one. -/
def quoted (s : String) : String :=
  let chars := s.toList
  let quote := if chars.contains '\x27' && !chars.contains '\x22' then '\x22' else '\x27'
  String.ofList (quote :: chars.flatMap (quotedChar quote) ++ [quote])

/-! ## Written forms -/

/-- A scalar inside a list or a table. -/
def Scalar.shown : Scalar → String
  | .null => "None"
  | .bool b => if b then "True" else "False"
  | .number n => n.render
  | .text s => quoted s

/-- A scalar alone: a text stands for itself. -/
def Scalar.written : Scalar → String
  | .text s => s
  | s => s.shown

mutual

/-- A tree inside a list or a table. -/
def Tree.shown : Tree → String
  | .leaf s => s.shown
  | .list items => "[" ++ ", ".intercalate (shownItems items) ++ "]"
  | .table entries => "\x7b" ++ ", ".intercalate (shownEntries entries) ++ "\x7d"

/-- The items of a list. -/
def shownItems : List Tree → List String
  | [] => []
  | t :: rest => t.shown :: shownItems rest

/-- The entries of a table. -/
def shownEntries : List (Scalar × Tree) → List String
  | [] => []
  | (key, value) :: rest => (key.shown ++ ": " ++ value.shown) :: shownEntries rest

end

/-- A tree alone: a text stands for itself. -/
def Tree.written : Tree → String
  | .leaf s => s.written
  | t => t.shown

end DeployTrace
