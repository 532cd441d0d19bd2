/-
  DeployTrace/Format/Json.lean --- JSON: reading, writing and the canonical text.

  Three writings are in use: one line, several lines with an indent of two, and the canonical text, in
  which the keys of every table are texts in the order of their code points.  All are ASCII; other
  characters are written as escapes, those above U+FFFF as two.
-/
import DeployTrace.Tree.Written
import DeployTrace.Number.Reading
import DeployTrace.Entries

set_option autoImplicit false

namespace DeployTrace.Json

open Text

/-! ## Writing -/

/-- The escape of one 16-bit unit. -/
def unitEscape (n : Nat) : Chars := '\\' :: 'u' :: hexDigits 4 n

/-- One character inside a string. -/
def stringChar (c : Char) : Chars :=
  if c == '\x22' || c == '\\' then ['\\', c]
  else if c == '\n' then ['\\', 'n']
  else if c == '\r' then ['\\', 'r']
  else if c == '\t' then ['\\', 't']
  else if c.toNat == 8 then ['\\', 'b']
  else if c.toNat == 12 then ['\\', 'f']
  else if 32 ≤ c.toNat && c.toNat < 127 then [c]
  else if c.toNat < 0x10000 then unitEscape c.toNat
  else
    let n := c.toNat - 0x10000
    unitEscape (0xD800 + n / 0x400) ++ unitEscape (0xDC00 + n % 0x400)

/-- A text as a string. -/
def string (s : String) : String :=
  String.ofList ('\x22' :: s.toList.flatMap stringChar ++ ['\x22'])

/-- A number; the values outside the finite ones have words of their own. -/
def number : Number → String
  | .fraction .nan => "NaN"
  | .fraction (.infinite negative) => if negative then "-Infinity" else "Infinity"
  | n => n.render

/-- A scalar as a value. -/
def scalar : Scalar → String
  | .null => "null"
  | .bool b => if b then "true" else "false"
  | .number n => number n
  | .text s => string s

/-- A scalar as a key: everything that is no text is written as a value and then quoted. -/
def key : Scalar → String
  | .text s => string s
  | s => string (scalar s)

mutual

/-- A tree on one line. -/
def line : Tree → String
  | .leaf s => scalar s
  | .list items => "[" ++ ", ".intercalate (lineItems items) ++ "]"
  | .table entries => "\x7b" ++ ", ".intercalate (lineEntries entries) ++ "\x7d"

/-- The items of a list on one line. -/
def lineItems : List Tree → List String
  | [] => []
  | t :: rest => line t :: lineItems rest

/-- The entries of a table on one line. -/
def lineEntries : List (Scalar × Tree) → List String
  | [] => []
  | (k, value) :: rest => (key k ++ ": " ++ line value) :: lineEntries rest

end

/-- Blanks at the start of a line at a depth. -/
def indent (depth : Nat) : String := copies (2 * depth) ' '

/-- Parts between brackets, each on a line of its own. -/
def block (opening closing : String) (depth : Nat) (parts : List String) : String :=
  if parts.isEmpty then opening ++ closing
  else opening ++ "\n" ++ ",\n".intercalate (parts.map (indent (depth + 1) ++ ·)) ++ "\n" ++ indent depth
    ++ closing

mutual

/-- A tree over several lines. -/
def pretty (depth : Nat) : Tree → String
  | .leaf s => scalar s
  | .list items => block "[" "]" depth (prettyItems (depth + 1) items)
  | .table entries => block "\x7b" "\x7d" depth (prettyEntries (depth + 1) entries)

/-- The items of a list over several lines. -/
def prettyItems (depth : Nat) : List Tree → List String
  | [] => []
  | t :: rest => pretty depth t :: prettyItems depth rest

/-- The entries of a table over several lines. -/
def prettyEntries (depth : Nat) : List (Scalar × Tree) → List String
  | [] => []
  | (k, value) :: rest => (key k ++ ": " ++ pretty depth value) :: prettyEntries depth rest

end

/-! ## The canonical text

Two trees have the same canonical text when they differ only in the order of the entries of tables.
Keys are first turned into texts; of entries that then share a key the last one counts. -/

/-- Texts in the order of their code points. -/
def textPrecedes (a b : String) : Bool := decide (a < b)

/-- Canonical entries in order, given the canonical texts of their values. -/
def canonicalTable (entries : Entries String) : String :=
  let sorted := sortBy (fun a b => textPrecedes a.1 b.1) entries
  "\x7b" ++ ", ".intercalate (sorted.map fun entry => string entry.1 ++ ": " ++ entry.2) ++ "\x7d"

mutual

/-- The canonical text of a tree. -/
def canonical : Tree → String
  | .leaf s => scalar s
  | .list items => "[" ++ ", ".intercalate (canonicalItems items) ++ "]"
  | .table entries => canonicalTable (Entries.ofList (canonicalEntries entries))

/-- The canonical texts of the items of a list. -/
def canonicalItems : List Tree → List String
  | [] => []
  | t :: rest => canonical t :: canonicalItems rest

/-- The entries of a table with keys turned into texts and values into canonical texts. -/
def canonicalEntries : List (Scalar × Tree) → List (String × String)
  | [] => []
  | (k, value) :: rest => (k.written, canonical value) :: canonicalEntries rest

end

/-! ## Reading -/

/-- The text without blanks at its start. -/
def skipBlanks (text : Chars) : Chars :=
  text.dropWhile fun c => c == ' ' || c == '\n' || c == '\t' || c == '\r'

/-- The value of a hexadecimal digit. -/
def hexValue? (c : Char) : Option Nat :=
  if c.isDigit then some (c.toNat - 48)
  else if 'a' ≤ c && c ≤ 'f' then some (c.toNat - 87)
  else if 'A' ≤ c && c ≤ 'F' then some (c.toNat - 55)
  else none

/-- The value of hexadecimal digits. -/
def hexNumber? (digits : Chars) : Option Nat :=
  digits.foldl (fun n c => n.bind fun n => (hexValue? c).map (16 * n + ·)) (some 0)

/-- The 16-bit units after an escape, and the rest: one, or two that belong together. -/
def readEscapedUnit (rest : Chars) : Option (Char × Chars) := do
  let first ← hexNumber? (rest.take 4)
  if (rest.take 4).length != 4 then none
  else
    let after := rest.drop 4
    if 0xD800 ≤ first && first < 0xDC00 then
      match after with
      | '\\' :: 'u' :: more => do
        let second ← hexNumber? (more.take 4)
        if 0xDC00 ≤ second && second < 0xE000 then
          some (Char.ofNat (0x10000 + (first - 0xD800) * 0x400 + (second - 0xDC00)), more.drop 4)
        else none
      | _ => none
    else some (Char.ofNat first, after)

/-- A string after its opening quote: its text and what follows the closing quote. -/
def readString : Nat → Chars → Chars → Option (String × Chars)
  | 0, _, _ => none
  | _, _, [] => none
  | steps + 1, sofar, c :: rest =>
    if c == '\x22' then some (String.ofList sofar.reverse, rest)
    else if c == '\\' then
      match rest with
      | 'u' :: more => do
        let (unit, after) ← readEscapedUnit more
        readString steps (unit :: sofar) after
      | e :: more => do
        let value ← match e with
          | 'n' => some '\n'
          | 't' => some '\t'
          | 'r' => some '\r'
          | 'b' => some (Char.ofNat 8)
          | 'f' => some (Char.ofNat 12)
          | '/' => some '/'
          | '\\' => some '\\'
          | '\x22' => some '\x22'
          | _ => none
        readString steps (value :: sofar) more
      | [] => none
    else readString steps (c :: sofar) rest

/-- A number at the start of a text: with a point or an exponent it is a fraction. -/
def readNumber (text : Chars) : Option (Number × Chars) :=
  let body := text.takeWhile fun c => c.isDigit || c == '-' || c == '+' || c == '.' || c == 'e' || c == 'E'
  let written := String.ofList body
  let value :=
    if body.any fun c => c == '.' || c == 'e' || c == 'E' then (readFraction? written).map Number.fraction
    else (readInt? written).map Number.int
  value.map fun n => (n, text.drop body.length)

mutual

/-- A value at the start of a text and the rest, in at most `steps` steps. -/
def readValue : Nat → Chars → Option (Tree × Chars)
  | 0, _ => none
  | steps + 1, text =>
    match skipBlanks text with
    | '\x7b' :: rest =>
      match skipBlanks rest with
      | '\x7d' :: after => some (.table [], after)
      | rest => readEntries steps [] rest
    | '[' :: rest =>
      match skipBlanks rest with
      | ']' :: after => some (.list [], after)
      | rest => readItems steps [] rest
    | '\x22' :: rest => (readString (rest.length + 1) [] rest).map fun (s, after) => (.text s, after)
    | 't' :: 'r' :: 'u' :: 'e' :: rest => some (.bool true, rest)
    | 'f' :: 'a' :: 'l' :: 's' :: 'e' :: rest => some (.bool false, rest)
    | 'n' :: 'u' :: 'l' :: 'l' :: rest => some (.null, rest)
    | rest => (readNumber rest).map fun (n, after) => (.number n, after)

/-- The items of a list, those before in reverse. -/
def readItems : Nat → List Tree → Chars → Option (Tree × Chars)
  | 0, _, _ => none
  | steps + 1, sofar, text => do
    let (item, rest) ← readValue steps text
    match skipBlanks rest with
    | ',' :: more => readItems steps (item :: sofar) more
    | ']' :: after => some (.list (item :: sofar).reverse, after)
    | _ => none

/-- The entries of a table, those before in reverse. -/
def readEntries : Nat → List (Scalar × Tree) → Chars → Option (Tree × Chars)
  | 0, _, _ => none
  | steps + 1, sofar, text => do
    match skipBlanks text with
    | '\x22' :: rest =>
      let (name, rest) ← readString (rest.length + 1) [] rest
      match skipBlanks rest with
      | ':' :: rest =>
        let (value, rest) ← readValue steps rest
        match skipBlanks rest with
        | ',' :: more => readEntries steps ((.text name, value) :: sofar) more
        | '\x7d' :: after => some (.table ((.text name, value) :: sofar).reverse, after)
        | _ => none
      | _ => none
    | _ => none

end

/-- The value that a whole text stands for. -/
def read? (text : String) : Option Tree :=
  match readValue (2 * text.length + 2) text.toList with
  | some (t, rest) => if (skipBlanks rest).isEmpty then some t else none
  | none => none

end DeployTrace.Json
