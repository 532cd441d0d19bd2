/-
  DeployTrace/Format/Hcl.lean --- reading the language of Terraform files.

  WHAT THIS FILE IS FOR.  A file is a body of attributes and blocks.  What matters here are blocks, their
  labels and a few literal attributes, so expressions are checked for their form and, unless they are
  literals, kept as they are written.

  THE SHAPE OF THE DATA.  An attribute is its value.  A block is an element of the list under its type;
  each of its labels is one table around the body, and the body has one more entry that marks it as a
  block.  Labels and strings in quotes keep their quotes, and other expressions stand in `${ }`.
-/
import DeployTrace.Format.Json

set_option autoImplicit false

namespace DeployTrace.Hcl

open Text

/-! ## Blanks and comments -/

/-- The text after a comment of several lines. -/
def skipLongComment : Chars → Option Chars
  | [] => none
  | '*' :: '/' :: rest => some rest
  | _ :: rest => skipLongComment rest

/-- The text without a run of blanks at its start; line ends and comments are blanks when `lineEnds`
says so. -/
def skipFrom (lineEnds : Bool) : Nat → Chars → Option Chars
  | 0, text => some text
  | steps + 1, text =>
    match text with
    | ' ' :: rest => skipFrom lineEnds steps rest
    | '\t' :: rest => skipFrom lineEnds steps rest
    | '\n' :: rest => if lineEnds then skipFrom lineEnds steps rest else some text
    | '#' :: rest => if lineEnds then skipFrom lineEnds steps (rest.dropWhile (· != '\n')) else some text
    | '/' :: '/' :: rest =>
      if lineEnds then skipFrom lineEnds steps (rest.dropWhile (· != '\n')) else some text
    | '/' :: '*' :: rest => (skipLongComment rest).bind (skipFrom lineEnds steps)
    | _ => some text

/-- The text without blanks at its start. -/
def skip (lineEnds : Bool) (text : Chars) : Option Chars := skipFrom lineEnds (text.length + 1) text

/-! ## Words -/

/-- A character with which a name starts. -/
def isNameStart (c : Char) : Bool := c.isAlpha || c == '_'

/-- A character of a name. -/
def isNameChar (c : Char) : Bool := c.isAlphanum || c == '_' || c == '-'

/-- A name at the start of a text. -/
def readName (text : Chars) : Option (Chars × Chars) :=
  match text with
  | c :: rest =>
    if isNameStart c then some (c :: rest.takeWhile isNameChar, rest.dropWhile isNameChar) else none
  | [] => none

/-- The text after a word, if the word stands at its start as a name of its own. -/
def afterName (word : String) (text : Chars) : Option Chars :=
  match readName text with
  | some (name, rest) => if name == word.toList then some rest else none
  | none => none

/-- The operators between two operands, longer ones first. -/
def operators : List String := ["==", "!=", "<=", ">=", "&&", "||", "<", ">", "+", "-", "*", "/", "%"]

/-- The text after an operator; the start of a comment is none. -/
def afterOperator (text : Chars) : Option Chars :=
  match text with
  | '/' :: '/' :: _ => none
  | '/' :: '*' :: _ => none
  | _ => (operators.find? fun o => o.toList.isPrefixOf text).map fun o => text.drop o.length

/-! ## Literals -/

/-- A number at the start of a text. -/
def readNumber (text : Chars) : Option (Number × Chars) :=
  let whole := text.takeWhile Char.isDigit
  let rest := text.drop whole.length
  if whole.isEmpty then none
  else
    let places := match rest with
      | '.' :: more => if (more.head?.map Char.isDigit).getD false then '.' :: more.takeWhile Char.isDigit else []
      | _ => []
    let rest := rest.drop places.length
    let exponent := match rest with
      | c :: more =>
        let unsigned := (takeSign more).2
        let digits := unsigned.takeWhile Char.isDigit
        if (c == 'e' || c == 'E') && !digits.isEmpty then
          rest.take (1 + (more.length - unsigned.length) + digits.length)
        else []
      | [] => []
    let written := String.ofList (whole ++ places ++ exponent)
    let value := if places.isEmpty && exponent.isEmpty then (readInt? written).map Number.int
      else (readFraction? written).map Number.fraction
    value.map fun n => (n, rest.drop exponent.length)

/-- A character of the mark of a text in lines of its own. -/
def isMarkChar (c : Char) : Bool := isNameChar c || c == '.'

/-- The lines of a text up to one that holds a mark and nothing else, and the text after that mark. -/
def untilMark (mark : Chars) : Nat → Chars → Option Chars
  | 0, _ => none
  | lines + 1, text =>
    match cutAt '\n' text with
    | none => if stripWhile isBlank text == mark then some [] else none
    | some (line, rest) =>
      if line.dropWhile isBlank == mark then some ('\n' :: rest) else untilMark mark lines rest

/-- A text in lines of its own after the two signs that open it. -/
def readHeredoc (text : Chars) : Option Chars :=
  let text := match text with
    | '-' :: rest => rest
    | rest => rest
  let mark := text.takeWhile isMarkChar
  match (text.drop mark.length).dropWhile (fun c => c == ' ' || c == '\t') with
  | '\n' :: rest => if mark.isEmpty then none else untilMark mark (rest.length + 1) rest
  | _ => none

/-! ## Expressions -/

/-- An expression that was read: its value if it is a literal, and the text after it. -/
abbrev ExpressionRead : Type := Option (Option Tree × Chars)

/-- The text between a place and a later one, in the form of expressions that are no literals. -/
def written (start rest : Chars) : Tree :=
  .text ("$\x7b" ++ String.ofList (stripChars (start.take (start.length - rest.length))) ++ "\x7d")

/-- The value of an expression that starts at a place. -/
def valueFrom (start : Chars) (read : Option Tree × Chars) : Tree × Chars :=
  (read.1.getD (written start read.2), read.2)

/-- The text after a character, if it stands at its start. -/
def after (c : Char) (text : Chars) : Option Chars :=
  match text with
  | d :: rest => if c == d then some rest else none
  | [] => none

/-- The value of a word that is one. -/
def literalWord? (name : Chars) : Option Tree :=
  if name == "true".toList then some (.bool true)
  else if name == "false".toList then some (.bool false)
  else if name == "null".toList then some .null
  else none

mutual

/-- An expression at the start of a text, in at most so many steps.  Inside brackets line ends are
blanks. -/
def readExpression (inside : Bool) : Nat → Chars → ExpressionRead
  | 0, _ => none
  | steps + 1, text => do
    let (value, rest) ← readOperands inside steps text
    let next ← skip inside rest
    match next with
    | '?' :: more =>
      let (_, rest) ← readExpression inside steps (← skip true more)
      let rest ← after ':' (← skip true rest)
      let (_, rest) ← readExpression inside steps (← skip true rest)
      some (none, rest)
    | _ => some (value, rest)

/-- Operands with operators between them. -/
def readOperands (inside : Bool) : Nat → Chars → ExpressionRead
  | 0, _ => none
  | steps + 1, text => do
    let (value, rest) ← readOperand inside steps text
    match afterOperator (← skip inside rest) with
    | some more =>
      let (_, rest) ← readOperands inside steps (← skip true more)
      some (none, rest)
    | none => some (value, rest)

/-- One operand with its signs. -/
def readOperand (inside : Bool) : Nat → Chars → ExpressionRead
  | 0, _ => none
  | steps + 1, text =>
    match text with
    | '!' :: rest => do
      let (_, rest) ← readOperand inside steps (← skip inside rest)
      some (none, rest)
    | '-' :: rest => do
      let (value, after) ← readOperand inside steps (← skip inside rest)
      match value, rest with
      | some (.number n), d :: _ => some (if d.isDigit then some (.number ((Number.int 0).sub n)) else none, after)
      | _, _ => some (none, after)
    | _ => do
      let (value, rest) ← readTerm steps text
      readAccess steps value rest

/-- A term with the accesses to its parts after it. -/
def readAccess : Nat → Option Tree → Chars → ExpressionRead
  | 0, _, _ => none
  | steps + 1, value, text =>
    match text with
    | '.' :: '*' :: rest => readAccess steps none rest
    | '.' :: rest =>
      match readName rest with
      | some (_, rest) => readAccess steps none rest
      | none =>
        let digits := rest.takeWhile Char.isDigit
        if digits.isEmpty then (if ['.'].isPrefixOf rest then some (value, text) else none)
        else readAccess steps none (rest.drop digits.length)
    | '[' :: '*' :: ']' :: rest => readAccess steps none rest
    | '[' :: rest => do
      let (_, rest) ← readExpression true steps (← skip true rest)
      readAccess steps none (← after ']' (← skip true rest))
    | _ => some (value, text)

/-- A term without signs and accesses. -/
def readTerm : Nat → Chars → ExpressionRead
  | 0, _ => none
  | steps + 1, text =>
    match text with
    | '(' :: rest => do
      let (_, rest) ← readExpression true steps (← skip true rest)
      some (none, ← after ')' (← skip true rest))
    | '\x22' :: rest => do
      let rest ← readString steps rest
      some (some (.text (String.ofList (text.take (text.length - rest.length)))), rest)
    | '<' :: '<' :: rest => do
      let rest ← readHeredoc rest
      some (some (.text (String.ofList ('\x22' :: text.take (text.length - rest.length) ++ ['\x22']))), rest)
    | '[' :: rest => do
      let rest ← skip true rest
      match afterName "for" rest with
      | some rest => some (none, ← after ']' (← readLoop steps rest))
      | none => readItems steps [] rest
    | '\x7b' :: rest => do
      let rest ← skip true rest
      match afterName "for" rest with
      | some more =>
        match readLoop steps more with
        | some rest => some (none, ← after '\x7d' rest)
        | none => readPairs steps [] rest
      | none => readPairs steps [] rest
    | _ =>
      match readNumber text with
      | some (n, rest) => some (some (.number n), rest)
      | none => do
        let (name, rest) ← readName text
        match rest with
        | ':' :: ':' :: more => readTerm steps more
        | '(' :: more => some (none, ← readArguments steps (← skip true more))
        | _ => some (literalWord? name, rest)

/-- The text after a string whose opening quote stands before it. -/
def readString : Nat → Chars → Option Chars
  | 0, _ => none
  | steps + 1, text =>
    match text with
    | [] => none
    | '\x22' :: rest => some rest
    | '\\' :: _ :: rest => readString steps rest
    | '$' :: '$' :: '\x7b' :: rest => do
      let rest ← after '\x7d' (rest.dropWhile (· != '\x7d'))
      readString steps rest
    | '$' :: '\x7b' :: rest => do
      let rest := (after '~' rest).getD rest
      let (_, rest) ← readExpression true steps (← skip true rest)
      let rest ← skip true rest
      readString steps (← after '\x7d' ((after '~' rest).getD rest))
    | _ :: rest => readString steps rest

/-- The items of a list from one on, those before in reverse. -/
def readItems : Nat → List Tree → Chars → ExpressionRead
  | 0, _, _ => none
  | steps + 1, before, text =>
    match text with
    | ']' :: rest => some (some (.list before.reverse), rest)
    | _ => do
      let (item, rest) := valueFrom text (← readExpression true steps text)
      match ← skip true rest with
      | ',' :: more => readItems steps (item :: before) (← skip true more)
      | ']' :: rest => some (some (.list (item :: before).reverse), rest)
      | _ => none

/-- The pairs of an object from one on, those before in reverse. -/
def readPairs : Nat → Table → Chars → ExpressionRead
  | 0, _, _ => none
  | steps + 1, table, text =>
    match text with
    | '\x7d' :: rest => some (some (.table table), rest)
    | _ => do
      let (key, rest) ← readOperand false steps text
      let name := match key with
        | some (.leaf s) => if (readName text).isSome then .text (String.ofList (text.take (text.length - rest.length))) else s
        | _ => if (readName text).isSome then .text (String.ofList (text.take (text.length - rest.length)))
          else match written text rest with
            | .leaf s => s
            | _ => .null
      let rest ← match ← skip false rest with
        | '=' :: more => some more
        | ':' :: more => some more
        | _ => none
      let start ← skip true rest
      let (value, rest) := valueFrom start (← readExpression false steps start)
      let rest ← skip false rest
      readPairs steps (Table.put table name value) (← skip true ((after ',' (← skip true rest)).getD rest))

/-- The arguments of a call from one on, and the closing parenthesis. -/
def readArguments : Nat → Chars → Option Chars
  | 0, _ => none
  | steps + 1, text =>
    match text with
    | ')' :: rest => some rest
    | _ => do
      let (_, rest) ← readExpression true steps text
      match ← skip true rest with
      | ',' :: more => readArguments steps (← skip true more)
      | '.' :: '.' :: '.' :: more => after ')' (← skip true more)
      | ')' :: rest => some rest
      | _ => none

/-- What makes a list or an object out of another one, after its first word and up to the bracket that
closes it. -/
def readLoop : Nat → Chars → Option Chars
  | 0, _ => none
  | steps + 1, text => do
    let (_, rest) ← readName (← skip true text)
    let rest ← skip true rest
    let rest ← match rest with
      | ',' :: more => do
        let (_, rest) ← readName (← skip true more)
        skip true rest
      | _ => some rest
    let rest ← afterName "in" rest
    let (_, rest) ← readExpression true steps (← skip true rest)
    let rest ← after ':' (← skip true rest)
    let (_, rest) ← readExpression true steps (← skip true rest)
    let rest ← match ← skip true rest with
      | '=' :: '>' :: more => do
        let (_, rest) ← readExpression true steps (← skip true more)
        skip true rest
      | rest => some rest
    let rest ← match rest with
      | '.' :: '.' :: '.' :: more => skip true more
      | _ => some rest
    match afterName "if" rest with
    | some more => do
      let (_, rest) ← readExpression true steps (← skip true more)
      skip true rest
    | none => some rest

end

/-! ## Bodies -/

/-- One item of a body. -/
inductive BodyItem where
  | attribute (name : String) (value : Tree)
  | block (kind : String) (labelled : Tree)

/-- The entry that marks the body of a block. -/
def blockMark : Scalar × Tree := (.text "__is_block__", .bool true)

/-- The attributes of a body. -/
def attributes (items : List BodyItem) : Table :=
  items.foldl (fun table item => match item with
    | .attribute name value => Table.put table (.text name) value
    | .block _ _ => table) []

/-- A table with one more block. -/
def putBlock (table : Table) (kind : String) (labelled : Tree) : Table :=
  Table.put table (.text kind) (.list (((Table.field table kind).list?.getD []) ++ [labelled]))

/-- The table of a body, attributes first; a name cannot be both an attribute and a type of blocks. -/
def bodyTable (items : List BodyItem) : Option Table :=
  let own := attributes items
  items.foldlM (fun table item => match item with
    | .attribute _ _ => some table
    | .block kind labelled => if Table.has own kind then none else some (putBlock table kind labelled)) own

/-- The labels at the start of a text, as they are written, and the text after them. -/
def readLabels : Nat → Chars → Option (List Chars × Chars)
  | 0, _ => none
  | steps + 1, text =>
    match text with
    | '\x22' :: rest => do
      let rest ← readString (8 * rest.length + 16) rest
      let (others, left) ← readLabels steps (← skip false rest)
      some (text.take (text.length - rest.length) :: others, left)
    | _ =>
      match readName text with
      | some (name, rest) => do
        let (others, left) ← readLabels steps (← skip false rest)
        some (name :: others, left)
      | none => some ([], text)

/-- A body with its labels around it, the first outermost. -/
def labelled (labels : List Chars) (body : Table) : Tree :=
  labels.foldr (fun label inner => .table [(.text (String.ofList label), inner)]) (.table (body ++ [blockMark]))

/-- The items of a body from one on, those before in reverse, up to the brace that closes it; the body of
a file ends with the file. -/
def readBody (file : Bool) : Nat → List BodyItem → Chars → Option (List BodyItem × Chars)
  | 0, _, _ => none
  | steps + 1, before, text => do
    let text ← skip true text
    match text with
    | [] => if file then some (before.reverse, []) else none
    | '\x7d' :: rest => if file then none else some (before.reverse, rest)
    | _ =>
      let (name, rest) ← readName text
      let rest ← skip false rest
      match rest with
      | '=' :: more =>
        let start ← skip false more
        let (value, rest) := valueFrom start (← readExpression false (8 * start.length + 16) start)
        readBody file steps (.attribute (String.ofList name) value :: before) rest
      | _ =>
        let (labels, rest) ← readLabels (rest.length + 1) rest
        let inner ← after '\x7b' (← skip true rest)
        let (items, rest) ← readBody false steps [] inner
        let body ← bodyTable items
        readBody file steps (.block (String.ofList name) (labelled labels body) :: before) rest

/-- The data of a file. -/
def read? (text : String) : Option Table :=
  match readBody true (text.length + 2) [] text.toList with
  | some (items, _) => bodyTable items
  | none => none

end DeployTrace.Hcl
