/-
  DeployTrace/Format/Yaml/Token.lean --- the tokens of a YAML text.

  WHAT THIS FILE IS FOR.  A YAML text becomes a list of tokens in which the nesting that its columns show
  is explicit: a token opens every block and one closes it.

  KEYS.  That something is a key shows only at the colon after it.  So wherever a key may start a slot is
  left among the tokens; the colon fills it, with the token of a key and maybe one that opens a block,
  and slots that stay empty are dropped at the end.  Nothing that was written is ever changed.

  A key has to end on its line and within 1024 characters.  Where a key has to stand, at the indent of
  the block, a missing colon makes the text unreadable.
-/
import DeployTrace.Format.Yaml.Scalar

set_option autoImplicit false

namespace DeployTrace.Yaml

open Text

/-! ## Tokens -/

/-- A token. -/
inductive Token where
  /-- the version of the language, or another directive -/
  | directive (version : Option (Nat × Nat))
  | documentStart
  | documentEnd
  | blockSequence
  | blockMapping
  | blockEnd
  | flowSequence
  | flowSequenceEnd
  | flowMapping
  | flowMappingEnd
  | flowEntry
  | blockEntry
  | key
  | value
  | reference (name : Chars)
  | anchor (name : Chars)
  | tag (handle : Option Chars) (suffix : Chars)
  | scalar (text : String) (plain : Bool)
  deriving DecidableEq, Repr

/-- An item of the list in the making: a token, or a slot with its number. -/
inductive Item where
  | token (t : Token)
  | slot (number : Nat)

/-- A key that may have started. -/
structure PendingKey where
  slot : Nat
  /-- whether the block it stands in cannot do without its colon -/
  required : Bool
  index : Nat
  line : Nat
  column : Nat
  deriving DecidableEq, Repr

/-- How far a text is read. -/
structure Scanner where
  cursor : Cursor
  /-- the column of the innermost block; before the first block it is negative -/
  indent : Int := -1
  /-- the columns of the blocks around it -/
  outer : List Int := []
  /-- the key that may have started inside every bracket, innermost first, and outside of all -/
  pending : List (Option PendingKey) := [none]
  /-- whether a key may start here -/
  keyAllowed : Bool := true
  /-- items so far, latest first -/
  items : List Item := []
  slots : Nat := 0
  /-- what slots are filled with -/
  filled : List (Nat × List Token) := []

namespace Scanner

/-- Whether the place is inside brackets. -/
def inFlow (s : Scanner) : Bool := 1 < s.pending.length

/-- The scanner with one more token. -/
def push (s : Scanner) (t : Token) : Scanner := { s with items := .token t :: s.items }

/-- The scanner with one more token, after it. -/
def pushOver (s : Scanner) (width : Nat) (t : Token) : Scanner :=
  { s.push t with cursor := s.cursor.skip width }

/-- The scanner that allows or forbids a key. -/
def allowKey (s : Scanner) (allowed : Bool) : Scanner := { s with keyAllowed := allowed }

/-! ## Blocks -/

/-- The scanner after closing the blocks that are indented more than a column. -/
def closeBlocks (column : Int) : List Int → Scanner → Scanner
  | [], s => s
  | indent :: outer, s =>
    if column < s.indent then closeBlocks column outer { s.push .blockEnd with indent := indent, outer := outer }
    else s

/-- The scanner after closing the blocks that are indented more than a column; inside brackets columns do
not count. -/
def unwind (s : Scanner) (column : Int) : Scanner :=
  if s.inFlow then s else closeBlocks column s.outer s

/-- Whether a column opens a block, and the scanner in that block. -/
def indentTo (s : Scanner) (column : Nat) : Bool × Scanner :=
  if s.indent < (column : Int) then
    (true, { s with indent := column, outer := s.indent :: s.outer })
  else (false, s)

/-- The scanner in a block of a kind at the place's column, opened if need be. -/
def openBlock (s : Scanner) (t : Token) : Scanner :=
  let (opened, s) := s.indentTo s.cursor.column
  if opened then s.push t else s

/-! ## Keys -/

/-- A key given up: an error when it is required. -/
def giveUp (key : Option PendingKey) : Option (Option PendingKey) :=
  match key with
  | some k => if k.required then none else some none
  | none => some none

/-- The scanner without the key that may have started inside the innermost bracket. -/
def dropKey (s : Scanner) : Option Scanner :=
  match s.pending with
  | key :: rest => (giveUp key).map fun key => { s with pending := key :: rest }
  | [] => some s

/-- Whether a key can still be one at a place. -/
def PendingKey.isFresh (k : PendingKey) (cur : Cursor) : Bool :=
  k.line == cur.line && cur.index - k.index ≤ 1024

/-- The scanner without the keys that are too far back. -/
def dropStale (s : Scanner) : Option Scanner :=
  (s.pending.mapM fun key => match key with
    | some k => if PendingKey.isFresh k s.cursor then some (some k) else giveUp (some k)
    | none => some none).map fun pending => { s with pending := pending }

/-- The scanner that leaves a slot for a key, if one may start here. -/
def markKey (s : Scanner) : Option Scanner :=
  if !s.keyAllowed then some s
  else do
    let s ← s.dropKey
    let key : PendingKey := {
      slot := s.slots, required := !s.inFlow && s.indent == (s.cursor.column : Int),
      index := s.cursor.index, line := s.cursor.line, column := s.cursor.column }
    some { s with
      pending := some key :: s.pending.tail, items := .slot s.slots :: s.items, slots := s.slots + 1 }

/-! ## Reading single tokens -/

/-- The scanner after a bracket that opens. -/
def openFlow (s : Scanner) (t : Token) : Option Scanner := do
  let s ← s.markKey
  some ({ s with pending := none :: s.pending }.allowKey true |>.pushOver 1 t)

/-- The scanner after a bracket that closes. -/
def closeFlow (s : Scanner) (t : Token) : Option Scanner := do
  let s ← s.dropKey
  match s.pending with
  | _ :: outer :: rest => some ({ s with pending := outer :: rest }.allowKey false |>.pushOver 1 t)
  | _ => none

/-- The scanner after a comma inside brackets. -/
def readFlowEntry (s : Scanner) : Option Scanner := do
  let s ← (s.allowKey true).dropKey
  some (s.pushOver 1 .flowEntry)

/-- The scanner after the hyphen of an item. -/
def readBlockEntry (s : Scanner) : Option Scanner :=
  if !s.inFlow && !s.keyAllowed then none
  else do
    let s := if s.inFlow then s else s.openBlock .blockSequence
    let s ← (s.allowKey true).dropKey
    some (s.pushOver 1 .blockEntry)

/-- The scanner after the question mark of a key. -/
def readKey (s : Scanner) : Option Scanner :=
  if !s.inFlow && !s.keyAllowed then none
  else do
    let s := if s.inFlow then s else s.openBlock .blockMapping
    let s ← (s.allowKey (!s.inFlow)).dropKey
    some (s.pushOver 1 .key)

/-- The scanner after the colon of a value whose key is in a slot. -/
def fillSlot (s : Scanner) (k : PendingKey) : Scanner :=
  let s := { s with pending := none :: s.pending.tail }
  let (opened, s) := if s.inFlow then (false, s) else s.indentTo k.column
  let tokens := if opened then [Token.blockMapping, .key] else [.key]
  { s with filled := (k.slot, tokens) :: s.filled }.allowKey false |>.pushOver 1 .value

/-- The scanner after the colon of a value. -/
def readValue (s : Scanner) : Option Scanner :=
  match s.pending.head? with
  | some (some k) => some (s.fillSlot k)
  | _ =>
    if !s.inFlow && !s.keyAllowed then none
    else do
      let s := if s.inFlow then s else s.openBlock .blockMapping
      let s ← (s.allowKey (!s.inFlow)).dropKey
      some (s.pushOver 1 .value)

/-- A character of an anchor's name. -/
def isAnchorChar (c : Char) : Bool := c.isAlphanum || c == '-' || c == '_'

/-- The characters other than blanks that may follow an anchor. -/
def afterAnchor : Chars := ['?', ':', ',', ']', '\x7d', '%', '@', Char.ofNat 96]

/-- The scanner after an anchor or an alias. -/
def readAnchor (s : Scanner) (make : Chars → Token) : Option Scanner := do
  let s ← s.markKey
  let name := s.cursor.next.run isAnchorChar
  let after := s.cursor.next.skip name.length
  if name.isEmpty || !(endsWord after.peek || (after.peek.map afterAnchor.contains).getD false) then none
  else some { s.allowKey false |>.push (make name) with cursor := after }

/-- A character of a tag. -/
def isTagChar (c : Char) : Bool :=
  c.isAlphanum || ("-;/?:@&=+$,_.!~*\x27()[]%".toList).contains c

/-- A tag at a place: its handle, if it has one, its suffix, and the place after it. -/
def readTagAt (cur : Cursor) : Option (Option Chars × Chars × Cursor) :=
  let after := cur.next
  if after.peek == some '<' then
    let uri := after.next.run isTagChar
    let rest := after.next.skip uri.length
    if uri.isEmpty || rest.peek != some '>' then none else some (none, uri, rest.next)
  else if endsWord after.peek then some (none, ['!'], after)
  else
    let name := after.run isAnchorChar
    let rest := after.skip name.length
    let (handle, rest) := if rest.peek == some '!' then ('!' :: name ++ ['!'], rest.next) else (['!'], after)
    let suffix := rest.run isTagChar
    if suffix.isEmpty then none else some (some handle, suffix, rest.skip suffix.length)

/-- The scanner after a tag. -/
def readTag (s : Scanner) : Option Scanner := do
  let s ← s.markKey
  let (handle, suffix, after) ← readTagAt s.cursor
  if endsLine after.peek || after.peek == some ' ' then
    some { s.allowKey false |>.push (.tag handle suffix) with cursor := after }
  else none

/-- The scanner after a scalar in quotes. -/
def readQuotedScalar (s : Scanner) (quote : Char) : Option Scanner := do
  let s ← s.markKey
  let (text, after) ← readQuoted quote s.cursor.next
  some { s.allowKey false |>.push (.scalar (String.ofList text) false) with cursor := after }

/-- The scanner after a block scalar. -/
def readBlockScalar (s : Scanner) (folds : Bool) : Option Scanner := do
  let s ← (s.allowKey true).dropKey
  let (text, after) ← readBlock folds s.indent s.cursor.next
  some { s.push (.scalar (String.ofList text) false) with cursor := after }

/-- The scanner after a plain scalar. -/
def readPlainScalar (s : Scanner) : Option Scanner := do
  let s ← s.markKey
  let found := readPlain s.inFlow (s.indent + 1) s.cursor
  some { s.allowKey found.broken |>.push (.scalar (String.ofList found.text) true) with
    cursor := found.cursor }

/-! ## Documents and directives -/

/-- The scanner outside of all blocks and keys. -/
def leaveBlocks (s : Scanner) : Option Scanner := do
  let s ← (s.unwind (-1)).dropKey
  some (s.allowKey false)

/-- The version in the words of a directive. -/
def versionOf (words : List Chars) : Option (Option (Nat × Nat)) :=
  match words with
  | [name, version] =>
    if name != "YAML".toList then some none
    else
      match cutAt '.' version with
      | some (major, minor) => do
        some (some ((← (String.ofList major).toNat?), (← (String.ofList minor).toNat?)))
      | none => none
  | name :: _ => if name == "YAML".toList then none else some none
  | [] => none

/-- The scanner after a directive. -/
def readDirective (s : Scanner) : Option Scanner := do
  let s ← s.leaveBlocks
  let line := s.cursor.next.run fun c => !isBreak c
  let words := ((line.takeWhile (· != '#')).splitOnP (· == ' ')).filter fun w => !w.isEmpty
  let version ← versionOf words
  some { s.push (.directive version) with cursor := s.cursor.skipLine.next }

/-- The scanner after a mark of a document. -/
def readDocumentMark (s : Scanner) (t : Token) : Option Scanner := do
  let s ← s.leaveBlocks
  some (s.pushOver 3 t)

/-! ## The next token -/

/-- The scanner at the next character that is no space, comment or line end. -/
def toNext : Nat → Scanner → Scanner
  | 0, s => s
  | steps + 1, s =>
    let cur := s.cursor.skipWhile (· == ' ')
    let cur := if cur.peek == some '#' then cur.skipLine else cur
    match cur.peek with
    | some c =>
      if isBreak c then
        toNext steps { s with cursor := cur.next, keyAllowed := s.keyAllowed || !s.inFlow }
      else { s with cursor := cur }
    | none => { s with cursor := cur }

/-- The characters with which no plain scalar starts, unless it is one of three and goes on at once. -/
def plainStops : Chars :=
  ['-', '?', ':', ',', '[', ']', '\x7b', '\x7d', '#', '&', '*', '!', '|', '>', '\x27', '\x22', '%', '@',
    Char.ofNat 96]

/-- Whether a plain scalar starts at a place. -/
def startsPlain (inFlow : Bool) (cur : Cursor) (c : Char) : Bool :=
  !(endsWord (some c) || plainStops.contains c) ||
    (!endsWord (cur.ahead 1) && (c == '-' || (!inFlow && (c == '?' || c == ':'))))

/-- The scanner after the token that starts with a character. -/
def readToken (s : Scanner) (c : Char) : Option Scanner :=
  let cur := s.cursor
  let apart := endsWord (cur.ahead 1)
  if c == '%' && cur.column == 0 then s.readDirective
  else if cur.column == 0 && cur.atMark ["---"] then s.readDocumentMark .documentStart
  else if cur.column == 0 && cur.atMark ["..."] then s.readDocumentMark .documentEnd
  else if c == '[' then s.openFlow .flowSequence
  else if c == '\x7b' then s.openFlow .flowMapping
  else if c == ']' then s.closeFlow .flowSequenceEnd
  else if c == '\x7d' then s.closeFlow .flowMappingEnd
  else if c == ',' then s.readFlowEntry
  else if c == '-' && apart then s.readBlockEntry
  else if c == '?' && (s.inFlow || apart) then s.readKey
  else if c == ':' && (s.inFlow || apart) then s.readValue
  else if c == '*' then s.readAnchor .reference
  else if c == '&' then s.readAnchor .anchor
  else if c == '!' then s.readTag
  else if c == '|' && !s.inFlow then s.readBlockScalar false
  else if c == '>' && !s.inFlow then s.readBlockScalar true
  else if c == '\x27' || c == '\x22' then s.readQuotedScalar c
  else if startsPlain s.inFlow cur c then s.readPlainScalar
  else none

/-- The tokens of items given latest first, slots replaced by what fills them. -/
def tokens (s : Scanner) : List Token :=
  s.items.reverse.flatMap fun item => match item with
    | .token t => [t]
    | .slot n => (s.filled.lookup n).getD []

/-- The tokens of the rest of a text, at most so many. -/
def finish : Nat → Scanner → Option (List Token)
  | 0, _ => none
  | left + 1, s => do
    let s ← (toNext (s.cursor.rest.length + 1) s).dropStale
    let s := s.unwind s.cursor.column
    match s.cursor.peek with
    | none => return (← s.leaveBlocks).tokens
    | some c => finish left (← s.readToken c)

end Scanner

/-- The tokens of a text. -/
def Token.read? (text : String) : Option (List Token) :=
  let chars := text.toList
  if !chars.all isAllowed then none
  else
    let body := match chars with
      | c :: rest => if c == byteOrderMark then rest else chars
      | [] => []
    Scanner.finish (body.length + 2) { cursor := { rest := body } }

end DeployTrace.Yaml
