/-
  DeployTrace/Format/Yaml/Scalar.lean --- the texts of YAML scalars.

  WHAT THIS FILE IS FOR.  A scalar is written plain, in quotes, or as a block.  All three may go over
  several lines, and each has its rule for what a line end becomes: a space between words, a line end
  when lines are left empty, nothing after a backslash.  Every reader here returns the text and the place
  after it.
-/
import DeployTrace.Format.Yaml.Cursor
import DeployTrace.Format.Json
import DeployTrace.Text.Half

set_option autoImplicit false

namespace DeployTrace.Yaml

open Text

/-! ## Line ends inside a scalar -/

/-- What a line end and the empty lines after it become: a space when nothing is left empty. -/
def folded (lineEnd : Char) (empty : Chars) : Chars :=
  if keptBreak lineEnd != '\n' then keptBreak lineEnd :: empty
  else if empty.isEmpty then [' '] else empty

/-! ## Plain scalars -/

/-- The characters that end a plain scalar inside brackets, and those that do so after a colon. -/
def flowMarks : Chars := [',', '[', ']', '\x7b', '\x7d']

/-- The plain text at the start of a text, up to a blank or a mark. -/
def plainRun (inFlow : Bool) : Chars → Chars
  | [] => []
  | c :: rest =>
    let afterColon := endsWord rest.head? || (inFlow && (rest.head?.map flowMarks.contains).getD false)
    if endsWord (some c) || (c == ':' && afterColon) || (inFlow && (c == '?' || flowMarks.contains c)) then []
    else c :: plainRun inFlow rest

/-- What stands between two words of a plain scalar. -/
structure PlainGap where
  /-- what the gap becomes; empty when the scalar ends -/
  text : Chars
  cursor : Cursor
  /-- whether the gap goes over a line end -/
  broken : Bool

/-- The empty lines and spaces from a place on, with the line ends so far in reverse; nothing when a
document ends there. -/
def plainBreaks : Nat → Chars → Cursor → Option Chars × Cursor
  | 0, breaks, cur => (some breaks.reverse, cur)
  | steps + 1, breaks, cur =>
    match cur.peek with
    | none => (some breaks.reverse, cur)
    | some c =>
      if c == ' ' then plainBreaks steps breaks cur.next
      else if isBreak c then
        if cur.next.atDocumentMark then (none, cur.next)
        else plainBreaks steps (keptBreak c :: breaks) cur.next
      else (some breaks.reverse, cur)

/-- The gap at a place. -/
def plainGap (cur : Cursor) : PlainGap :=
  let spaces := cur.run (· == ' ')
  let cur := cur.skip spaces.length
  match cur.peek with
  | none => ⟨spaces, cur, false⟩
  | some c =>
    if !isBreak c then ⟨spaces, cur, false⟩
    else if cur.next.atDocumentMark then ⟨[], cur.next, true⟩
    else
      match plainBreaks cur.rest.length [] cur.next with
      | (none, after) => ⟨[], after, true⟩
      | (some breaks, after) => ⟨folded c breaks, after, true⟩

/-- A plain scalar: its text, the place after it, and whether that is on a new line. -/
structure PlainScalar where
  text : Chars
  cursor : Cursor
  broken : Bool

/-- The rest of a plain scalar, with the text so far in reverse and the gap after it.  A line that is
indented less than `column` is none of its lines. -/
def plainFrom (inFlow : Bool) (column : Int) : Nat → Chars → PlainGap → PlainScalar
  | 0, sofar, gap => ⟨sofar.reverse, gap.cursor, gap.broken⟩
  | steps + 1, sofar, gap =>
    let run := plainRun inFlow gap.cursor.rest
    if gap.cursor.peek == some '#' || run.isEmpty then ⟨sofar.reverse, gap.cursor, gap.broken⟩
    else
      let sofar := run.reverse ++ (gap.text.reverse ++ sofar)
      let gap := plainGap (gap.cursor.skip run.length)
      if gap.text.isEmpty || (!inFlow && (gap.cursor.column : Int) < column) then
        ⟨sofar.reverse, gap.cursor, gap.broken⟩
      else plainFrom inFlow column steps sofar gap

/-- The plain scalar at a place. -/
def readPlain (inFlow : Bool) (column : Int) (cur : Cursor) : PlainScalar :=
  plainFrom inFlow column (cur.rest.length + 1) [] ⟨[], cur, false⟩

/-! ## Quoted scalars -/

/-- The characters that escapes of one letter stand for. -/
def letterEscapes : List (Char × Nat) :=
  [('0', 0), ('a', 7), ('b', 8), ('t', 9), ('\t', 9), ('n', 10), ('v', 11), ('f', 12), ('r', 13),
    ('e', 27), (' ', 32), ('\x22', 34), ('\\', 92), ('/', 47), ('N', 0x85), ('_', 0xA0), ('L', 0x2028),
    ('P', 0x2029)]

/-- How many digits escapes with a number have. -/
def numberEscapes : List (Char × Nat) := [('x', 2), ('u', 4), ('U', 8)]

/-- The empty lines and blanks after a line end in quotes, with the line ends so far in reverse; nothing
when a document ends there. -/
def quotedBreaks : Nat → Chars → Cursor → Option (Chars × Cursor)
  | 0, _, _ => none
  | steps + 1, breaks, cur =>
    if cur.atDocumentMark then none
    else
      let cur := cur.skipWhile fun c => c == ' ' || c == '\t'
      match cur.peek with
      | some c =>
        if isBreak c then quotedBreaks steps (keptBreak c :: breaks) cur.next
        else some (breaks.reverse, cur)
      | none => some (breaks.reverse, cur)

/-- What an escape becomes, after its backslash.  An escape may name half of a surrogate pair. -/
def readEscape (cur : Cursor) : Option (Chars × Cursor) := do
  let c ← cur.peek
  match letterEscapes.lookup c with
  | some code => some ([Char.ofNat code], cur.next)
  | none =>
    match numberEscapes.lookup c with
    | some digits =>
      let written := cur.next.rest.take digits
      let code ← Json.hexNumber? written
      if written.length == digits && code < 0x110000 then some ([unitChar code], cur.next.skip digits)
      else none
    | none => if isBreak c then quotedBreaks (cur.rest.length + 1) [] cur.next else none

/-- What the blanks at a place in quotes become. -/
def readQuotedGap (cur : Cursor) : Option (Chars × Cursor) := do
  let blanks := cur.run fun c => c == ' ' || c == '\t'
  let cur := cur.skip blanks.length
  let c ← cur.peek
  if isBreak c then
    let (breaks, after) ← quotedBreaks (cur.rest.length + 1) [] cur.next
    some (folded c breaks, after)
  else some (blanks, cur)

/-- The rest of a scalar in quotes, with the text so far in reverse. -/
def quotedFrom (quote : Char) : Nat → Chars → Cursor → Option (Chars × Cursor)
  | 0, _, _ => none
  | steps + 1, sofar, cur => do
    let c ← cur.peek
    if c == quote then
      if quote == '\x27' && cur.ahead 1 == some quote then quotedFrom quote steps (quote :: sofar) (cur.skip 2)
      else some (sofar.reverse, cur.next)
    else if c == '\\' && quote == '\x22' then
      let (text, after) ← readEscape cur.next
      quotedFrom quote steps (text.reverse ++ sofar) after
    else if endsWord (some c) then
      let (text, after) ← readQuotedGap cur
      quotedFrom quote steps (text.reverse ++ sofar) after
    else quotedFrom quote steps (c :: sofar) cur.next

/-- The scalar in quotes after its opening quote. -/
def readQuoted (quote : Char) (cur : Cursor) : Option (Chars × Cursor) :=
  quotedFrom quote (cur.rest.length + 1) [] cur

/-! ## Block scalars -/

/-- What becomes of the line ends at the end of a block. -/
inductive Chomping where
  | strip
  | clip
  | keep
  deriving DecidableEq, Repr

/-- The header of a block: what becomes of its last line ends, and by how much its lines are indented. -/
structure BlockHeader where
  chomping : Chomping
  indent : Option Nat
  cursor : Cursor

/-- A sign for the chomping at a place. -/
def chompingSign? (cur : Cursor) : Option Chomping :=
  if cur.peek == some '+' then some .keep else if cur.peek == some '-' then some .strip else none

/-- A digit for the indent at a place. -/
def indentDigit? (cur : Cursor) : Option Nat :=
  (cur.peek.filter Char.isDigit).map fun c => c.toNat - 48

/-- The signs after the mark of a block, in either order. -/
def blockSigns (cur : Cursor) : BlockHeader :=
  match chompingSign? cur, indentDigit? cur with
  | some chomping, _ =>
    match indentDigit? cur.next with
    | some n => ⟨chomping, some n, cur.skip 2⟩
    | none => ⟨chomping, none, cur.next⟩
  | none, some n =>
    match chompingSign? cur.next with
    | some chomping => ⟨chomping, some n, cur.skip 2⟩
    | none => ⟨.clip, some n, cur.next⟩
  | none, none => ⟨.clip, none, cur⟩

/-- The header of a block up to its first line. -/
def readBlockHeader (cur : Cursor) : Option BlockHeader :=
  let signs := blockSigns cur
  if signs.indent == some 0 || !(endsLine signs.cursor.peek || signs.cursor.peek == some ' ') then none
  else
    let cur := signs.cursor.skipWhile (· == ' ')
    let cur := if cur.peek == some '#' then cur.skipLine else cur
    if endsLine cur.peek then some { signs with cursor := cur.next } else none

/-- The empty lines before a block's first line: their ends in reverse, the greatest indent among them
and the first line, and the place of the first character. -/
def leadingLines : Nat → Chars → Nat → Cursor → Chars × Nat × Cursor
  | 0, breaks, indent, cur => (breaks, indent, cur)
  | steps + 1, breaks, indent, cur =>
    match cur.peek with
    | none => (breaks, indent, cur)
    | some c =>
      if c == ' ' then leadingLines steps breaks (max indent cur.next.column) cur.next
      else if isBreak c then leadingLines steps (keptBreak c :: breaks) indent cur.next
      else (breaks, indent, cur)

/-- The empty lines at a place inside a block, their ends in reverse, and the place after the indent of
the next line. -/
def emptyLines (indent : Nat) : Nat → Chars → Cursor → Chars × Cursor
  | 0, breaks, cur => (breaks, cur)
  | steps + 1, breaks, cur =>
    let cur := cur.skipSpacesTo indent
    match cur.peek with
    | none => (breaks, cur)
    | some c =>
      if isBreak c then emptyLines indent steps (keptBreak c :: breaks) cur.next else (breaks, cur)

/-- Whether a character is one that keeps the line end before its line as it is. -/
def startsMoreIndented (c : Option Char) : Bool := c == some ' ' || c == some '\t'

/-- The lines of a block from a line on: the text so far in reverse, the end of the last line, the empty
lines after it in reverse, and the place after them. -/
def blockLines (folds : Bool) (indent : Nat) :
    Nat → Chars → Chars → Cursor → Chars × Option Char × Chars × Cursor
  | 0, sofar, breaks, cur => (sofar, none, breaks, cur)
  | steps + 1, sofar, breaks, cur =>
    if cur.column != indent || cur.peek.isNone then (sofar, none, breaks, cur)
    else
      let line := cur.run fun c => !isBreak c
      let sofar := line.reverse ++ (breaks ++ sofar)
      let ending := (cur.skip line.length).peek.map keptBreak
      let (empty, after) := emptyLines indent (cur.rest.length + 1) [] (cur.skip line.length).next
      if after.column == indent && after.peek.isSome then
        let joined : Chars :=
          if folds && ending == some '\n' && !startsMoreIndented cur.peek && !startsMoreIndented after.peek then
            if empty.isEmpty then [' '] else []
          else ending.toList
        blockLines folds indent steps (joined ++ sofar) empty after
      else (sofar, ending, empty, after)

/-- A block after its mark, inside something indented by `outer`. -/
def readBlock (folds : Bool) (outer : Int) (cur : Cursor) : Option (Chars × Cursor) := do
  let header ← readBlockHeader cur
  let cur := header.cursor
  let least := max 1 (outer + 1).toNat
  let (breaks, indent, cur) := match header.indent with
    | some n =>
      let indent := least + n - 1
      let (breaks, cur) := emptyLines indent (cur.rest.length + 1) [] cur
      (breaks, indent, cur)
    | none =>
      let (breaks, found, cur) := leadingLines (cur.rest.length + 1) [] 0 cur
      (breaks, max least found, cur)
  let (text, ending, empty, cur) := blockLines folds indent (cur.rest.length + 1) [] breaks cur
  let ended := match header.chomping with
    | .strip => text
    | .clip => ending.toList ++ text
    | .keep => empty ++ (ending.toList ++ text)
  return (ended.reverse, cur)

end DeployTrace.Yaml
