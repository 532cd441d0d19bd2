/-
  DeployTrace/Format/Toml.lean --- reading TOML.

  WHAT THIS FILE IS FOR.  A settings file is a list of statements: headers of tables, headers of elements
  of lists of tables, and pairs of a key and a value.  The statements are read first; then they are put
  together, and a statement that would change what an earlier one has fixed makes the whole text
  unreadable.

  WHAT IS FIXED.  A table that has had its header, or that an earlier section has filled through dotted
  keys, is closed: no second header, no dotted key from elsewhere.  A list or table given as a value is
  frozen with all that is in it.  A new element of a list of tables starts afresh.

  Dates and times are kept as texts.
-/
import DeployTrace.Format.Json
import DeployTrace.Text.Pattern

set_option autoImplicit false

namespace DeployTrace.Toml

open Text

/-! ## Blanks and comments -/

/-- A control character; tab is none. -/
def isControl (c : Char) : Bool := (c.toNat < 32 && c != '\t') || c.toNat == 127

/-- The text without spaces and tabs at its start. -/
def skipSpaces (text : Chars) : Chars := text.dropWhile fun c => c == ' ' || c == '\t'

/-- The text after a comment, if one stands at its start; a control character in it is an error. -/
def skipComment (text : Chars) : Option Chars :=
  match text with
  | '#' :: rest =>
    if (rest.takeWhile (· != '\n')).any isControl then none else some (rest.dropWhile (· != '\n'))
  | _ => some text

/-- The text without blanks, line ends and comments at its start; `inComment` tells that it starts in
one. -/
def skipGapFrom : Bool → Chars → Option Chars
  | _, [] => some []
  | true, c :: rest =>
    if c == '\n' then skipGapFrom false rest else if isControl c then none else skipGapFrom true rest
  | false, c :: rest =>
    if c == ' ' || c == '\t' || c == '\n' then skipGapFrom false rest
    else if c == '#' then skipGapFrom true rest
    else some (c :: rest)

/-- The text without blanks, line ends and comments at its start. -/
def skipGap (text : Chars) : Option Chars := skipGapFrom false text

/-! ## Strings -/

/-- The character that a short escape stands for. -/
def escaped? (c : Char) : Option Char :=
  if c == 'b' then some (Char.ofNat 8)
  else if c == 't' then some '\t'
  else if c == 'n' then some '\n'
  else if c == 'f' then some (Char.ofNat 12)
  else if c == 'r' then some '\r'
  else if c == '\x22' || c == '\\' then some c
  else none

/-- The character with a number, if there is one. -/
def charOf? (n : Nat) : Option Char :=
  if n < 0xD800 || (0xDFFF < n && n < 0x110000) then some (Char.ofNat n) else none

/-- The character that hexadecimal digits stand for. -/
def hexChar? (digits : Chars) : Option Char := (Json.hexNumber? digits).bind charOf?

/-- What reading a string in several lines passes over: nothing, the blanks after a backslash up to the
line's end, or all blanks and line ends after that. -/
inductive Skipping where
  | nothing
  | toLineEnd
  | toText
  deriving DecidableEq, Repr

/-- Up to two quotes that belong to the text before the three that end it. -/
def extraQuotes (quote : Char) : Chars → Chars × Chars
  | a :: b :: rest =>
    if a == quote && b == quote then ([a, b], rest)
    else if a == quote then ([a], b :: rest)
    else ([], a :: b :: rest)
  | [a] => if a == quote then ([a], []) else ([], [a])
  | [] => ([], [])

/-- A character in front of a string that is read. -/
def prepend (c : Char) (read : Option (Chars × Chars)) : Option (Chars × Chars) :=
  read.map fun (text, rest) => (c :: text, rest)

/-- A string with escapes after its opening quotes, in one line or in several. -/
def readBasic (severalLines : Bool) : Skipping → Chars → Option (Chars × Chars)
  | _, [] => none
  | .toLineEnd, c :: rest =>
    if c == '\n' then readBasic severalLines .toText rest
    else if c == ' ' || c == '\t' then readBasic severalLines .toLineEnd rest
    else none
  | skipping, '\x22' :: '\x22' :: '\x22' :: rest =>
    if severalLines then some (extraQuotes '\x22' rest)
    else if skipping == .nothing then some ([], '\x22' :: '\x22' :: rest)
    else none
  | _, '\\' :: 'u' :: a :: b :: c :: d :: rest =>
    (hexChar? [a, b, c, d]).bind fun x => prepend x (readBasic severalLines .nothing rest)
  | _, '\\' :: 'U' :: a :: b :: c :: d :: e :: f :: g :: h :: rest =>
    (hexChar? [a, b, c, d, e, f, g, h]).bind fun x => prepend x (readBasic severalLines .nothing rest)
  | _, '\\' :: c :: rest =>
    if severalLines && c == '\n' then readBasic severalLines .toText rest
    else if severalLines && (c == ' ' || c == '\t') then readBasic severalLines .toLineEnd rest
    else (escaped? c).bind fun x => prepend x (readBasic severalLines .nothing rest)
  | skipping, c :: rest =>
    if skipping == .toText && (c == ' ' || c == '\t' || c == '\n') then
      readBasic severalLines .toText rest
    else if c == '\x22' && !severalLines then some ([], rest)
    else if isControl c && !(severalLines && c == '\n') then none
    else prepend c (readBasic severalLines .nothing rest)

/-- A string without escapes after its opening quotes, in several lines. -/
def readLongLiteral : Chars → Option (Chars × Chars)
  | [] => none
  | '\x27' :: '\x27' :: '\x27' :: rest => some (extraQuotes '\x27' rest)
  | c :: rest => if isControl c && c != '\n' then none else prepend c (readLongLiteral rest)

/-- A string without escapes after its opening quote, in one line. -/
def readLiteral : Chars → Option (Chars × Chars)
  | [] => none
  | c :: rest =>
    if c == '\x27' then some ([], rest) else if isControl c then none else prepend c (readLiteral rest)

/-- The text without a line end at its start. -/
def dropLineEnd : Chars → Chars
  | '\n' :: rest => rest
  | text => text

/-- A string of any kind at the start of a text. -/
def readString (text : Chars) : Option (Chars × Chars) :=
  match text with
  | '\x22' :: '\x22' :: '\x22' :: rest => readBasic true .nothing (dropLineEnd rest)
  | '\x22' :: rest => readBasic false .nothing rest
  | '\x27' :: '\x27' :: '\x27' :: rest => readLongLiteral (dropLineEnd rest)
  | '\x27' :: rest => readLiteral rest
  | _ => none

/-! ## Keys -/

/-- The names under which a value is found, outermost first. -/
abbrev KeyPath : Type := List String

/-- A character of a key without quotes. -/
def isBareKeyChar (c : Char) : Bool := c.isAlphanum || c == '-' || c == '_'

/-- One part of a key. -/
def readKeyPart (text : Chars) : Option (String × Chars) :=
  match text with
  | '\x27' :: rest => (readLiteral rest).map fun (key, rest) => (String.ofList key, rest)
  | '\x22' :: rest => (readBasic false .nothing rest).map fun (key, rest) => (String.ofList key, rest)
  | _ =>
    let key := text.takeWhile isBareKeyChar
    if key.isEmpty then none else some (String.ofList key, text.drop key.length)

/-- A key of at most so many parts, and what follows it and blanks. -/
def readKey : Nat → Chars → Option (KeyPath × Chars)
  | 0, _ => none
  | parts + 1, text => do
    let (first, rest) ← readKeyPart text
    match skipSpaces rest with
    | '.' :: more =>
      let (others, rest) ← readKey parts (skipSpaces more)
      some (first :: others, rest)
    | rest => some ([first], rest)

/-! ## Numbers and times -/

open Pattern in
/-- Digits with single underscores between them. -/
def digitsOf (isDigit : Char → Bool) : Pattern :=
  seq [char isDigit, many true (seq [optional (word "_"), char isDigit])]

open Pattern in
/-- A number; part 1 is what makes it a fraction, and parts 2 to 4 are the digits to base 16, 8 and 2. -/
def numberPattern : Pattern :=
  let digit : Char → Bool := Char.isDigit
  oneOf [
    seq [word "0x", mark 2 (digitsOf fun c => (Json.hexValue? c).isSome)],
    seq [word "0b", mark 4 (digitsOf fun c => c == '0' || c == '1')],
    seq [word "0o", mark 3 (digitsOf fun c => '0' ≤ c && c ≤ '7')],
    seq [optional (char fun c => c == '-' || c == '+'),
      oneOf [word "0",
        seq [char fun c => '1' ≤ c && c ≤ '9', many true (seq [optional (word "_"), char digit])]],
      mark 1 (seq [optional (seq [word ".", digitsOf digit]),
        optional (seq [char fun c => c == 'e' || c == 'E', optional (char fun c => c == '-' || c == '+'),
          digitsOf digit])])]]

/-- The value of digits to a base, with underscores between them. -/
def basedNumber (base : Nat) (digits : Chars) : Number :=
  .int (((digits.filterMap Json.hexValue?).foldl (fun n d => base * n + d) 0 : Nat))

/-- The number that a match stands for. -/
def numberOf? (found : Match) : Option Number :=
  match found.part? 2, found.part? 3, found.part? 4 with
  | some digits, _, _ => some (basedNumber 16 digits)
  | _, some digits, _ => some (basedNumber 8 digits)
  | _, _, some digits => some (basedNumber 2 digits)
  | none, none, none =>
    let written := String.ofList found.whole
    if (found.part 1).isEmpty then (readInt? written).map .int else (readFraction? written).map .fraction

open Pattern in
/-- So many digits. -/
def digitCount (n : Nat) : Pattern := seq (List.replicate n (char Char.isDigit))

open Pattern in
/-- A time of day. -/
def timePattern : Pattern :=
  seq [digitCount 2, word ":", digitCount 2, word ":", digitCount 2,
    optional (seq [word ".", span1 Char.isDigit])]

open Pattern in
/-- A date, with a time and its distance from universal time or without. -/
def datePattern : Pattern :=
  seq [digitCount 4, word "-", digitCount 2, word "-", digitCount 2,
    optional (seq [char fun c => c == 'T' || c == 't' || c == ' ', timePattern,
      optional (oneOf [word "Z", seq [oneOf [word "+", word "-"], digitCount 2, word ":", digitCount 2]])])]

/-- A date, a time or a number at the start of a text. -/
def readNumberOrTime (text : Chars) : Option (Tree × Chars) :=
  match (Pattern.oneOf [datePattern, timePattern]).matchStart text with
  | some found => some (.text (String.ofList found.whole), text.drop found.whole.length)
  | none =>
    match numberPattern.matchStart text with
    | some found => (numberOf? found).map fun n => (.number n, text.drop found.whole.length)
    | none => none

/-- The words for values outside the finite numbers. -/
def numberWords : List (String × Binary64) :=
  [("inf", .infinite false), ("nan", .nan), ("-inf", .infinite true), ("+inf", .infinite false),
    ("-nan", .nan), ("+nan", .nan)]

/-- One of some words at the start of a text. -/
def readWord {α : Type} (words : List (String × α)) (text : Chars) : Option (α × Chars) :=
  (words.find? fun (w, _) => w.toList.isPrefixOf text).map fun (w, value) => (value, text.drop w.length)

/-- A value of one word at the start of a text. -/
def readSimple (text : Chars) : Option (Tree × Chars) :=
  match readWord [("true", true), ("false", false)] text with
  | some (b, rest) => some (.bool b, rest)
  | none =>
    match readNumberOrTime text with
    | some read => some read
    | none => (readWord numberWords text).map fun (x, rest) => (.number (.fraction x), rest)

/-! ## Putting values into tables -/

/-- What a path leads to through lists of tables: their last element. -/
inductive ThroughLists where
  | allowed
  | refused
  deriving DecidableEq, Repr

/-- A table changed at a path, tables on the way being made when they are missing.  Nothing when
something that is no table is in the way. -/
def changeAt (lists : ThroughLists) (change : Table → Option Table) : KeyPath → Table → Option Table
  | [], table => change table
  | name :: path, table =>
    match table.field? name with
    | none => (changeAt lists change path []).map fun inner => table.put (.text name) (.table inner)
    | some (.table inner) =>
      (changeAt lists change path inner).map fun inner => table.put (.text name) (.table inner)
    | some (.list items) =>
      match lists, items.getLast? with
      | .allowed, some (.table inner) => (changeAt lists change path inner).map fun inner =>
          table.put (.text name) (.list (items.dropLast ++ [.table inner]))
      | _, _ => none
    | some _ => none

/-- A table with a new value under a name. -/
def putNew (name : String) (value : Tree) (table : Table) : Option Table :=
  if Table.has table name then none else some (table.put (.text name) value)

/-- A table with one more element in the list of tables under a name. -/
def putElement (name : String) (table : Table) : Option Table :=
  match table.field? name with
  | none => some (table.put (.text name) (.list [.table []]))
  | some (.list items) => some (table.put (.text name) (.list (items ++ [.table []])))
  | some _ => none

/-- Whether a path leads to or into one of some paths. -/
def isWithin (paths : List KeyPath) (path : KeyPath) : Bool := paths.any (·.isPrefixOf path)

/-- Whether a value is frozen once it is given. -/
def isNested : Tree → Bool
  | .leaf _ => false
  | _ => true

/-! ## Values -/

mutual

/-- A value at the start of a text, in at most so many steps. -/
def readValue : Nat → Chars → Option (Tree × Chars)
  | 0, _ => none
  | steps + 1, text =>
    match text with
    | '[' :: rest => do readItems steps [] (← skipGap rest)
    | '\x7b' :: rest =>
      match skipSpaces rest with
      | '\x7d' :: after => some (.table [], after)
      | rest => readPairs steps [] [] rest
    | '\x22' :: _ => (readString text).map fun (s, rest) => (.text (String.ofList s), rest)
    | '\x27' :: _ => (readString text).map fun (s, rest) => (.text (String.ofList s), rest)
    | _ => readSimple text

/-- The items of a list from one on, those before in reverse. -/
def readItems : Nat → List Tree → Chars → Option (Tree × Chars)
  | 0, _, _ => none
  | steps + 1, before, text =>
    match text with
    | ']' :: rest => some (.list before.reverse, rest)
    | _ => do
      let (item, rest) ← readValue steps text
      match ← skipGap rest with
      | ',' :: more => readItems steps (item :: before) (← skipGap more)
      | ']' :: after => some (.list (item :: before).reverse, after)
      | _ => none

/-- The pairs of a table in braces from one on, with the table so far and what is frozen in it. -/
def readPairs : Nat → Table → List KeyPath → Chars → Option (Tree × Chars)
  | 0, _, _, _ => none
  | steps + 1, table, frozen, text => do
    let (path, value, rest) ← readPair steps text
    if isWithin frozen path then none
    else
      let table ← changeAt .refused (putNew (path.getLast?.getD "") value) path.dropLast table
      match skipSpaces rest with
      | '\x7d' :: after => some (.table table, after)
      | ',' :: more =>
        readPairs steps table (if isNested value then path :: frozen else frozen) (skipSpaces more)
      | _ => none

/-- A key and its value. -/
def readPair : Nat → Chars → Option (KeyPath × Tree × Chars)
  | 0, _ => none
  | steps + 1, text => do
    let (path, rest) ← readKey (text.length + 1) text
    match rest with
    | '=' :: more =>
      let (value, rest) ← readValue steps (skipSpaces more)
      some (path, value, rest)
    | _ => none

end

/-! ## Statements -/

/-- One statement of a settings file. -/
inductive Statement where
  /-- the header of a table -/
  | table (path : KeyPath)
  /-- the header of an element of a list of tables -/
  | element (path : KeyPath)
  /-- a pair in the table of the header before -/
  | pair (path : KeyPath) (value : Tree)

/-- The statement at the start of a text. -/
def readStatement (text : Chars) : Option (Statement × Chars) :=
  match text with
  | '[' :: '[' :: rest => do
    let (path, rest) ← readKey (rest.length + 1) (skipSpaces rest)
    match rest with
    | ']' :: ']' :: after => some (.element path, after)
    | _ => none
  | '[' :: rest => do
    let (path, rest) ← readKey (rest.length + 1) (skipSpaces rest)
    match rest with
    | ']' :: after => some (.table path, after)
    | _ => none
  | _ => do
    let (path, value, rest) ← readPair (2 * text.length + 2) text
    some (.pair path value, rest)

/-- The statements of a text, in at most so many lines. -/
def readStatements : Nat → Chars → Option (List Statement)
  | 0, _ => none
  | left + 1, text =>
    match skipSpaces text with
    | [] => some []
    | '\n' :: rest => readStatements left rest
    | '#' :: rest => do readStatements left (dropLineEnd (← skipComment ('#' :: rest)))
    | text => do
      let (statement, rest) ← readStatement text
      match ← skipComment (skipSpaces rest) with
      | [] => some [statement]
      | '\n' :: rest => do
        let others ← readStatements left rest
        some (statement :: others)
      | _ => none

/-! ## Putting statements together -/

/-- The settings so far: the table of the last header, and what may not be changed any more. -/
structure Draft where
  root : Table := []
  header : KeyPath := []
  /-- tables that have had their header or belong to an earlier section -/
  closed : List KeyPath := []
  /-- tables that dotted keys of this section have opened -/
  opened : List KeyPath := []
  /-- values that are fixed with all in them -/
  frozen : List KeyPath := []

/-- The draft at the end of a section. -/
def Draft.endSection (d : Draft) : Draft := { d with closed := d.opened ++ d.closed, opened := [] }

/-- The tables that a dotted key goes through, outermost first. -/
def tablesOnTheWay (header path : KeyPath) : List KeyPath :=
  (List.range (path.length - 1)).map fun i => header ++ path.take (i + 1)

/-- The draft after a statement. -/
def Draft.add (d : Draft) : Statement → Option Draft
  | .table path =>
    let d := d.endSection
    if d.closed.contains path || isWithin d.frozen path then none
    else do
      let root ← changeAt .allowed some path d.root
      some { d with root := root, header := path, closed := path :: d.closed }
  | .element path =>
    let d := d.endSection
    if isWithin d.frozen path then none
    else do
      let root ← changeAt .allowed (putElement (path.getLast?.getD "")) path.dropLast d.root
      let outside := fun (p : KeyPath) => !path.isPrefixOf p
      some { d with
        root := root, header := path, closed := path :: d.closed.filter outside,
        frozen := d.frozen.filter outside }
  | .pair path value =>
    let home := d.header ++ path.dropLast
    let way := tablesOnTheWay d.header path
    if way.any d.closed.contains || isWithin d.frozen home then none
    else do
      let root ← changeAt .allowed (putNew (path.getLast?.getD "") value) home d.root
      some { d with
        root := root, opened := way ++ d.opened,
        frozen := if isNested value then (d.header ++ path) :: d.frozen else d.frozen }

/-- The table that statements make. -/
def assemble (statements : List Statement) : Option Table :=
  (statements.foldlM Draft.add ({} : Draft)).map (·.root)

/-- The table that a text stands for. -/
def read? (text : String) : Option Table :=
  (readStatements (text.length + 1) text.toList).bind assemble

end DeployTrace.Toml
