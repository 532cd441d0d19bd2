/-
  DeployTrace/Format/Yaml/Value.lean --- reading YAML as data.

  WHAT THIS FILE IS FOR.  A plain scalar without a tag is what it looks like: nothing, a truth value, a
  number, or else a text.  Workflows use `on` and the like as names, so for them the words for truth
  values are texts.  Dates and times are texts as well.

  A later entry of a mapping replaces an earlier one of the same key; entries merged from other mappings
  come before its own.
-/
import DeployTrace.Format.Yaml.Node
import DeployTrace.Text.Pattern

set_option autoImplicit false

namespace DeployTrace.Yaml

open Text Pattern

/-! ## Plain scalars -/

/-- The words for a truth value, in the ways in which they may be written. -/
def truthWords : List (String × Bool) :=
  [("yes", true), ("Yes", true), ("YES", true), ("no", false), ("No", false), ("NO", false),
    ("true", true), ("True", true), ("TRUE", true), ("false", false), ("False", false), ("FALSE", false),
    ("on", true), ("On", true), ("ON", true), ("off", false), ("Off", false), ("OFF", false)]

/-- The words for nothing. -/
def nullWords : List String := ["", "~", "null", "Null", "NULL"]

/-- An optional sign. -/
def sign : Pattern := optional (oneOf [word "-", word "+"])

/-- Digits and underscores, starting with a digit. -/
def looseDigits : Pattern := both (char Char.isDigit) (span true (fun c => c.isDigit || c == '_'))

/-- Digits to base 60 after a colon, at least once. -/
def sixties : Pattern :=
  some1 (seq [word ":", optional (char fun c => '0' ≤ c && c ≤ '5'), char Char.isDigit])

/-- An exponent, whose sign cannot be left out. -/
def exponent : Pattern :=
  seq [char fun c => c == 'e' || c == 'E', oneOf [word "-", word "+"], span1 Char.isDigit]

/-- Digits and underscores after a point. -/
def looseFraction : Pattern := seq [word ".", span true (fun c => c.isDigit || c == '_')]

/-- A decimal fraction. -/
def fractionForm : Pattern :=
  seq [oneOf [seq [sign, looseDigits, looseFraction], seq [word ".", looseDigits]], optional exponent, textEnd]

/-- A fraction to base 60. -/
def sixtiesFractionForm : Pattern := seq [sign, looseDigits, sixties, looseFraction, textEnd]

/-- The values outside the finite numbers. -/
def infinityForm : Pattern := seq [sign, oneWordOf [".inf", ".Inf", ".INF"], textEnd]

/-- No number. -/
def nanForm : Pattern := seq [oneWordOf [".nan", ".NaN", ".NAN"], textEnd]

/-- An integer to base 2, whose digits are part 1. -/
def binaryForm : Pattern :=
  seq [sign, word "0b", mark 1 (span1 (fun c => c == '0' || c == '1' || c == '_')), textEnd]

/-- An integer to base 16, whose digits are part 1. -/
def hexForm : Pattern :=
  seq [sign, word "0x", mark 1 (span1 (fun c => (Json.hexValue? c).isSome || c == '_')), textEnd]

/-- An integer to base 8, whose digits are part 1. -/
def octalForm : Pattern :=
  seq [sign, word "0", mark 1 (span1 (fun c => ('0' ≤ c && c ≤ '7') || c == '_')), textEnd]

/-- An integer to base 10. -/
def decimalForm : Pattern :=
  seq [sign, oneOf [word "0", both (char fun c => '1' ≤ c && c ≤ '9')
    (span true (fun c => c.isDigit || c == '_'))], textEnd]

/-- An integer to base 60. -/
def sixtiesForm : Pattern :=
  seq [sign, char fun c => '1' ≤ c && c ≤ '9', span true (fun c => c.isDigit || c == '_'), sixties,
    textEnd]

/-- The text without underscores and sign, and whether the sign was a minus. -/
def unsigned (text : Chars) : Bool × Chars :=
  takeSign (text.filter (· != '_'))

/-- The value of digits to base 60 with colons between them, the last one maybe a fraction. -/
def sixtiesValue (text : Chars) : Option Binary64 :=
  let parts := (text.splitOn ':').map fun part => readFraction? (String.ofList part)
  let step (total : Option (Binary64 × Binary64)) (part : Option Binary64) : Option (Binary64 × Binary64) :=
    match total, part with
    | some (sum, base), some x => some (sum.add (x.mul base), base.mul (.ofInt 60))
    | _, _ => none
  (parts.reverse.foldl step (some (.finite false 0, .ofInt 1))).map (·.1)

/-- A fraction with a sign. -/
def signedFraction (negative : Bool) (x : Binary64) : Number :=
  .fraction (if negative then x.mul (.ofInt (-1)) else x)

/-- The fraction that a text stands for. -/
def fractionOf? (text : Chars) : Option Number :=
  let (negative, body) := unsigned text
  if (fractionForm.matchStart text).isSome then
    (readFraction? (String.ofList body)).map (signedFraction negative)
  else if (sixtiesFractionForm.matchStart text).isSome then
    (sixtiesValue body).map (signedFraction negative)
  else if (infinityForm.matchStart text).isSome then some (.fraction (.infinite negative))
  else if (nanForm.matchStart text).isSome then some (.fraction .nan)
  else none

/-- The value of digits to base 60 with colons between them. -/
def sixtiesInteger (text : Chars) : Nat :=
  (text.splitOn ':').foldl (fun n part => 60 * n + (part.filterMap Json.hexValue?).foldl (fun m d => 10 * m + d) 0) 0

/-- The integer that a text stands for. -/
def integerOf? (text : Chars) : Option Int :=
  let (negative, body) := unsigned text
  let based (base : Nat) (found : Match) : Option Int :=
    let digits := (found.part 1).filterMap Json.hexValue?
    some (signed negative (digits.foldl (fun n d => base * n + d) 0))
  match binaryForm.matchStart text, octalForm.matchStart text, hexForm.matchStart text with
  | some found, _, _ => based 2 found
  | _, some found, _ => based 8 found
  | _, _, some found => based 16 found
  | none, none, none =>
    if (decimalForm.matchStart text).isSome || (sixtiesForm.matchStart text).isSome then
      some (signed negative (sixtiesInteger body))
    else none

/-- Whether words for truth values are read as such. -/
inductive TruthWords where
  | asTruth
  | asText
  deriving DecidableEq, Repr

/-- What a plain scalar without a tag stands for. -/
def plainScalar (words : TruthWords) (text : String) : Scalar :=
  match if words == .asTruth then truthWords.lookup text else none with
  | some b => .bool b
  | none =>
    match fractionOf? text.toList with
    | some n => .number n
    | none =>
      match integerOf? text.toList with
      | some i => .number (.int i)
      | none => if nullWords.contains text then .null else .text text

/-! ## Nodes -/

/-- Whether a node is the key under which other mappings are merged. -/
def Node.isMerge : Node → Bool
  | .scalar tag text plain => (tag.isNone && plain && text == "<<") || tag == some (tagBase ++ "merge")
  | _ => false

/-- What a scalar with a tag stands for. -/
def taggedScalar (words : TruthWords) (tag : String) (text : String) (plain : Bool) : Option Scalar :=
  let kind := if startsWith tag tagBase then tag.toList.drop tagBase.length else []
  if tag == "!" then some (plainScalar words text)
  else if kind == "str".toList then some (.text text)
  else if kind == "null".toList then some .null
  else if kind == "bool".toList then (truthWords.lookup (lower text)).map .bool
  else if kind == "int".toList then (integerOf? text.toList).map fun i => .number (.int i)
  else if kind == "float".toList then
    ((fractionOf? text.toList).orElse fun _ => (readFraction? text).map .fraction).map .number
  else if kind == "timestamp".toList && plain then some (.text text)
  else none

/-- What a scalar stands for; the mark of a default value and of a merge stand for nothing. -/
def scalarValue (words : TruthWords) (tag : Option String) (text : String) (plain : Bool) : Option Scalar :=
  match tag with
  | some tag => taggedScalar words tag text plain
  | none =>
    if !plain then some (.text text)
    else if text == "=" || text == "<<" then none
    else some (plainScalar words text)

/-- What a key stands for; a node with parts is no key. -/
def keyValue (words : TruthWords) : Node → Option Scalar
  | .scalar tag text plain =>
    if tag.isNone && plain && text == "=" then some (.text text) else scalarValue words tag text plain
  | _ => none

/-- Whether a node with parts may have a tag. -/
def fitsTag (tag : Option String) (kind : String) : Bool :=
  match tag with
  | none => true
  | some t => t == "!" || t == tagBase ++ kind

/-- Entries of a table put one after the other. -/
def putAll (entries : List (Scalar × Tree)) : Table :=
  entries.foldl (fun table entry => Table.put table entry.1 entry.2) []

mutual

/-- The data a node stands for. -/
def Node.value (words : TruthWords) : Node → Option Tree
  | .scalar tag text plain => (scalarValue words tag text plain).map .leaf
  | .sequence tag items => if fitsTag tag "seq" then (itemValues words items).map .list else none
  | .mapping tag entries =>
    if fitsTag tag "map" then
      (entryValues words entries).map fun (merged, own) => .table (putAll (merged ++ own))
    else none

/-- The data that items stand for. -/
def itemValues (words : TruthWords) : List Node → Option (List Tree)
  | [] => some []
  | item :: rest => do
    let value ← item.value words
    let values ← itemValues words rest
    some (value :: values)

/-- The entries that are merged into a mapping, and its own ones. -/
def entryValues (words : TruthWords) :
    List (Node × Node) → Option (List (Scalar × Tree) × List (Scalar × Tree))
  | [] => some ([], [])
  | (key, value) :: rest => do
    let (merged, own) ← entryValues words rest
    if key.isMerge then
      let more ← mergedEntries words value
      some (more ++ merged, own)
    else
      let key ← keyValue words key
      let value ← value.value words
      some (merged, (key, value) :: own)

/-- The entries of a mapping that is merged, or of a sequence of such, the first of which counts most. -/
def mergedEntries (words : TruthWords) : Node → Option (List (Scalar × Tree))
  | .scalar _ _ _ => none
  | .mapping _ entries => (entryValues words entries).map fun (merged, own) => merged ++ own
  | .sequence _ items => sequenceEntries words items

/-- The entries of mappings that are merged, those of the last one first. -/
def sequenceEntries (words : TruthWords) : List Node → Option (List (Scalar × Tree))
  | [] => some []
  | .mapping _ entries :: rest => do
    let others ← sequenceEntries words rest
    let (merged, own) ← entryValues words entries
    some (others ++ (merged ++ own))
  | _ :: _ => none

end

/-- The data of a text; null for a text without a document. -/
def read? (words : TruthWords) (text : String) : Option Tree :=
  match Node.read? text with
  | none => none
  | some none => some .null
  | some (some node) => node.value words

end DeployTrace.Yaml
