/-
  DeployTrace/Text/Pattern.lean --- patterns over text and their ordered matching.

  WHAT THIS FILE IS FOR.  Shell text is searched with patterns: sequences, choices, repetitions and
  marked parts.  A pattern may match in several ways; which one counts is part of its meaning.  A choice
  prefers its first side, a greedy repetition prefers one round more and a lazy one prefers to stop, and
  the first way that lets the REST of the pattern match is taken.

  HOW IT RUNS.  `Pattern.run` follows the pattern and is given what has to happen afterwards as a
  function of the place reached.  It is structural in the pattern; a repetition has at most as many
  rounds as there are characters left, because a round that reads nothing is not repeated.  A run of
  characters of one set, which is most repetitions, follows the text itself.
-/
import DeployTrace.Text.Word
import DeployTrace.Text.Cut
import DeployTrace.Text.Casing

set_option autoImplicit false

namespace DeployTrace.Text

/-! ## Patterns -/

/-- A pattern over characters. -/
inductive Pattern where
  /-- the empty text -/
  | nothing
  /-- one character of a set -/
  | char (accepts : Char → Bool)
  /-- characters of a set, as many as possible when greedy, as few when not -/
  | span (greedy : Bool) (accepts : Char → Bool)
  /-- one after the other -/
  | both (first second : Pattern)
  /-- the first, or else the second -/
  | either (first second : Pattern)
  /-- any number of rounds, as many as possible when greedy, as few when not -/
  | many (greedy : Bool) (body : Pattern)
  /-- a part whose text is remembered under a number -/
  | mark (number : Nat) (body : Pattern)
  /-- between a word character and something else -/
  | wordEdge
  /-- at the start of the text or of a line -/
  | lineStart
  /-- at the start of the text -/
  | textStart
  /-- at the end of the text, or before a line feed that ends it -/
  | textEnd

/-- A place in a text: how many characters stand before it, the last of them, the text after it, and the
parts remembered on the way, latest first. -/
structure Place where
  index : Nat
  before : Option Char
  rest : Chars
  marks : List (Nat × Chars)
  deriving DecidableEq, Repr

/-- The place one character further on. -/
def Place.advance (c : Char) (rest : Chars) (place : Place) : Place :=
  { place with index := place.index + 1, before := some c, rest := rest }

/-- The text between a place and a later one. -/
def Place.upTo (place later : Place) : Chars :=
  place.rest.take (later.index - place.index)

/-- Whether exactly one of the two neighbours of a place is a word character. -/
def Place.atWordEdge (place : Place) : Bool :=
  (place.before.map isWord).getD false != (place.rest.head?.map isWord).getD false

/-- Whether only a line feed, or nothing, is left. -/
def Place.atEnd (place : Place) : Bool :=
  match place.rest with
  | [] => true
  | [c] => c == '\n'
  | _ => false

/-- A run of characters of a set from a place, whose text is given as well. -/
def spanFrom {β : Type} (greedy : Bool) (accepts : Char → Bool) (next : Place → Option β) :
    Chars → Place → Option β
  | [], place => next place
  | c :: rest, place =>
    if greedy then
      match if accepts c then spanFrom greedy accepts next rest (place.advance c rest) else none with
      | some found => some found
      | none => next place
    else
      match next place with
      | some found => some found
      | none => if accepts c then spanFrom greedy accepts next rest (place.advance c rest) else none

/-- Rounds of `round` from a place: at most `rounds` of them, each reading something. -/
def rounds {β : Type} (greedy : Bool) (round : Place → (Place → Option β) → Option β) :
    Nat → Place → (Place → Option β) → Option β
  | 0, place, next => next place
  | left + 1, place, next =>
    if greedy then
      match round place fun later =>
        if place.index < later.index then rounds greedy round left later next else none with
      | some found => some found
      | none => next place
    else
      match next place with
      | some found => some found
      | none => round place fun later =>
        if place.index < later.index then rounds greedy round left later next else none

/-- The first way to match from a place after which `next` succeeds. -/
def Pattern.run {β : Type} : Pattern → Place → (Place → Option β) → Option β
  | .nothing, place, next => next place
  | .char accepts, place, next =>
    match place.rest with
    | [] => none
    | c :: rest => if accepts c then next (place.advance c rest) else none
  | .span greedy accepts, place, next => spanFrom greedy accepts next place.rest place
  | .both first second, place, next => first.run place fun later => second.run later next
  | .either first second, place, next =>
    match first.run place next with
    | some found => some found
    | none => second.run place next
  | .many greedy body, place, next =>
    rounds greedy (fun place next => body.run place next) place.rest.length place next
  | .mark number body, place, next =>
    body.run place fun later =>
      next { later with marks := (number, place.upTo later) :: later.marks }
  | .wordEdge, place, next => if place.atWordEdge then next place else none
  | .lineStart, place, next =>
    if place.before.isNone || place.before == some '\n' then next place else none
  | .textStart, place, next => if place.before.isNone then next place else none
  | .textEnd, place, next => if place.atEnd then next place else none

/-! ## Matches -/

/-- A match: how many characters stand before it, its text, and the parts remembered in it. -/
structure Match where
  skipped : Nat
  whole : Chars
  marks : List (Nat × Chars)
  deriving DecidableEq, Repr

/-- The text of a marked part; a part that took no turn has none. -/
def Match.part? (m : Match) (number : Nat) : Option Chars := m.marks.lookup number

/-- The text of a marked part, empty when the part took no turn. -/
def Match.part (m : Match) (number : Nat) : Chars := (m.part? number).getD []

/-- The match at one place, if there is one. -/
def Pattern.matchAt (p : Pattern) (skipped : Nat) (before : Option Char) (rest : Chars) :
    Option Match :=
  let place : Place := { index := skipped, before := before, rest := rest, marks := [] }
  p.run place fun later =>
    some { skipped := skipped, whole := place.upTo later, marks := later.marks }

/-- The match at the start of the text. -/
def Pattern.matchStart (p : Pattern) (text : Chars) : Option Match := p.matchAt 0 none text

/-- The first match from a place on. -/
def Pattern.searchFrom (p : Pattern) (skipped : Nat) (before : Option Char) : Chars → Option Match
  | [] => p.matchAt skipped before []
  | c :: rest =>
    match p.matchAt skipped before (c :: rest) with
    | some found => some found
    | none => p.searchFrom (skipped + 1) (some c) rest

/-- The first match in a text. -/
def Pattern.search (p : Pattern) (text : Chars) : Option Match := p.searchFrom 0 none text

/-- Whether the pattern matches anywhere in a text. -/
def Pattern.occursIn (p : Pattern) (text : Chars) : Bool := (p.search text).isSome

/-- The matches from a place on that do not overlap, after passing over `skip` characters that belong
to the match before. -/
def Pattern.findFrom (p : Pattern) : Nat → Nat → Option Char → Chars → List Match
  | _, _, _, [] => []
  | skip + 1, position, _, c :: rest => p.findFrom skip (position + 1) (some c) rest
  | 0, position, before, c :: rest =>
    match p.matchAt position before (c :: rest) with
    | some found =>
      found :: p.findFrom (found.whole.length - 1) (position + 1) (some c) rest
    | none => p.findFrom 0 (position + 1) (some c) rest

/-- All matches in a text, from left to right, none overlapping the one before. -/
def Pattern.findAll (p : Pattern) (text : Chars) : List Match := p.findFrom 0 0 none text

/-- The text with every match replaced by `new`, after passing over `skip` characters. -/
def Pattern.replaceFrom (p : Pattern) (new : Chars) : Nat → Option Char → Chars → Chars
  | _, _, [] => []
  | skip + 1, _, c :: rest => p.replaceFrom new skip (some c) rest
  | 0, before, c :: rest =>
    match p.matchAt 0 before (c :: rest) with
    | some found =>
      if found.whole.isEmpty then c :: p.replaceFrom new 0 (some c) rest
      else new ++ p.replaceFrom new (found.whole.length - 1) (some c) rest
    | none => c :: p.replaceFrom new 0 (some c) rest

/-- The text with every match replaced by `new`. -/
def Pattern.replaceAll (p : Pattern) (new : Chars) (text : Chars) : Chars :=
  p.replaceFrom new 0 none text

/-! ## Building patterns -/

namespace Pattern

/-- One pattern after the other. -/
def seq : List Pattern → Pattern
  | [] => nothing
  | [p] => p
  | p :: rest => both p (seq rest)

/-- The first of the patterns that leads to a match. -/
def oneOf : List Pattern → Pattern
  | [] => char fun _ => false
  | [p] => p
  | p :: rest => either p (oneOf rest)

/-- Exactly these characters. -/
def exactly (text : Chars) : Pattern := seq (text.map fun c => char (· == c))

/-- Exactly this text. -/
def word (text : String) : Pattern := exactly text.toList

/-- This text in small letters, matched without regard to case. -/
def wordIgnoringCase (text : String) : Pattern :=
  seq (text.toList.map fun c => char (matchesIgnoringCase c))

/-- One of these texts, the first that leads to a match. -/
def oneWordOf (texts : List String) : Pattern := oneOf (texts.map word)

/-- A pattern or nothing, preferring the pattern. -/
def optional (p : Pattern) : Pattern := either p nothing

/-- One round or more, as many as possible. -/
def some1 (p : Pattern) : Pattern := both p (many true p)

/-- Characters of a set, at least one and as many as possible. -/
def span1 (accepts : Char → Bool) : Pattern := both (char accepts) (span true accepts)

/-- Whether a character does not end the line for a pattern: anything but a line feed. -/
def isInLine (c : Char) : Bool := c != '\n'

/-- The rest of the line, as far as the pattern after it allows. -/
def line : Pattern := span true isInLine

/-- As little of the line as the pattern after it allows. -/
def shortLine : Pattern := span false isInLine

/-- One blank. -/
def blank : Pattern := char isBlank

/-- Blanks, or none. -/
def blanks : Pattern := span true isBlank

/-- Blanks, at least one. -/
def blanks1 : Pattern := span1 isBlank

/-- Characters outside a set, at least one. -/
def noneOf1 (set : Chars) : Pattern := span1 fun c => !set.contains c

/-- Characters that are neither blank nor in a set, at least one. -/
def solid1 (set : Chars) : Pattern := span1 fun c => !isBlank c && !set.contains c

end Pattern

end DeployTrace.Text
