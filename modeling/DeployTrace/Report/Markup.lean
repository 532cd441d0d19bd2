/-
  DeployTrace/Report/Markup.lean --- text with tags for its looks.

  WHAT THIS FILE IS FOR.  The report is written with tags in brackets, `[bold]` and `[/bold]`, which a
  terminal shows as looks and which leave nothing behind in plain text.  Texts from a workflow may hold
  brackets of their own, so they are escaped before they are put between tags.

  BACKSLASHES.  A backslash before a tag makes it text, and two of them are one backslash before a tag
  that still counts.  Elsewhere a backslash is a backslash.
-/
import DeployTrace.Text.Casing
import DeployTrace.Text.Cut

set_option autoImplicit false

namespace DeployTrace.Report

open Text

namespace Markup

/-! ## Pieces -/

/-- A character with which a tag starts. -/
def isTagStart (c : Char) : Bool := ('a' ≤ c && c ≤ 'z') || c == '#' || c == '/' || c == '@'

/-- The name of the tag at the start of a text. -/
def tagName? : Chars → Option Chars
  | '[' :: c :: rest =>
    let inner := rest.takeWhile fun d => d != '[' && d != ']'
    if isTagStart c && (rest.drop inner.length).head? == some ']' then some (c :: inner) else none
  | _ => none

/-- A part of a text with tags. -/
inductive Piece where
  /-- text between tags -/
  | text (chars : Chars)
  /-- a tag and the number of backslashes before it -/
  | tag (slashes : Nat) (name : Chars)
  deriving DecidableEq, Repr

/-- A piece of text in front of others, unless it is empty. -/
def withText (chars : Chars) (more : List Piece) : List Piece :=
  if chars.isEmpty then more else .text chars :: more

/-- The pieces of a text, where `before` is the text since the last tag, last character first,
`slashes` the number of backslashes after it, and `inside` the number of characters up to the end of a
tag. -/
def piecesAfter (before : Chars) (slashes inside : Nat) : Chars → List Piece
  | [] => withText (before.reverse ++ List.replicate slashes '\\') []
  | c :: rest =>
    if 0 < inside then piecesAfter before slashes (inside - 1) rest
    else match tagName? (c :: rest) with
      | some name => withText before.reverse (.tag slashes name :: piecesAfter [] 0 (name.length + 1) rest)
      | none =>
        if c == '\\' then piecesAfter before (slashes + 1) 0 rest
        else piecesAfter (c :: (List.replicate slashes '\\' ++ before)) 0 0 rest

/-- The pieces of a text. -/
def pieces (text : Chars) : List Piece := piecesAfter [] 0 0 text

/-! ## Escaping -/

/-- A piece written so that it stays text. -/
def Piece.escaped : Piece → Chars
  | .text chars => chars
  | .tag slashes name => List.replicate (2 * slashes + 1) '\\' ++ '[' :: name ++ [']']

/-- A text written so that it has no tags; a single backslash at its end is doubled, because a tag may
follow. -/
def escape (text : String) : String :=
  let body := (pieces text.toList).flatMap Piece.escaped
  match body.reverse with
  | '\\' :: '\\' :: _ => String.ofList body
  | '\\' :: _ => String.ofList (body ++ ['\\'])
  | _ => String.ofList body

/-! ## Plain text -/

/-- Characters that move the place of writing and are not shown. -/
def isControl (c : Char) : Bool := [7, 8, 11, 12, 13].contains c.toNat

/-- Text between tags, in which a backslash before a bracket is dropped. -/
def plainText : Chars → Chars
  | '\\' :: '[' :: rest => '[' :: plainText rest
  | c :: rest => if isControl c then plainText rest else c :: plainText rest
  | [] => []

/-- What a tag is called: its text up to an equals sign. -/
def styleName (name : Chars) : String :=
  lower (String.ofList (stripChars (name.takeWhile (· != '='))))

/-- The opened tags after a tag, the last opened first; nothing if a tag is closed that is not open. -/
def turn? (opened : List String) : Chars → Option (List String)
  | '/' :: name =>
    let closed := styleName name
    if closed.isEmpty then opened.tail?
    else if opened.contains closed then some (opened.erase closed) else none
  | name => some (styleName name :: opened)

/-- The text of pieces without their tags. -/
def plainPieces? : List String → List Piece → Option Chars
  | _, [] => some []
  | opened, .text chars :: rest => (plainPieces? opened rest).map (plainText chars ++ ·)
  | opened, .tag slashes name :: rest =>
    let front := List.replicate (slashes / 2) '\\'
    if slashes % 2 == 1 then
      (plainPieces? opened rest).map (front ++ plainText ('[' :: name ++ [']']) ++ ·)
    else (turn? opened name).bind fun opened => (plainPieces? opened rest).map (front ++ ·)

/-- The text without its tags; nothing if a tag is closed that is not open. -/
def plain? (text : String) : Option Chars := plainPieces? [] (pieces text.toList)

end Markup

end DeployTrace.Report
