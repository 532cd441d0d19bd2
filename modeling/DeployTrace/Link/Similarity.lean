/-
  DeployTrace/Link/Similarity.lean --- how alike two paths or two names are.

  WHAT THIS FILE IS FOR.  Likeness is a whole number from 0 to 100.  Paths are alike as far as their
  leading segments agree.  Names are alike when few edits turn one into the other, an edit being one
  character put in, taken out or replaced; a name that is part of the other counts 80.

  THE EDIT DISTANCE.  The distances from a beginning of one text to all beginnings of another form a row,
  the empty one first.  A row is filled from left to right out of the row for one character less, and
  only these two rows are kept; the longer text is the one that is gone through row by row.
-/
import DeployTrace.Number.Basic
import DeployTrace.Text.Casing
import DeployTrace.Text.Path
import DeployTrace.Detection.File

set_option autoImplicit false

namespace DeployTrace

open Text

/-- A part of a whole in percent, rounded. -/
def percentage (part whole : Nat) : Int := (((Number.int part).div (.int whole)).mul 100).round

/-! ## Paths -/

/-- A text in which slashes that follow a slash are left out. -/
def singleSlashes : Chars → Chars
  | [] => []
  | [c] => [c]
  | c :: d :: rest =>
    if c == '/' && d == '/' then singleSlashes (d :: rest) else c :: singleSlashes (d :: rest)

/-- The spelling under which paths are compared: with single slashes only, none of them at the end,
without a leading `./`, and in small letters. -/
def plainPath (path : String) : String :=
  let slashed := singleSlashes (path.toList.map fun c => if c == '\\' then '/' else c)
  lower (String.ofList (dropEndWhile (· == '/') (dropHere slashed)))

/-- The directory of a path, in the spelling for comparison. -/
def plainDirectory (path : String) : String := Path.directory (plainPath path)

/-- Whether a path is inside another one. -/
def isInside (inner outer : String) : Bool := startsWith inner (outer ++ "/")

/-- Whether two paths are related: equal, one inside the other, in one directory, or in directories one
of which is inside the other. -/
def pathsRelated (a b : String) : Bool :=
  let p := plainPath a
  let q := plainPath b
  if p.isEmpty || q.isEmpty then false
  else if p == q || isInside p q || isInside q p then true
  else
    let d := plainDirectory p
    let e := plainDirectory q
    !d.isEmpty && !e.isEmpty && (d == e || isInside d e || isInside e d)

/-- How many leading elements two lists share. -/
def sharedLead {α : Type} [BEq α] : List α → List α → Nat
  | x :: xs, y :: ys => if x == y then sharedLead xs ys + 1 else 0
  | _, _ => 0

/-- The segments of a path that are compared. -/
def plainSegments (path : String) : List String := (split '/' (plainPath path)).filter (!·.isEmpty)

/-- How alike two paths are: the part of the longer one that they have in common at the start. -/
def pathSimilarity (a b : String) : Int :=
  let s := plainSegments a
  let t := plainSegments b
  if s.isEmpty || t.isEmpty then 0 else percentage (sharedLead s t) (max s.length t.length)

/-! ## Edit distance -/

/-- The place of a row that is filled next: one edit more than above it or than left of it, or what the
place left above it costs with one character kept or replaced. -/
def editPlace (previous current : List Nat) (c d : Char) (j : Nat) : Nat :=
  min (min (previous.getD j 0 + 1) (current.getD (j - 1) 0 + 1))
    (previous.getD (j - 1) 0 + if c == d then 0 else 1)

/-- The row for a beginning that ends with `c` and has `i` characters, given the row for the beginning
without `c`. -/
def editRow (b : Chars) (previous : List Nat) (c : Char) (i : Nat) : List Nat :=
  (b.zipIdx 1).foldl (fun current place => current ++ [editPlace previous current c place.1 place.2]) [i]

/-- The row for the whole of a text: the distances from it to all beginnings of another one. -/
def editRows (a b : Chars) : List Nat :=
  (a.zipIdx 1).foldl (fun previous place => editRow b previous place.1 place.2) (List.range (b.length + 1))

/-- The least number of edits that turn one text into the other, read at the last place of the row for the
longer one. -/
def editDistance (a b : Chars) : Nat :=
  if a.length < b.length then (editRows b a).getLastD 0 else (editRows a b).getLastD 0

/-! ## Names -/

/-- The spelling under which names are compared: in small letters, without hyphens, underscores and
blanks. -/
def plainName (name : String) : Chars :=
  (lower name).toList.filter fun c => !(c == '-' || c == '_' || isBlank c)

/-- How alike two names are. -/
def nameSimilarity (a b : String) : Int :=
  let m := plainName a
  let n := plainName b
  if m.isEmpty || n.isEmpty then 0
  else if m == n then 100
  else if hasPart m n || hasPart n m then 80
  else
    let longest := max m.length n.length
    percentage (longest - editDistance m n) longest

end DeployTrace
