/-
  DeployTrace/Text/Cut.lean --- taking texts apart.

  Texts are cut as lists of characters, which is what proofs can follow; the functions on strings below
  are those functions behind one conversion.
-/
import DeployTrace.Text.Blank

set_option autoImplicit false

namespace DeployTrace.Text

/-- A text as its characters. -/
abbrev Chars : Type := List Char

/-! ## Parts -/

/-- Whether `part` stands somewhere in the text, without a gap. -/
def hasPart (part : Chars) : Chars → Bool
  | [] => part.isEmpty
  | c :: rest => part.isPrefixOf (c :: rest) || hasPart part rest

theorem hasPart_iff (part text : Chars) : hasPart part text = true ↔ part <:+: text := by
  induction text with
  | nil => simp [hasPart]
  | cons c rest ih => simp [hasPart, List.infix_cons_iff, ih]

/-- Whether `part` stands somewhere in `text`. -/
def contains (text part : String) : Bool := hasPart part.toList text.toList

/-- Whether `text` starts with `start`. -/
def startsWith (text start : String) : Bool := start.toList.isPrefixOf text.toList

/-- Whether `text` ends with `tail`. -/
def endsWith (text tail : String) : Bool := tail.toList.isSuffixOf text.toList

/-! ## Ends -/

/-- The text without the characters at its end that satisfy `p`. -/
def dropEndWhile (p : Char → Bool) (text : Chars) : Chars := (text.reverse.dropWhile p).reverse

/-- The text without the characters at both ends that satisfy `p`. -/
def stripWhile (p : Char → Bool) (text : Chars) : Chars := dropEndWhile p (text.dropWhile p)

/-- The text without blanks at its ends. -/
def stripChars (text : Chars) : Chars := stripWhile isBlank text

/-- The text without blanks at its ends. -/
def strip (text : String) : String := String.ofList (stripChars text.toList)

/-- The text without the characters of `set` at its ends. -/
def stripOf (set : Chars) (text : String) : String :=
  String.ofList (stripWhile (set.contains ·) text.toList)

/-- A text in single or double quotes loses them; a lone quote is no pair. -/
def unquoteChars (text : Chars) : Chars :=
  match text with
  | q :: c :: rest =>
    if (q == '\x27' || q == '\x22') && (c :: rest).getLast? == some q then (c :: rest).dropLast
    else text
  | _ => text

/-! ## Pieces -/

/-- The pieces between occurrences of `sep`; there is always one more piece than there are separators. -/
def split (sep : Char) (text : String) : List String := (text.toList.splitOn sep).map String.ofList

/-- The text up to the first `sep` and the text after it. -/
def cutAt (sep : Char) : Chars → Option (Chars × Chars)
  | [] => none
  | c :: rest => if c == sep then some ([], rest) else (cutAt sep rest).map fun (a, b) => (c :: a, b)

theorem cutAt_eq_some {sep : Char} {text a b : Chars} (h : cutAt sep text = some (a, b)) :
    text = a ++ sep :: b ∧ sep ∉ a := by
  induction text generalizing a b with
  | nil => simp [cutAt] at h
  | cons c rest ih =>
    simp only [cutAt] at h
    split at h
    · rename_i hc
      simp only [Option.some.injEq, Prod.mk.injEq] at h
      obtain ⟨rfl, rfl⟩ := h
      simp_all
    · rename_i hc
      simp only [Option.map_eq_some_iff] at h
      obtain ⟨⟨a', b'⟩, h', he⟩ := h
      simp only [Prod.mk.injEq] at he
      obtain ⟨rfl, rfl⟩ := he
      obtain ⟨rfl, hn⟩ := ih h'
      refine ⟨rfl, ?_⟩
      simp only [List.mem_cons, not_or]
      exact ⟨fun e => hc (by simp [e]), hn⟩

theorem cutAt_append_cons {sep : Char} {a : Chars} (ha : sep ∉ a) (b : Chars) :
    cutAt sep (a ++ sep :: b) = some (a, b) := by
  induction a with
  | nil => simp [cutAt]
  | cons c rest ih =>
    simp only [List.mem_cons, not_or] at ha
    simp [cutAt, Ne.symm ha.1, ih ha.2]

/-- The lines of a text, with `current` the line being read, last character first.  A line end at the
very end opens no further line. -/
def linesAfter : Chars → Chars → List Chars
  | current, [] => if current.isEmpty then [] else [current.reverse]
  | current, '\r' :: '\n' :: rest => current.reverse :: linesAfter [] rest
  | current, c :: rest =>
    if isLineEnd c then current.reverse :: linesAfter [] rest else linesAfter (c :: current) rest

/-- The lines of a text without their ends. -/
def lines (text : String) : List String := (linesAfter [] text.toList).map String.ofList

/-- Every occurrence of one character replaced by another. -/
def replaceChar (old new : Char) (text : String) : String :=
  String.ofList (text.toList.map fun c => if c == old then new else c)

/-! ## Padding -/

/-- `count` copies of a character. -/
def copies (count : Nat) (c : Char) : String := String.ofList (List.replicate count c)

end DeployTrace.Text
