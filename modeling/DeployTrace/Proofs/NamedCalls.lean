/-
  DeployTrace/Proofs/NamedCalls.lean --- scripts of calls that each name an output.

  WHAT THIS FILE IS FOR.  From a script whose lines each hold one call, bare or as the value of an
  assignment, the outputs are read exactly: every one in the order of the lines, without repetition.
  The outputs, directories, state files and variables may themselves be called `terraform` or `output`.

  HOW IT IS PROVED.  The search for bare calls goes over the script from call to call: before each of
  them it refuses everywhere, and then it takes the whole call (`findBetween_line`).  Of the other two
  searches it is only shown that they find no further names (`mem_outputs_of_found`).  For that the
  script is taken as a list of words, each with one blank or line end after it.  A call that they find
  has the word `output` in it, and a line has two such words at most: its subcommand, after which the
  name is that of the line, and the name of a bare call, after which the next line starts, where no
  substitution can end.
-/
import DeployTrace.Proofs.CallLines

set_option autoImplicit false

namespace DeployTrace

open Text Pattern Shell.Terraform

/-! ## Words with one blank after each -/

/-- Words, each with the blank after it. -/
def blanked (words : List (Chars × Char)) : Chars := words.flatMap fun w => w.1 ++ [w.2]

/-- The words hold no blanks, and what stands after them is one. -/
def AreWords (words : List (Chars × Char)) : Prop := ∀ w ∈ words, IsSolid w.1 ∧ isBlank w.2 = true

section

variable {words later : List (Chars × Char)} {w v gap x front : Chars} {b d : Char}

theorem blanked_cons (w : Chars × Char) (words : List (Chars × Char)) :
    blanked (w :: words) = w.1 ++ w.2 :: blanked words := by
  simp [blanked]

theorem blanked_append (words later : List (Chars × Char)) :
    blanked (words ++ later) = blanked words ++ blanked later :=
  List.flatMap_append

theorem AreWords.of_suffix (h : AreWords words) (hlater : later <:+ words) : AreWords later :=
  fun w hw => h w (hlater.mem hw)

theorem head?_blanked (h : AreWords words) : ∀ c ∈ (blanked words).head?, isBlank c = false := by
  cases words with
  | nil => exact fun c hc => absurd hc (by simp [blanked])
  | cons w words =>
      obtain ⟨⟨hsolid, -⟩, -⟩ := List.forall_mem_cons.mp h
      obtain ⟨first, more, hw⟩ := List.exists_cons_of_ne_nil hsolid.ne_nil
      intro c hc
      rw [blanked_cons, hw] at hc
      cases hc
      exact hsolid.solid _ (by rw [hw]; exact List.mem_cons_self)

/-- After a blank a word starts. -/
theorem exists_suffix_of_blank (h : AreWords words) (hb : isBlank b = true)
    (htext : blanked words = front ++ b :: x) : ∃ later, later <:+ words ∧ x = blanked later := by
  induction words generalizing front with
  | nil => simp [blanked] at htext
  | cons w words ih =>
      obtain ⟨⟨hsolid, -⟩, hwords⟩ := List.forall_mem_cons.mp h
      have further : ∀ {front : Chars}, blanked words = front ++ b :: x →
          ∃ later, later <:+ w :: words ∧ x = blanked later := by
        intro front hfront
        obtain ⟨later, hlater, hx⟩ := ih hwords hfront
        exact ⟨later, hlater.trans (List.suffix_cons w words), hx⟩
      rw [blanked_cons] at htext
      rcases List.append_eq_append_iff.mp htext with ⟨tail, rfl, htail⟩ | ⟨tail, hw, htail⟩
      · cases tail with
        | nil =>
            obtain ⟨-, rfl⟩ := List.cons.inj htail
            exact ⟨words, List.suffix_cons w words, rfl⟩
        | cons c tail =>
            obtain ⟨-, hmore⟩ := List.cons.inj htail
            exact further hmore
      · cases tail with
        | nil =>
            obtain ⟨-, rfl⟩ := List.cons.inj htail
            exact ⟨words, List.suffix_cons w words, rfl⟩
        | cons c tail =>
            obtain ⟨rfl, -⟩ := List.cons.inj htail
            have hsolidBlank : isBlank b = false := hsolid.solid b (by rw [hw]; simp)
            rw [hb] at hsolidBlank
            cases hsolidBlank

/-- Where words start with a text that has no blanks and a gap, the text is the first of them. -/
theorem exists_cons_of_gap (h : AreWords words) (hv : ∀ c ∈ v, isBlank c = false) (hgap : IsGap gap)
    (htext : blanked words = v ++ (gap ++ x)) :
    ∃ d later, words = (v, d) :: later ∧ x = blanked later := by
  cases words with
  | nil =>
      obtain ⟨-, hnil⟩ := List.append_eq_nil_iff.mp htext.symm
      exact absurd (List.append_eq_nil_iff.mp hnil).1 hgap.1
  | cons w words =>
      obtain ⟨⟨hsolid, hblank⟩, hwords⟩ := List.forall_mem_cons.mp h
      rw [blanked_cons] at htext
      obtain ⟨rfl, hx⟩ := eq_of_gap_eq_cons hv hsolid.solid hgap (head?_blanked hwords) hblank htext.symm
      exact ⟨w.2, words, rfl, hx⟩

end

/-! ## Calls and scripts -/

/-- A flag of a call. -/
inductive OutputFlag where
  | raw
  | json
  | noColor
  | state (path : String) (path_ne : path ≠ "") (path_solid : ∀ c ∈ path.toList, isBlank c = false)

/-- The word of a flag. -/
def OutputFlag.text : OutputFlag → Chars
  | raw => "-raw".toList
  | json => "-json".toList
  | noColor => "-no-color".toList
  | state path _ _ => "-state=".toList ++ path.toList

/-- How a call stands on its line. -/
inductive CallForm where
  | bare
  | substituted (assigned : String)
  | graveQuoted (assigned : String)

namespace CallForm

/-- The variable to which the output is assigned. -/
def assigned : CallForm → String
  | bare => ""
  | substituted assigned => assigned
  | graveQuoted assigned => assigned

/-- What stands before the call. -/
def opening : CallForm → Chars
  | bare => []
  | substituted assigned => assigned.toList ++ "=$(".toList
  | graveQuoted assigned => assigned.toList ++ ['=', Shell.graveAccent]

/-- What stands after it. -/
def closing : CallForm → Chars
  | bare => []
  | substituted _ => [')']
  | graveQuoted _ => [Shell.graveAccent]

end CallForm

/-- Characters that end a name: blanks, an equals sign, and what closes a substitution. -/
def endsName (c : Char) : Bool := isBlank c || ['=', ')', Shell.graveAccent].contains c

/-- The characters of a variable: all of an identifier are among them, in whatever script. -/
def isVariableChar (c : Char) : Bool := !endsName c && c != '-'

/-- A call that names an output, on a line of its own. -/
structure NamedCall where
  directory : Option String
  flags : List OutputFlag
  output : String
  form : CallForm
  directory_fits : ∀ d ∈ directory, d ≠ "" ∧ ∀ c ∈ d.toList, isBlank c = false
  output_identifier : ∃ c rest, output.toList = c :: rest ∧ isIdentifierStart c = true ∧
    ∀ d ∈ rest, isIdentifierChar d = true
  assigned_chars : ∀ c ∈ form.assigned.toList, isVariableChar c = true

namespace NamedCall

variable (c : NamedCall)

/-- The option before the subcommand, with the blank after it. -/
def option : Chars :=
  match c.directory with
  | none => []
  | some directory => "-chdir=".toList ++ directory.toList ++ [' ']

/-- The flags, with the blank after each. -/
def flagsText : Chars := c.flags.flatMap fun flag => flag.text ++ [' ']

/-- The call. -/
def call : Chars :=
  "terraform ".toList ++ (c.option ++ ("output ".toList ++ (c.flagsText ++ c.output.toList)))

/-- The line. -/
def line : Chars := c.form.opening ++ (c.call ++ c.form.closing)

end NamedCall

/-- The lines one after the other. -/
def script (calls : List NamedCall) : Chars := ['\n'].intercalate (calls.map NamedCall.line)

/-! ### Their pieces -/

namespace OutputFlag

variable (flag : OutputFlag)

/-- The text of a flag after the dash. -/
theorem reads_tail : ∃ tail, flag.text = '-' :: tail ∧ (oneOf outputFlags).Reads tail [] := by
  have choice : ∀ {p : Pattern} {tail : Chars}, p ∈ outputFlags → p.Reads tail [] →
      (oneOf outputFlags).Reads tail [] := fun hp hreads => reads_oneOf.mpr ⟨_, hp, hreads⟩
  cases flag with
  | raw => exact ⟨_, rfl, choice (p := word "raw") (by simp [outputFlags]) (reads_word.mpr ⟨rfl, rfl⟩)⟩
  | json => exact ⟨_, rfl, choice (p := word "json") (by simp [outputFlags]) (reads_word.mpr ⟨rfl, rfl⟩)⟩
  | noColor =>
      exact ⟨_, rfl, choice (p := word "no-color") (by simp [outputFlags]) (reads_word.mpr ⟨rfl, rfl⟩)⟩
  | state path path_ne path_solid =>
      refine ⟨"state=".toList ++ path.toList, rfl, choice (p := both (word "state=") (solid1 []))
        (by simp [outputFlags]) ?_⟩
      have hpath : (solid1 []).Reads path.toList [] :=
        reads_span1.mpr ⟨by simpa using path_ne, fun c hc => by simp [path_solid c hc], rfl⟩
      exact ⟨_, _, [], [], reads_word.mpr ⟨rfl, rfl⟩, hpath, rfl, rfl⟩

theorem isSolid_text : IsSolid flag.text := by
  cases flag with
  | raw => exact isSolid_of_any (by decide) (by decide)
  | json => exact isSolid_of_any (by decide) (by decide)
  | noColor => exact isSolid_of_any (by decide) (by decide)
  | state path path_ne path_solid =>
      refine ⟨List.append_ne_nil_of_right_ne_nil _ (by simpa using path_ne), fun c hc => ?_⟩
      rcases List.mem_append.mp hc with hc | hc
      · exact eq_false_of_any (by decide : "-state=".toList.any isBlank = false) c hc
      · exact path_solid c hc

end OutputFlag

theorem endsName_eq_false_of_isVariableChar {c : Char} (h : isVariableChar c = true) :
    endsName c = false := by
  simp only [isVariableChar, Bool.and_eq_true, Bool.not_eq_true'] at h
  exact h.1

theorem isBlank_eq_false_of_isVariableChar {c : Char} (h : isVariableChar c = true) :
    isBlank c = false :=
  (Bool.or_eq_false_iff.mp (endsName_eq_false_of_isVariableChar h)).1

theorem endsName_eq_false_of_isIdentifierChar {c : Char} (h : isIdentifierChar c = true) :
    endsName c = false := by
  refine Bool.or_eq_false_iff.mpr ⟨isBlank_eq_false_of_isIdentifierChar h, ?_⟩
  have outside : ∀ d ∈ ['=', ')', Shell.graveAccent], isIdentifierChar d = false :=
    eq_false_of_any (by decide)
  rw [List.contains_eq_mem, decide_eq_false_iff_not]
  intro hmem
  rw [outside c hmem] at h
  cases h

namespace NamedCall

variable (c : NamedCall)

/-- The pieces of the call. -/
def pieces : CallPieces where
  gap := [' ']
  option := c.option
  gapAfter := [' ']
  flags := c.flagsText
  name := c.output.toList

theorem call_eq : c.call = "terraform".toList ++ c.pieces.tail := by
  have htool : "terraform ".toList = "terraform".toList ++ [' '] := by decide
  have hverb : "output ".toList = "output".toList ++ [' '] := by decide
  unfold call
  rw [htool, hverb, List.append_assoc, List.append_assoc]
  rfl

theorem pieces_fit : c.pieces.Fit outputFlags where
  gap := isGap_blank
  gapAfter := isGap_blank
  option := by
    change globalOption.Reads c.option []
    have hfits := c.directory_fits
    unfold option
    split
    · exact reads_optional.mpr (Or.inr ⟨rfl, rfl⟩)
    · rename_i directory hdirectory
      obtain ⟨hne, hsolid⟩ := hfits directory hdirectory
      have hdirectory : (solid1 []).Reads directory.toList [] :=
        reads_span1.mpr ⟨by simpa using hne, fun d hd => by simp [hsolid d hd], rfl⟩
      have hgap : (seq [blanks1]).Reads [' '] [] := reads_blanks1.mpr ⟨isGap_blank, rfl⟩
      refine reads_optional.mpr (Or.inl (reads_seq_word.mpr ⟨directory.toList ++ [' '], ?_, by simp⟩))
      exact (reads_seq_of_unmarked (by rfl)).mpr ⟨_, _, hdirectory, hgap, rfl⟩
  flags := by
    refine ⟨c.flags.map fun flag => (flag.text ++ [' '], []), ?_, ?_, ?_⟩
    · intro round hround
      obtain ⟨flag, -, rfl⟩ := List.mem_map.mp hround
      obtain ⟨tail, htext, htail⟩ := flag.reads_tail
      have hgap : (seq [blanks1]).Reads [' '] [] := reads_blanks1.mpr ⟨isGap_blank, rfl⟩
      refine ⟨by simp, reads_seq_word.mpr ⟨tail ++ [' '], ?_, by rw [htext]; rfl⟩⟩
      exact (reads_seq_of_unmarked (by rfl)).mpr ⟨_, _, htail, hgap, rfl⟩
    · rw [List.map_map]
      rfl
    · simp
  name := by
    obtain ⟨first, rest, houtput, hfirst, hrest⟩ := c.output_identifier
    exact ⟨[first], rest, [], [], ⟨first, hfirst, rfl, rfl⟩, ⟨hrest, rfl⟩, houtput, rfl⟩

/-- Before a call stands nothing, or a variable, an equals sign, and what opens the substitution. -/
theorem opening_cases : c.form.opening = [] ∨ ∃ mark, (∀ d ∈ mark, isBlank d = false) ∧
    c.form.opening = c.form.assigned.toList ++ '=' :: mark := by
  cases c.form with
  | bare => exact Or.inl rfl
  | substituted assigned => exact Or.inr ⟨"$(".toList, eq_false_of_any (by decide), rfl⟩
  | graveQuoted assigned => exact Or.inr ⟨[Shell.graveAccent], eq_false_of_any (by decide), rfl⟩

theorem isSolid_opening (d : Char) (hd : d ∈ c.form.opening) : isBlank d = false := by
  rcases c.opening_cases with hopening | ⟨mark, hmark, hopening⟩
  · simp [hopening] at hd
  · rw [hopening] at hd
    rcases List.mem_append.mp hd with hd | hd
    · exact isBlank_eq_false_of_isVariableChar (c.assigned_chars d hd)
    · rcases List.mem_cons.mp hd with rfl | hd
      · decide
      · exact hmark d hd

/-- What closes a call is no character of a name and no blank, and no call starts with it. -/
theorem closing_chars (d : Char) (hd : d ∈ c.form.closing) :
    isIdentifierChar d = false ∧ isBlank d = false ∧ d ≠ 't' := by
  unfold CallForm.closing at hd
  cases hform : c.form with
  | bare => simp [hform] at hd
  | substituted assigned =>
      simp only [hform, List.mem_singleton] at hd
      rw [hd]
      decide
  | graveQuoted assigned =>
      simp only [hform, List.mem_singleton] at hd
      rw [hd]
      decide

end NamedCall

/-! ## Bare calls -/

section

variable {text rest before : Chars}

/-- A call starts with its tool. -/
theorem refuses_outputCall (h : text.head? ≠ some 't') : outputCall.Refuses text := by
  have hstart : ∀ read parts, outputCall.Reads read parts → "terraform".toList <+: read := by
    intro read parts hreads
    obtain ⟨c, -, rfl, -⟩ := reads_outputCall.mp hreads
    exact List.prefix_append _ _
  exact refuses_of_prefix hstart (Shell.not_prefix_of_head (d := 't') (by decide) h)

/-- Where a longer word ends in the tool, no call starts. -/
theorem refuses_outputCall_of_word {front : Chars} (hne : front ≠ [])
    (hfront : ∀ d ∈ front, isBlank d = false) :
    outputCall.Refuses (front ++ ("terraform".toList ++ ' ' :: rest)) := by
  rintro read parts hreads ⟨after, hafter⟩
  obtain ⟨c, fit, rfl, -⟩ := reads_outputCall.mp hreads
  obtain ⟨b, more, hgap⟩ := List.exists_cons_of_ne_nil fit.gap.1
  have htool : ∀ d ∈ "terraform".toList, isBlank d = false := eq_false_of_any (by decide)
  have hword : ∀ d ∈ front ++ "terraform".toList, isBlank d = false := by
    intro d hd
    exact (List.mem_append.mp hd).elim (hfront d) (htool d)
  have hb : isBlank b = true := fit.gap.2 b (by rw [hgap]; exact List.mem_cons_self)
  rw [CallPieces.tail, hgap, List.append_assoc, List.cons_append, List.cons_append, ← List.append_assoc front]
    at hafter
  obtain ⟨hsame, -, -⟩ := eq_of_append_cons_eq htool hword hb (by decide) hafter
  have hlength := congrArg List.length hsame
  have hpos : 0 < front.length := List.length_pos_iff.mpr hne
  rw [List.length_append] at hlength
  omega

/-- The search for bare calls goes over a line and finds its output. -/
theorem findBetween_line (c : NamedCall) (hrest : ∀ d ∈ rest.head?, isIdentifierChar d = false)
    (before : Chars) :
    (outputCall.findBetween before (c.line ++ rest)).map Match.marks =
      [(1, c.output.toList)] :: (outputCall.findBetween (before ++ c.line) rest).map Match.marks := by
  have htail : c.pieces.tail =
      ' ' :: (c.option ++ ("output".toList ++ (' ' :: (c.flagsText ++ c.output.toList)))) := rfl
  have hclosing : ∀ d ∈ (c.form.closing ++ rest).head?, isIdentifierChar d = false := by
    intro d hd
    cases hform : c.form.closing with
    | nil =>
        rw [hform] at hd
        exact hrest d hd
    | cons e more =>
        rw [hform] at hd
        cases hd
        exact (c.closing_chars d (by rw [hform]; exact List.mem_cons_self)).1
  have hopeningRefuses : ∀ a b, c.form.opening = a ++ b → b ≠ [] →
      outputCall.Refuses (b ++ (c.call ++ (c.form.closing ++ rest))) := by
    intro a b hopening hne
    rw [c.call_eq, htail, List.append_assoc]
    refine refuses_outputCall_of_word hne fun d hd => ?_
    exact c.isSolid_opening d (by rw [hopening]; exact List.mem_append_right a hd)
  have hclosingRefuses : ∀ a b, c.form.closing = a ++ b → b ≠ [] → outputCall.Refuses (b ++ rest) := by
    intro a b hclosing hne
    obtain ⟨e, more, rfl⟩ := List.exists_cons_of_ne_nil hne
    refine refuses_outputCall fun hhead => ?_
    obtain rfl : e = 't' := Option.some.inj hhead
    exact (c.closing_chars 't' (by rw [hclosing]; simp)).2.2 rfl
  have htakes := takes_outputCall c.pieces_fit hclosing
  rw [← c.call_eq] at htakes
  have hne : c.call ≠ [] := List.append_ne_nil_of_left_ne_nil (by decide) _
  rw [NamedCall.line, List.append_assoc, List.append_assoc, findBetween_skip hopeningRefuses,
    findBetween_take htakes hne, List.map_cons, findBetween_skip hclosingRefuses]
  simp only [List.append_assoc]
  rfl

theorem script_singleton (c : NamedCall) : script [c] = c.line := by simp [script, List.intercalate]

theorem script_cons_cons (c d : NamedCall) (calls : List NamedCall) :
    script (c :: d :: calls) = c.line ++ '\n' :: script (d :: calls) := by
  simp [script, List.intercalate]

/-- The search for bare calls finds the outputs of a script in the order of its lines. -/
theorem findBetween_script (calls : List NamedCall) (before : Chars) :
    (outputCall.findBetween before (script calls)).map Match.marks =
      calls.map fun c => [(1, c.output.toList)] := by
  induction calls generalizing before with
  | nil => rfl
  | cons c calls ih =>
      cases calls with
      | nil =>
          have hend : ∀ d ∈ ([] : Chars).head?, isIdentifierChar d = false := by simp
          have hline := findBetween_line c hend before
          rw [List.append_nil] at hline
          rw [script_singleton, hline]
          rfl
      | cons d calls =>
          have hbreak : outputCall.Refuses ('\n' :: script (d :: calls)) := refuses_outputCall (by simp)
          have hend : ∀ e ∈ ('\n' :: script (d :: calls)).head?, isIdentifierChar e = false := by
            intro e he
            cases he
            decide
          rw [script_cons_cons, findBetween_line c hend, findBetween_skip_char hbreak, ih]
          rfl

end

/-! ## The words of a script -/

namespace NamedCall

variable (c : NamedCall)

/-- The word of the option before the subcommand, if there is one. -/
def optionWords : List (Chars × Char) :=
  c.directory.toList.map fun directory => ("-chdir=".toList ++ directory.toList, ' ')

/-- The words of the flags. -/
def flagWords : List (Chars × Char) := c.flags.map fun flag => (flag.text, ' ')

/-- The last word, and the line end after it. -/
def lastWord : Chars × Char := (c.output.toList ++ c.form.closing, '\n')

/-- The words of the line. -/
def words : List (Chars × Char) :=
  (c.form.opening ++ "terraform".toList, ' ') ::
    (c.optionWords ++ ("output".toList, ' ') :: (c.flagWords ++ [c.lastWord]))

theorem blanked_words : blanked c.words = c.line ++ ['\n'] := by
  have hoption : blanked c.optionWords = c.option := by
    unfold optionWords option
    cases c.directory with
    | none => rfl
    | some directory => simp [blanked]
  have hflags : blanked c.flagWords = c.flagsText := by
    simp [blanked, flagWords, flagsText, List.flatMap_map]
  have htool : "terraform ".toList = "terraform".toList ++ [' '] := by decide
  have hverb : "output ".toList = "output".toList ++ [' '] := by decide
  have hlast : blanked [c.lastWord] = c.output.toList ++ (c.form.closing ++ ['\n']) := by
    simp [blanked, lastWord]
  unfold words line call
  rw [blanked_cons, blanked_append, blanked_cons, blanked_append, hoption, hflags, hlast, htool, hverb]
  simp only [List.append_assoc, List.cons_append, List.nil_append]

theorem isSolid_lastWord : IsSolid c.lastWord.1 where
  ne_nil := by
    obtain ⟨first, rest, houtput, -⟩ := c.output_identifier
    rw [lastWord, houtput]
    exact List.cons_ne_nil _ _
  solid d hd := by
    rcases List.mem_append.mp hd with hd | hd
    · have hidentifier := isIdentifierChar_of_mem c.output_identifier hd
      exact isBlank_eq_false_of_isIdentifierChar hidentifier
    · exact (c.closing_chars d hd).2.1

theorem isSolid_of_mem_optionWords {w : Chars × Char} (hw : w ∈ c.optionWords) : IsSolid w.1 := by
  obtain ⟨directory, hdirectory, rfl⟩ := List.mem_map.mp hw
  obtain ⟨-, hsolid⟩ := c.directory_fits directory (Option.mem_toList.mp hdirectory)
  refine ⟨List.append_ne_nil_of_left_ne_nil (by decide) _, fun d hd => ?_⟩
  rcases List.mem_append.mp hd with hd | hd
  · exact eq_false_of_any (by decide : "-chdir=".toList.any isBlank = false) d hd
  · exact hsolid d hd

theorem areWords_words : AreWords c.words := by
  have htool : IsSolid (c.form.opening ++ "terraform".toList) := by
    refine ⟨List.append_ne_nil_of_right_ne_nil _ (by decide), fun d hd => ?_⟩
    rcases List.mem_append.mp hd with hd | hd
    · exact c.isSolid_opening d hd
    · exact eq_false_of_any (by decide : "terraform".toList.any isBlank = false) d hd
  have hblank : isBlank ' ' = true := by decide
  have hbreak : isBlank '\n' = true := by decide
  intro w hw
  simp only [words, List.mem_cons, List.mem_append, List.not_mem_nil, or_false] at hw
  rcases hw with rfl | hw | rfl | hw | rfl
  · exact ⟨htool, hblank⟩
  · refine ⟨c.isSolid_of_mem_optionWords hw, ?_⟩
    obtain ⟨directory, -, rfl⟩ := List.mem_map.mp hw
    exact hblank
  · exact ⟨isSolid_of_any (by decide) (by decide), hblank⟩
  · obtain ⟨flag, -, rfl⟩ := List.mem_map.mp hw
    exact ⟨flag.isSolid_text, hblank⟩
  · exact ⟨c.isSolid_lastWord, hbreak⟩

end NamedCall

theorem areWords_flatMap (calls : List NamedCall) : AreWords (calls.flatMap NamedCall.words) := by
  intro w hw
  obtain ⟨c, -, hw⟩ := List.mem_flatMap.mp hw
  exact c.areWords_words w hw

theorem blanked_script {calls : List NamedCall} (hne : calls ≠ []) :
    script calls ++ ['\n'] = blanked (calls.flatMap NamedCall.words) := by
  induction calls with
  | nil => exact absurd rfl hne
  | cons c calls ih =>
      cases calls with
      | nil => simp [script_singleton, c.blanked_words]
      | cons d calls =>
          rw [List.flatMap_cons, blanked_append, ← ih (List.cons_ne_nil d calls), c.blanked_words,
            script_cons_cons]
          simp

/-! ## Readings in a script -/

section

variable {c : CallPieces} {flags name z : Chars} {later : List (Chars × Char)} {e : Char}

/-- After the flags of a line a call reads its output. -/
theorem name_of_flagWords (call : NamedCall) {chosen : List OutputFlag}
    (hflags : (flagsOf outputFlags).Reads flags []) (hname : identifier.Reads name [])
    (he : isIdentifierChar e = false)
    (hwords : AreWords (chosen.map (fun flag => (flag.text, ' ')) ++ call.lastWord :: later))
    (h : flags ++ (name ++ e :: z) =
      blanked (chosen.map (fun flag => (flag.text, ' ')) ++ call.lastWord :: later)) :
    name = call.output.toList := by
  have hidentifiers : ∀ d ∈ name, (!isIdentifierChar d) = false := by
    obtain ⟨d, rest, hname, hd, hrest⟩ := reads_identifier hname
    intro f hf
    rw [hname] at hf
    rcases List.mem_cons.mp hf with rfl | hf
    · simp [isIdentifierChar_of_start hd]
    · simp [hrest f hf]
  have hnameHead : ∀ d ∈ (name ++ e :: z).head?, d ≠ '-' := by
    obtain ⟨d, rest, rfl, hd, -⟩ := reads_identifier hname
    intro f hf
    cases hf
    exact ne_dash_of_isIdentifierStart hd
  induction chosen generalizing flags with
  | nil =>
      obtain ⟨d, rest, houtput, hd, -⟩ := call.output_identifier
      rcases reads_flags hflags with rfl | ⟨d', flag, gap, more, -, -, -, -, rfl⟩
      · -- Both names end where the first character stands that is none of an identifier.
        have houtputs : ∀ d ∈ call.output.toList, (!isIdentifierChar d) = false := fun d hd => by
          simp [isIdentifierChar_of_mem call.output_identifier hd]
        obtain ⟨f, tail, htail, hf⟩ : ∃ f tail, call.form.closing ++ '\n' :: blanked later = f :: tail ∧
            (!isIdentifierChar f) = true := by
          cases hclosing : call.form.closing with
          | nil => exact ⟨'\n', _, rfl, by decide⟩
          | cons f more =>
              have hf := (call.closing_chars f (by rw [hclosing]; exact List.mem_cons_self)).1
              exact ⟨f, _, rfl, by simp [hf]⟩
        rw [List.nil_append, List.map_nil, List.nil_append, blanked_cons, NamedCall.lastWord,
          List.append_assoc, htail] at h
        exact (eq_of_append_cons_eq hidentifiers houtputs (by simp [he]) hf h).1
      · rw [List.map_nil, List.nil_append, blanked_cons, NamedCall.lastWord, houtput] at h
        obtain ⟨hdash, -⟩ := List.cons.inj h
        exact absurd hdash.symm (ne_dash_of_isIdentifierStart hd)
  | cons flag chosen ih =>
      obtain ⟨tail, htext, -⟩ := flag.reads_tail
      rw [List.map_cons, List.cons_append, blanked_cons] at h
      rcases reads_flags hflags with rfl | ⟨d, word, gap, more, -, hword, hgap, hmore, rfl⟩
      · rw [List.nil_append] at h
        exact absurd rfl (hnameHead '-' (by rw [h, htext]; rfl))
      · obtain ⟨⟨hsolid, hblank⟩, hmoreWords⟩ := List.forall_mem_cons.mp hwords
        have hdash : ∀ f ∈ '-' :: d :: word, isBlank f = false :=
          List.forall_mem_cons.mpr ⟨by decide, hword⟩
        rw [List.append_assoc, List.append_assoc] at h
        obtain ⟨-, hrest⟩ := eq_of_gap_eq_cons hdash hsolid.solid hgap (head?_blanked hmoreWords) hblank h
        exact ih hmore hmoreWords hrest

/-- A line does not start with a dash. -/
theorem ne_dash_of_head?_opening (call : NamedCall) (x : Chars) :
    ∀ d ∈ (call.form.opening ++ ("terraform".toList ++ x)).head?, d ≠ '-' := by
  intro d hd
  rcases call.opening_cases with hopening | ⟨mark, -, hopening⟩ <;> rw [hopening] at hd
  · cases hd
    decide
  · cases hassigned : call.form.assigned.toList with
    | nil =>
        rw [hassigned] at hd
        cases hd
        decide
    | cons e more =>
        rw [hassigned] at hd
        cases hd
        rintro rfl
        exact absurd (call.assigned_chars '-' (by simp [hassigned])) (by decide)

/-- The words after the tool start with an option or with the subcommand. -/
theorem words_cons (call : NamedCall) (later : List (Chars × Char)) :
    ∃ more, call.words = (call.form.opening ++ "terraform".toList, ' ') :: more ∧
      ∀ d ∈ (blanked (more ++ later)).head?, d = '-' ∨ d = 'o' := by
  refine ⟨_, rfl, fun d hd => ?_⟩
  unfold NamedCall.optionWords at hd
  cases hdirectory : call.directory with
  | none =>
      rw [hdirectory] at hd
      cases hd
      exact Or.inr rfl
  | some directory =>
      rw [hdirectory] at hd
      cases hd
      exact Or.inl rfl

/-- Where a line starts, no call goes on with its name and ends in a closing character. -/
theorem ne_blanked_words (call : NamedCall) {space : Chars} {close : Char}
    (hflags : (flagsOf outputFlags).Reads flags []) (hname : identifier.Reads name [])
    (hspace : ∀ d ∈ space, isBlank d = true) (hclose : close = ')' ∨ close = Shell.graveAccent)
    (hwords : AreWords (call.words ++ later)) :
    flags ++ (name ++ (space ++ close :: z)) ≠ blanked (call.words ++ later) := by
  intro h
  have hcloseChar : isBlank close = false ∧ ¬ (close = '-' ∨ close = 'o') ∧ endsName close = true := by
    rcases hclose with rfl | rfl <;> decide
  obtain ⟨more, hmore, hmoreHead⟩ := words_cons call later
  rw [hmore, List.cons_append] at hwords h
  obtain ⟨-, hmoreWords⟩ := List.forall_mem_cons.mp hwords
  rw [blanked_cons, List.append_assoc] at h
  have hnone : flags = [] := by
    rcases reads_flags hflags with hnone | ⟨_, _, _, _, -, -, -, -, rfl⟩
    · exact hnone
    · exact absurd rfl (ne_dash_of_head?_opening call _ '-' (by rw [← h]; rfl))
  rw [hnone, List.nil_append] at h
  have hnameStops : ∀ d ∈ name, endsName d = false := fun d hd =>
    endsName_eq_false_of_isIdentifierChar (isIdentifierChar_of_mem (reads_identifier hname) hd)
  rcases call.opening_cases with hopening | ⟨mark, -, hopening⟩
  · -- The name is the tool, and what closes the call would start an option or the subcommand.
    have htool : ∀ d ∈ "terraform".toList, endsName d = false := eq_false_of_any (by decide)
    rw [hopening, List.nil_append] at h
    cases space with
    | nil =>
        obtain ⟨-, rfl, -⟩ := eq_of_append_cons_eq hnameStops htool hcloseChar.2.2 (by decide) h
        exact absurd hcloseChar.1 (by decide)
    | cons b space =>
        obtain ⟨hb, hspace⟩ := List.forall_mem_cons.mp hspace
        have hbStops : endsName b = true := by simp [endsName, hb]
        obtain ⟨-, -, hrest⟩ := eq_of_append_cons_eq hnameStops htool hbStops (by decide) h
        have hhead := head?_blanked hmoreWords
        rw [← hrest] at hhead hmoreHead
        cases space with
        | nil => exact hcloseChar.2.1 (hmoreHead close rfl)
        | cons e space =>
            have he : isBlank e = true := hspace e List.mem_cons_self
            have hnot : isBlank e = false := hhead e rfl
            rw [he] at hnot
            cases hnot
  · -- The name would end in the equals sign.
    have hassigned : ∀ d ∈ call.form.assigned.toList, endsName d = false := fun d hd =>
      endsName_eq_false_of_isVariableChar (call.assigned_chars d hd)
    have hequals : endsName '=' = true := by decide
    rw [hopening, List.append_assoc, List.cons_append] at h
    cases space with
    | nil =>
        obtain ⟨-, rfl, -⟩ := eq_of_append_cons_eq hnameStops hassigned hcloseChar.2.2 hequals h
        rcases hclose with hclose | hclose <;> exact absurd hclose (by decide)
    | cons b space =>
        have hb := hspace b List.mem_cons_self
        have hbStops : endsName b = true := by simp [endsName, hb]
        obtain ⟨-, rfl, -⟩ := eq_of_append_cons_eq hnameStops hassigned hbStops hequals h
        exact absurd hb (by decide)

/-- A word of two lists stands in the first, with the second one after it, or in the second. -/
theorem suffix_append_cases {A B : List (Chars × Char)} {w : Chars × Char} (h : w :: later <:+ A ++ B) :
    (∃ tail, later = tail ++ B ∧ w :: tail <:+ A) ∨ w :: later <:+ B := by
  obtain ⟨front, hfront⟩ := h
  rcases List.append_eq_append_iff.mp hfront with ⟨tail, rfl, htail⟩ | ⟨tail, -, htail⟩
  · cases tail with
    | nil => exact Or.inr (htail ▸ List.suffix_refl _)
    | cons v tail =>
        obtain ⟨rfl, rfl⟩ := List.cons.inj htail
        exact Or.inl ⟨tail, rfl, List.suffix_append front _⟩
  · exact Or.inr ⟨tail, htail.symm⟩

theorem suffix_flatMap_cases {calls : List NamedCall} {w : Chars × Char}
    (h : w :: later <:+ calls.flatMap NamedCall.words) : ∃ call ∈ calls, ∃ tail rest,
      w :: tail <:+ call.words ∧ later = tail ++ List.flatMap NamedCall.words rest := by
  induction calls with
  | nil => simp at h
  | cons c calls ih =>
      rcases suffix_append_cases h with ⟨tail, hlater, hw⟩ | h
      · exact ⟨c, List.mem_cons_self, tail, calls, hw, hlater⟩
      · obtain ⟨call, hcall, more⟩ := ih h
        exact ⟨call, List.mem_cons_of_mem c hcall, more⟩

/-- The word `output` in a line is its subcommand, or its last word. -/
theorem after_output (call : NamedCall) {d : Char} {tail : List (Chars × Char)}
    (h : ("output".toList, d) :: tail <:+ call.words) :
    tail = call.flagWords ++ [call.lastWord] ∨ tail = [] := by
  have hsplit : call.words =
      ((call.form.opening ++ "terraform".toList, ' ') :: call.optionWords) ++
        ([("output".toList, ' ')] ++ (call.flagWords ++ [call.lastWord])) := rfl
  rw [hsplit] at h
  rcases suffix_append_cases h with ⟨_, -, h⟩ | h
  · -- Neither the tool nor an option is called `output`.
    rcases List.mem_cons.mp (h.mem List.mem_cons_self) with hword | hword
    · have hlast := congrArg (fun w : Chars × Char => w.1.getLast?) hword
      have htool : "terraform".toList.getLast? = some 'm' := by decide
      rw [List.getLast?_append, htool, Option.some_or] at hlast
      exact absurd (Option.some.inj hlast) (by decide)
    · obtain ⟨directory, -, hword⟩ := List.mem_map.mp hword
      cases congrArg (fun w : Chars × Char => w.1.head?) hword
  rcases suffix_append_cases h with ⟨rest, rfl, hverb⟩ | h
  · have hlength := hverb.length_le
    obtain rfl : rest = [] := List.length_eq_zero_iff.mp (by simpa using hlength)
    exact Or.inl rfl
  rcases suffix_append_cases h with ⟨_, -, h⟩ | h
  · -- Neither is a flag.
    obtain ⟨flag, -, hword⟩ := List.mem_map.mp (h.mem List.mem_cons_self)
    obtain ⟨rest, htext, -⟩ := flag.reads_tail
    have hhead := congrArg (fun w : Chars × Char => w.1.head?) hword
    rw [htext] at hhead
    cases hhead
  · exact Or.inr (by simpa using h.length_le)

/-- Before the subcommand stands a blank. -/
theorem CallPieces.Fit.blank_before_output {outputFlags : List Pattern} (fit : c.Fit outputFlags) :
    ∃ front b, isBlank b = true ∧ c.gap ++ c.option = front ++ [b] := by
  have last : ∀ {gap : Chars}, IsGap gap → ∃ front b, isBlank b = true ∧ gap = front ++ [b] := by
    intro gap hgap
    refine ⟨gap.dropLast, gap.getLast hgap.1, hgap.2 _ (List.getLast_mem hgap.1), ?_⟩
    exact (List.dropLast_concat_getLast hgap.1).symm
  rcases reads_globalOption fit.option with hoption | ⟨directory, gap, hgap, -, hoption⟩
  · obtain ⟨front, b, hb, hgap⟩ := last fit.gap
    exact ⟨front, b, hb, by rw [hoption, List.append_nil, hgap]⟩
  · obtain ⟨front, b, hb, rfl⟩ := last hgap
    exact ⟨c.gap ++ ("-chdir=".toList ++ directory ++ front), b, hb, by rw [hoption]; simp⟩

/-- A call in a script that ends in a closing character names the output of a line. -/
theorem exists_call_of_reading {calls : List NamedCall} {before space after : Chars} {close : Char}
    (fit : c.Fit outputFlags) (hspace : ∀ d ∈ space, isBlank d = true)
    (hclose : close = ')' ∨ close = Shell.graveAccent)
    (h : script calls = before ++ ("terraform".toList ++ (c.tail ++ (space ++ close :: after)))) :
    ∃ call ∈ calls, c.name = call.output.toList := by
  have hne : calls ≠ [] := by
    rintro rfl
    have hempty := congrArg List.length h
    simp [script, List.intercalate] at hempty
  have hwords := areWords_flatMap calls
  obtain ⟨front, b, hb, hfront⟩ := fit.blank_before_output
  have htext : blanked (calls.flatMap NamedCall.words) = (before ++ ("terraform".toList ++ front)) ++
      b :: ("output".toList ++ (c.gapAfter ++ (c.flags ++ (c.name ++
        (space ++ close :: (after ++ ['\n'])))))) := by
    have hassoc : c.gap ++ (c.option ++ ("output".toList ++ (c.gapAfter ++ (c.flags ++ c.name)))) =
        (front ++ [b]) ++ ("output".toList ++ (c.gapAfter ++ (c.flags ++ c.name))) := by
      rw [← hfront, List.append_assoc]
    rw [← blanked_script hne, h, CallPieces.tail, hassoc]
    simp
  obtain ⟨later, hlater, hx⟩ := exists_suffix_of_blank hwords hb htext
  have houtput : ∀ d ∈ "output".toList, isBlank d = false := eq_false_of_any (by decide)
  obtain ⟨d, later, rfl, hrest⟩ :=
    exists_cons_of_gap (hwords.of_suffix hlater) houtput fit.gapAfter hx.symm
  obtain ⟨call, hcall, tail, rest, htail, rfl⟩ := suffix_flatMap_cases hlater
  have hlaterWords := (hwords.of_suffix hlater).of_suffix (List.suffix_cons _ _)
  rcases after_output call htail with rfl | rfl
  · -- The subcommand of a line: its flags and its name follow.
    refine ⟨call, hcall, ?_⟩
    have hcloseName : isIdentifierChar close = false := by rcases hclose with rfl | rfl <;> decide
    obtain ⟨e, z, hz⟩ := List.exists_cons_of_ne_nil
      (List.append_ne_nil_of_right_ne_nil space (List.cons_ne_nil close (after ++ ['\n'])))
    have he : isIdentifierChar e = false := head?_blanks_cons hspace hcloseName e (by rw [hz]; rfl)
    rw [List.append_assoc] at hrest hlaterWords
    rw [hz] at hrest
    exact name_of_flagWords call fit.flags fit.name he hlaterWords hrest
  · -- The output of a bare call: the next line follows.
    cases rest with
    | nil =>
        obtain ⟨f, more, hname, -⟩ := reads_identifier fit.name
        rw [hname] at hrest
        exact absurd hrest (by simp [blanked])
    | cons next rest =>
        exact absurd hrest (ne_blanked_words next fit.flags fit.name hspace hclose hlaterWords)

/-- The forms with a closing character read a call up to it. -/
theorem exists_pieces_of_reads {form : Pattern} {text : Chars} {parts : List (Nat × Chars)}
    (hform : form ∈ outputForms.tail) (h : form.Reads text parts) :
    ∃ (c : CallPieces) (opening space : Chars) (close : Char), c.Fit outputFlags ∧
      (∀ d ∈ space, isBlank d = true) ∧ (close = ')' ∨ close = Shell.graveAccent) ∧
      parts = [(1, c.name)] ∧ text = opening ++ ("terraform".toList ++ (c.tail ++ (space ++ [close]))) := by
  simp only [outputForms, List.tail_cons, List.mem_cons, List.not_mem_nil, or_false] at hform
  rcases hform with rfl | rfl
  · obtain ⟨assigned, c, space, spaceAfter, -, -, fit, -, hspaceAfter, hparts, rfl⟩ := reads_assigned.mp h
    exact ⟨c, assigned ++ ("=$(".toList ++ space), spaceAfter, ')', fit, hspaceAfter, Or.inl rfl, hparts,
      by simp⟩
  · obtain ⟨c, space, spaceAfter, fit, -, hspaceAfter, hparts, rfl⟩ := reads_graveQuoted.mp h
    exact ⟨c, Shell.graveAccent :: space, spaceAfter, Shell.graveAccent, fit, hspaceAfter, Or.inr rfl, hparts,
      by simp⟩

/-- Those forms find no outputs in a script but those of its lines. -/
theorem mem_outputs_of_found {calls : List NamedCall} {form : Pattern} (hform : form ∈ outputForms.tail)
    {found : Match} (h : found ∈ form.findAll (script calls)) :
    String.ofList (found.part 1) ∈ calls.map NamedCall.output := by
  obtain ⟨before, rest, hsplit, hmatch⟩ := exists_of_mem_findAll h
  obtain ⟨⟨after, hafter⟩, hreads⟩ := reads_of_matchBetween hmatch
  obtain ⟨c, opening, space, close, fit, hspace, hclose, hparts, hwhole⟩ :=
    exists_pieces_of_reads hform hreads
  obtain ⟨call, hcall, hname⟩ : ∃ call ∈ calls, c.name = call.output.toList := by
    have htext : script calls = (before ++ opening) ++
        ("terraform".toList ++ (c.tail ++ (space ++ close :: after))) := by
      rw [hsplit, ← hafter, hwhole]
      simp
    exact exists_call_of_reading fit hspace hclose htext
  refine List.mem_map.mpr ⟨call, hcall, ?_⟩
  have hpart : found.part 1 = c.name := by simp [Match.part, Match.part?, hparts]
  rw [hpart, hname, String.ofList_toList]

end

/-- From a script its outputs are read, each once, in the order of the lines that name them first. -/
theorem outputNames_script (calls : List NamedCall) :
    outputNames (script calls) = (calls.map NamedCall.output).eraseDups := by
  have hbare : (outputCall.findAll (script calls)).map (fun found => String.ofList (found.part 1)) =
      calls.map NamedCall.output := by
    have hmarks := findBetween_script calls []
    rw [names_of_marks, findAll_eq_findBetween, hmarks, List.map_map]
    refine List.map_congr_left fun c _ => ?_
    simp
  have hforms : outputForms = outputCall :: outputForms.tail := rfl
  unfold outputNames
  rw [hforms, List.flatMap_cons, hbare, distinct_append_of_subset, distinct_eq_eraseDups]
  intro name hname
  obtain ⟨form, hform, hname⟩ := List.mem_flatMap.mp hname
  obtain ⟨found, hfound, rfl⟩ := List.mem_map.mp hname
  exact mem_outputs_of_found hform hfound

example : outputNames ("terraform -chdir=output output -state=terraform terraform\n".toList ++
    "output=$(terraform output output)\nterraform=\x60terraform output vpc\x60".toList) =
      ["terraform", "output", "vpc"] := by
  decide +kernel

end DeployTrace
