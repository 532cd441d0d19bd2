/-
  DeployTrace/Proofs/Calls.lean --- calls that print an output, as text.

  WHAT THIS FILE IS FOR.  A call is recognised by three patterns that share their beginning, and one
  text is often read by several of them.  What such a text looks like is said here once: the tool, a gap,
  maybe an option, the subcommand, a gap, flags, and a name.  The same is said of a substitution and of a
  set flag whose value starts with one.  A step whose text holds a call is a Terraform step, whatever else
  it runs, if the call does not go on from a word.
-/
import DeployTrace.Detection.Direct
import DeployTrace.Proofs.Contexts
import DeployTrace.Proofs.Readings

set_option autoImplicit false

namespace DeployTrace

open Text Pattern Shell.Terraform

/-! ## Characters -/

theorem blankRanges_apart :
    blankRanges.all (fun r => wordRanges.all fun s => r.2 < s.1 || s.2 < r.1) = true := by decide +kernel

/-- A blank is no word character. -/
theorem isWord_eq_false_of_isBlank {c : Char} (h : isBlank c = true) : isWord c = false := by
  unfold isBlank at h
  unfold isWord
  split at h
  · rename_i hascii
    rw [if_pos hascii]
    simp only [Bool.or_eq_true, Bool.and_eq_true, beq_iff_eq, decide_eq_true_eq] at h
    have hlow : c.toNat ≤ 32 := by omega
    have hne : c ≠ '_' := by
      rintro rfl
      exact absurd hlow (by decide)
    rw [Bool.or_eq_false_iff, beq_eq_false_iff_ne, ← Bool.not_eq_true, isAlphanum_iff]
    exact ⟨by omega, hne⟩
  · rename_i hascii
    rw [if_neg hascii, ← Bool.not_eq_true, Ranges.holds_iff]
    rintro ⟨s, hs, hslow, hshigh⟩
    obtain ⟨r, hr, hrlow, hrhigh⟩ := (Ranges.holds_iff _ _).mp h
    have hapart := List.all_eq_true.mp (List.all_eq_true.mp blankRanges_apart r hr) s hs
    simp only [Bool.or_eq_true, decide_eq_true_eq] at hapart
    omega

theorem isBlank_eq_false_of_isWord {c : Char} (h : isWord c = true) : isBlank c = false := by
  cases hblank : isBlank c with
  | false => rfl
  | true =>
      rw [isWord_eq_false_of_isBlank hblank] at h
      cases h

/-- The characters of an identifier are word characters. -/
theorem isWord_of_isIdentifierChar {c : Char} (h : isIdentifierChar c = true) : isWord c = true := by
  have hascii : c.toNat < 128 := by
    rw [isIdentifierChar, Bool.or_eq_true, beq_iff_eq, isAlphanum_iff] at h
    rcases h with h | rfl
    · omega
    · decide
  unfold isWord
  rw [if_pos hascii]
  exact h

theorem isBlank_eq_false_of_isIdentifierChar {c : Char} (h : isIdentifierChar c = true) :
    isBlank c = false :=
  isBlank_eq_false_of_isWord (isWord_of_isIdentifierChar h)

/-- Blanks and what stands after them do not go on with a name, if that starts with no character of it. -/
theorem head?_blanks_cons {space z : Chars} {close : Char} (hspace : ∀ d ∈ space, isBlank d = true)
    (hclose : isIdentifierChar close = false) :
    ∀ d ∈ (space ++ close :: z).head?, isIdentifierChar d = false := by
  intro d hd
  cases space with
  | nil =>
      cases hd
      exact hclose
  | cons b space =>
      cases hd
      refine Bool.eq_false_iff.mpr fun hidentifier => ?_
      have hblank := isBlank_eq_false_of_isIdentifierChar hidentifier
      rw [hspace d List.mem_cons_self] at hblank
      cases hblank

/-- Blanks, at least one. -/
def IsGap (text : Chars) : Prop := text ≠ [] ∧ ∀ c ∈ text, isBlank c = true

theorem isGap_blank : IsGap [' '] := ⟨by decide, List.all_eq_true.mp (by decide)⟩

theorem reads_blanks1 {text : Chars} {parts : List (Nat × Chars)} :
    blanks1.Reads text parts ↔ IsGap text ∧ parts = [] := by
  unfold blanks1 IsGap
  rw [reads_span1, and_assoc]

/-! ## Readings of a call -/

/-- The pieces of a call that prints one output. -/
structure CallPieces where
  gap : Chars
  option : Chars
  gapAfter : Chars
  flags : Chars
  name : Chars

/-- The text of a call after its first word. -/
def CallPieces.tail (c : CallPieces) : Chars :=
  c.gap ++ (c.option ++ ("output".toList ++ (c.gapAfter ++ (c.flags ++ c.name))))

theorem CallPieces.name_suffix (c : CallPieces) : c.name <:+ c.tail := by
  refine ⟨c.gap ++ (c.option ++ ("output".toList ++ (c.gapAfter ++ c.flags))), ?_⟩
  simp [tail]

/-- The pieces are as a call with these flags has them. -/
structure CallPieces.Fit (flags : List Pattern) (c : CallPieces) : Prop where
  gap : IsGap c.gap
  option : globalOption.Reads c.option []
  gapAfter : IsGap c.gapAfter
  flags : (flagsOf flags).Reads c.flags []
  name : identifier.Reads c.name []

section

variable {flags : List Pattern} {text : Chars} {parts : List (Nat × Chars)}

theorem reads_seq_gap {rest : List Pattern} :
    (seq (blanks1 :: rest)).Reads text parts ↔
      ∃ gap b, IsGap gap ∧ (seq rest).Reads b parts ∧ text = gap ++ b := by
  rw [reads_seq_of_unmarked (by rfl)]
  simp only [reads_blanks1, and_true]

/-- A call is its first word and pieces that fit. -/
theorem reads_outputCallWith (unmarked : (flagsOf flags).unmarked = true) :
    (outputCallWith flags).Reads text parts ↔ ∃ c : CallPieces, c.Fit flags ∧
      text = "terraform".toList ++ c.tail ∧ parts = [(1, c.name)] := by
  unfold outputCallWith
  rw [reads_seq_of_unmarked (by rfl)]
  constructor
  · rintro ⟨start, rest, hstart, hrest, rfl⟩
    obtain ⟨afterTool, hafterTool, rfl⟩ := reads_seq_word.mp hstart
    obtain ⟨gap, option, hgap, hoption, rfl⟩ := reads_seq_gap.mp hafterTool
    obtain ⟨afterVerb, hafterVerb, rfl⟩ := reads_seq_word.mp hrest
    obtain ⟨gapAfter, afterGap, hgapAfter, hafterGap, rfl⟩ := reads_seq_gap.mp hafterVerb
    obtain ⟨chosen, name, hchosen, hname, rfl⟩ := (reads_seq_of_unmarked unmarked).mp hafterGap
    obtain ⟨inner, hname, rfl⟩ := hname
    obtain rfl := hname.parts_eq_nil (by rfl)
    refine ⟨⟨gap, option, gapAfter, chosen, name⟩, ⟨hgap, hoption, hgapAfter, hchosen, hname⟩, ?_, rfl⟩
    simp [CallPieces.tail]
  · rintro ⟨c, fit, rfl, rfl⟩
    have hname : (seq [mark 1 identifier]).Reads c.name [(1, c.name)] := ⟨[], fit.name, rfl⟩
    have hflags : (seq [flagsOf flags, mark 1 identifier]).Reads (c.flags ++ c.name) [(1, c.name)] :=
      (reads_seq_of_unmarked unmarked).mpr ⟨c.flags, c.name, fit.flags, hname, rfl⟩
    have hgapAfter : (seq [blanks1, flagsOf flags, mark 1 identifier]).Reads
        (c.gapAfter ++ (c.flags ++ c.name)) [(1, c.name)] :=
      reads_seq_gap.mpr ⟨c.gapAfter, _, fit.gapAfter, hflags, rfl⟩
    have hstart : callStart.Reads ("terraform".toList ++ (c.gap ++ c.option)) [] :=
      reads_seq_word.mpr ⟨_, reads_seq_gap.mpr ⟨c.gap, c.option, fit.gap, fit.option, rfl⟩, rfl⟩
    exact ⟨_, _, hstart, reads_seq_word.mpr ⟨_, hgapAfter, rfl⟩, by simp [CallPieces.tail]⟩

/-- Fewer flags to choose from are fewer calls. -/
theorem CallPieces.Fit.mono {more : List Pattern} (hmore : ∀ p ∈ flags, p ∈ more) {c : CallPieces}
    (fit : c.Fit flags) : c.Fit more where
  gap := fit.gap
  option := fit.option
  gapAfter := fit.gapAfter
  name := fit.name
  flags := by
    obtain ⟨rounds, hrounds, htext, hparts⟩ := fit.flags
    refine ⟨rounds, ?_, htext, hparts⟩
    intro r hr
    obtain ⟨hne, hround⟩ := hrounds r hr
    obtain ⟨b, hb, hr⟩ := reads_seq_word.mp hround
    obtain ⟨a, gap, m, n, hflag, hgap, rfl, hparts⟩ := reads_seq_cons.mp hb
    obtain ⟨p, hp, hflag⟩ := reads_oneOf.mp hflag
    refine ⟨hne, reads_seq_word.mpr ⟨_, ?_, hr⟩⟩
    exact reads_seq_cons.mpr ⟨a, gap, m, n, reads_oneOf.mpr ⟨p, hmore p hp, hflag⟩, hgap, rfl, hparts⟩

end

/-- The flags of a call wherever it stands. -/
def outputFlags : List Pattern := [word "raw", word "json", word "no-color", both (word "state=") (solid1 [])]

/-- The flags of a call inside a value. -/
def inlineFlags : List Pattern := [word "raw", word "json", word "no-color"]

theorem reads_outputCall {text : Chars} {parts : List (Nat × Chars)} :
    outputCall.Reads text parts ↔ ∃ c : CallPieces, c.Fit outputFlags ∧
      text = "terraform".toList ++ c.tail ∧ parts = [(1, c.name)] :=
  reads_outputCallWith (by rfl)

theorem reads_inlineCall {text : Chars} {parts : List (Nat × Chars)} :
    inlineCall.Reads text parts ↔ ∃ c : CallPieces, c.Fit inlineFlags ∧
      text = "terraform".toList ++ c.tail ∧ parts = [(1, c.name)] :=
  reads_outputCallWith (by rfl)

/-- A call inside a value is a call. -/
theorem CallPieces.Fit.output {c : CallPieces} (fit : c.Fit inlineFlags) : c.Fit outputFlags :=
  fit.mono fun _ hp => List.mem_append_left [both (word "state=") (solid1 [])] hp

/-- A call that is found ends where its name ends. -/
theorem outputCall_longest {before rest : Chars} {m : Match}
    (h : outputCall.matchBetween before rest = some m) :
    ∃ after, rest = m.whole ++ after ∧ ∀ d ∈ after.head?, isIdentifierChar d = false := by
  -- The pattern ends in its name, whatever stands before that.
  have hform : outputCall.matchBetween before rest = (both (both callStart (both (word "output")
      (both blanks1 (flagsOf outputFlags)))) (mark 1 identifier)).matchBetween before rest := rfl
  rw [hform] at h
  exact longest_of_matchBetween h

/-! ## Readings of a substitution -/

section

variable {text : Chars} {parts : List (Nat × Chars)}

theorem reads_seq_blanks {rest : List Pattern} :
    (seq (blanks :: rest)).Reads text parts ↔
      ∃ space b, (∀ c ∈ space, isBlank c = true) ∧ (seq rest).Reads b parts ∧ text = space ++ b := by
  rw [reads_seq_of_unmarked (by rfl)]
  constructor
  · rintro ⟨a, b, ⟨ha, -⟩, hb, rfl⟩
    exact ⟨a, b, ha, hb, rfl⟩
  · rintro ⟨a, b, ha, hb, rfl⟩
    exact ⟨a, b, ⟨ha, rfl⟩, hb, rfl⟩

/-- What two ends enclose: a call with blanks around it. -/
theorem reads_enclosed {call closing : Pattern} (unmarked : closing.unmarked = true) :
    (seq [blanks, call, blanks, closing]).Reads text parts ↔ ∃ space body spaceAfter last : Chars,
      (∀ d ∈ space, isBlank d = true) ∧ call.Reads body parts ∧ (∀ d ∈ spaceAfter, isBlank d = true) ∧
        closing.Reads last [] ∧ text = space ++ (body ++ (spaceAfter ++ last)) := by
  constructor
  · intro h
    obtain ⟨space, b, hspace, hb, rfl⟩ := reads_seq_blanks.mp h
    obtain ⟨body, e, m, n, hcall, he, rfl, rfl⟩ := reads_seq_cons.mp hb
    obtain ⟨spaceAfter, last, hspaceAfter, hlast, rfl⟩ := reads_seq_blanks.mp he
    obtain rfl : n = [] := hlast.parts_eq_nil unmarked
    exact ⟨space, body, spaceAfter, last, hspace, hcall, hspaceAfter, hlast, rfl⟩
  · rintro ⟨space, body, spaceAfter, last, hspace, hcall, hspaceAfter, hlast, rfl⟩
    have hrest : (seq [blanks, closing]).Reads (spaceAfter ++ last) [] :=
      reads_seq_blanks.mpr ⟨spaceAfter, last, hspaceAfter, hlast, rfl⟩
    have hbody : (seq [call, blanks, closing]).Reads (body ++ (spaceAfter ++ last)) parts :=
      reads_seq_cons.mpr ⟨body, _, parts, [], hcall, hrest, rfl, rfl⟩
    exact reads_seq_blanks.mpr ⟨space, _, hspace, hbody, rfl⟩

/-- What the two ends of a substitution enclose. -/
theorem reads_enclosedCall {closing : Pattern} (unmarked : closing.unmarked = true) :
    (seq [blanks, inlineCall, blanks, closing]).Reads text parts ↔
      ∃ (c : CallPieces) (space spaceAfter last : Chars), c.Fit inlineFlags ∧
        (∀ d ∈ space, isBlank d = true) ∧ (∀ d ∈ spaceAfter, isBlank d = true) ∧
        closing.Reads last [] ∧ parts = [(1, c.name)] ∧
        text = space ++ ("terraform".toList ++ (c.tail ++ (spaceAfter ++ last))) := by
  rw [reads_enclosed unmarked]
  constructor
  · rintro ⟨space, body, spaceAfter, last, hspace, hcall, hspaceAfter, hlast, rfl⟩
    obtain ⟨c, fit, rfl, rfl⟩ := reads_inlineCall.mp hcall
    exact ⟨c, space, spaceAfter, last, fit, hspace, hspaceAfter, hlast, rfl, by simp⟩
  · rintro ⟨c, space, spaceAfter, last, fit, hspace, hspaceAfter, hlast, rfl, rfl⟩
    exact ⟨space, _, spaceAfter, last, hspace, reads_inlineCall.mpr ⟨c, fit, rfl, rfl⟩, hspaceAfter,
      hlast, by simp⟩

/-- A substitution in either form is a call with no word in front of it. -/
theorem reads_substitutionForm {form : Pattern} (hform : form ∈ substitutionForms)
    (h : form.Reads text parts) : ∃ (c : CallPieces) (opening closing : Chars), c.Fit inlineFlags ∧
      opening ≠ [] ∧ (∀ d ∈ opening, isWord d = false) ∧ parts = [(1, c.name)] ∧
      text = opening ++ ("terraform".toList ++ (c.tail ++ closing)) := by
  have split : ∃ first rest closing, first ≠ [] ∧ (∀ d ∈ first, isWord d = false) ∧
      closing.unmarked = true ∧ (seq [blanks, inlineCall, blanks, closing]).Reads rest parts ∧ text = first ++ rest := by
    simp only [substitutionForms, List.mem_cons, List.not_mem_nil, or_false] at hform
    rcases hform with rfl | rfl
    · obtain ⟨rest, hrest, rfl⟩ := reads_seq_word.mp h
      exact ⟨_, rest, word ")", by decide, eq_false_of_any (by decide), unmarked_word ")", hrest, rfl⟩
    · obtain ⟨first, rest, hfirst, hrest, rfl⟩ := (reads_seq_of_unmarked (by rfl)).mp h
      obtain ⟨d, hd, rfl, -⟩ := hfirst
      obtain rfl : d = Shell.graveAccent := by simpa using hd
      exact ⟨_, rest, char (· == Shell.graveAccent), by decide, eq_false_of_any (by decide), rfl, hrest,
        rfl⟩
  obtain ⟨first, rest, closing, hne, hfirst, unmarked, hrest, rfl⟩ := split
  obtain ⟨c, space, spaceAfter, last, fit, hspace, -, -, rfl, rfl⟩ :=
    (reads_enclosedCall unmarked).mp hrest
  refine ⟨c, first ++ space, spaceAfter ++ last, fit, by simp [hne], ?_, rfl, by simp⟩
  intro d hd
  rcases List.mem_append.mp hd with hd | hd
  · exact hfirst d hd
  · exact isWord_eq_false_of_isBlank (hspace d hd)

end

/-! ## Readings of a set flag -/

/-- The pieces of a set flag whose value starts with a substitution. -/
structure FlagPieces where
  variant : Chars
  between : Chars
  key : Chars
  quote : Chars
  space : Chars
  call : CallPieces
  spaceAfter : Chars

namespace FlagPieces

/-- The substitution. -/
def substitution (f : FlagPieces) : Chars :=
  "$(".toList ++ (f.space ++ ("terraform".toList ++ (f.call.tail ++ (f.spaceAfter ++ ")".toList))))

/-- The flag up to the substitution and with it. -/
def text (f : FlagPieces) : Chars :=
  ("--set".toList ++ f.variant) ++ (f.between ++ (f.key ++ '=' :: (f.quote ++ f.substitution)))

theorem text_eq (f : FlagPieces) : f.text =
    ("--set".toList ++ f.variant) ++ (f.between ++ (f.key ++ '=' :: (f.quote ++ f.substitution))) := rfl

/-- The pieces are as a set flag has them. -/
structure Fit (f : FlagPieces) : Prop where
  variant : f.variant = "-string".toList ∨ f.variant = []
  between : IsGap f.between ∨ f.between = ['=']
  key_ne : f.key ≠ []
  key : ∀ c ∈ f.key, isBlank c = false ∧ c ≠ '='
  quote : (∃ q, (q = '\x22' ∨ q = '\x27') ∧ f.quote = [q]) ∨ f.quote = []
  space : ∀ c ∈ f.space, isBlank c = true
  call : f.call.Fit inlineFlags
  spaceAfter : ∀ c ∈ f.spaceAfter, isBlank c = true

end FlagPieces

theorem reads_substituted {text : Chars} {parts : List (Nat × Chars)} :
    (substituted inlineCall).Reads text parts ↔ ∃ (c : CallPieces) (space spaceAfter : Chars),
      c.Fit inlineFlags ∧ (∀ d ∈ space, isBlank d = true) ∧ (∀ d ∈ spaceAfter, isBlank d = true) ∧
      parts = [(1, c.name)] ∧ text = "$(".toList ++
        (space ++ ("terraform".toList ++ (c.tail ++ (spaceAfter ++ ")".toList)))) := by
  have hclosing : (word ")").unmarked = true := unmarked_word ")"
  unfold substituted
  rw [reads_seq_word]
  constructor
  · rintro ⟨b, hb, rfl⟩
    obtain ⟨c, space, spaceAfter, last, fit, hspace, hspaceAfter, hlast, rfl, rfl⟩ :=
      (reads_enclosedCall hclosing).mp hb
    obtain ⟨rfl, -⟩ := reads_word.mp hlast
    exact ⟨c, space, spaceAfter, fit, hspace, hspaceAfter, rfl, rfl⟩
  · rintro ⟨c, space, spaceAfter, fit, hspace, hspaceAfter, rfl, rfl⟩
    exact ⟨_, (reads_enclosedCall hclosing).mpr ⟨c, space, spaceAfter, _, fit, hspace, hspaceAfter,
      reads_word.mpr ⟨rfl, rfl⟩, rfl, rfl⟩, rfl⟩

/-- A set flag whose value starts with a substitution is pieces that fit. -/
theorem reads_inlineSetPattern {text : Chars} {parts : List (Nat × Chars)} :
    inlineSetPattern.Reads text parts ↔ ∃ f : FlagPieces, f.Fit ∧ text = f.text ∧
      parts = [(3, f.substitution), (1, f.call.name), (2, f.key)] := by
  unfold inlineSetPattern
  rw [reads_seq_word]
  constructor
  · rintro ⟨afterFlag, hafterFlag, rfl⟩
    obtain ⟨variant, afterVariant, hvariant, hafterVariant, rfl⟩ :=
      (reads_seq_of_unmarked (by rfl)).mp hafterFlag
    obtain ⟨between, afterBetween, hbetween, hafterBetween, rfl⟩ :=
      (reads_seq_of_unmarked (by rfl)).mp hafterVariant
    obtain ⟨key, afterKey, m, n, hmarkedKey, hafterKey, rfl, rfl⟩ := reads_seq_cons.mp hafterBetween
    obtain ⟨inner, hkeyRead, rfl⟩ := hmarkedKey
    obtain ⟨hkeyNe, hkeyChars, rfl⟩ := reads_span1.mp hkeyRead
    obtain ⟨afterEquals, hafterEquals, rfl⟩ := reads_seq_word.mp hafterKey
    obtain ⟨quote, value, hquote, hmarkedValue, rfl⟩ := (reads_seq_of_unmarked (by rfl)).mp hafterEquals
    obtain ⟨inner, hvalue, rfl⟩ := hmarkedValue
    obtain ⟨c, space, spaceAfter, fit, hspace, hspaceAfter, rfl, rfl⟩ := reads_substituted.mp hvalue
    refine ⟨⟨variant, between, key, quote, space, c, spaceAfter⟩, ?_, ?_, rfl⟩
    · constructor
      · exact (reads_optional.mp hvariant).imp (fun h => (reads_word.mp h).1) (·.1)
      · obtain ⟨p, hp, hread⟩ := reads_oneOf.mp hbetween
        simp only [List.mem_cons, List.not_mem_nil, or_false] at hp
        rcases hp with rfl | rfl
        · exact Or.inl (reads_blanks1.mp hread).1
        · exact Or.inr (reads_word.mp hread).1
      · exact hkeyNe
      · intro d hd
        simpa using hkeyChars d hd
      · rcases reads_optional.mp hquote with ⟨q, hq, rfl, -⟩ | ⟨rfl, -⟩
        · exact Or.inl ⟨q, by simpa using hq, rfl⟩
        · exact Or.inr rfl
      · exact hspace
      · exact fit
      · exact hspaceAfter
    · simp [FlagPieces.text_eq, FlagPieces.substitution]
  · rintro ⟨f, fit, rfl, rfl⟩
    have hvariant : (optional (word "-string")).Reads f.variant [] :=
      reads_optional.mpr (fit.variant.imp (fun h => reads_word.mpr ⟨h, rfl⟩) (⟨·, rfl⟩))
    have hbetween : (oneOf [blanks1, word "="]).Reads f.between [] := by
      refine reads_oneOf.mpr ?_
      rcases fit.between with h | h
      · exact ⟨blanks1, List.mem_cons_self, reads_blanks1.mpr ⟨h, rfl⟩⟩
      · exact ⟨word "=", List.mem_cons_of_mem _ List.mem_cons_self, reads_word.mpr ⟨h, rfl⟩⟩
    have hkey : (mark 2 (solid1 ['='])).Reads f.key [(2, f.key)] := by
      refine ⟨[], reads_span1.mpr ⟨fit.key_ne, ?_, rfl⟩, rfl⟩
      intro d hd
      simpa using fit.key d hd
    have hquote : (optional (char fun c => c == '\x22' || c == '\x27')).Reads f.quote [] := by
      refine reads_optional.mpr ?_
      rcases fit.quote with ⟨q, hq, hquote⟩ | hquote
      · exact Or.inl ⟨q, by simpa using hq, hquote, rfl⟩
      · exact Or.inr ⟨hquote, rfl⟩
    have hvalue : (seq [mark 3 (substituted inlineCall)]).Reads f.substitution
        [(3, f.substitution), (1, f.call.name)] :=
      ⟨_, reads_substituted.mpr ⟨f.call, f.space, f.spaceAfter, fit.call, fit.space, fit.spaceAfter,
        rfl, rfl⟩, rfl⟩
    refine ⟨f.variant ++ (f.between ++ (f.key ++ "=".toList ++ (f.quote ++ f.substitution))), ?_, ?_⟩
    · refine (reads_seq_of_unmarked (by rfl)).mpr ⟨f.variant, _, hvariant, ?_, rfl⟩
      refine (reads_seq_of_unmarked (by rfl)).mpr ⟨f.between, _, hbetween, ?_, rfl⟩
      refine reads_seq_cons.mpr ⟨f.key, "=".toList ++ (f.quote ++ f.substitution), _,
        [(3, f.substitution), (1, f.call.name)], hkey, ?_, by simp, rfl⟩
      refine reads_seq_word.mpr ⟨f.quote ++ f.substitution, ?_, rfl⟩
      exact (reads_seq_of_unmarked (by rfl)).mpr ⟨f.quote, f.substitution, hquote, hvalue, rfl⟩
    · simp [FlagPieces.text_eq]

/-! ## Steps that hold a call -/

section

variable {before after : Chars} {c : CallPieces}

theorem occursIn_invocation (hbefore : ∀ d ∈ before.getLast?, isWord d = false) {gap : Chars}
    (hgap : IsGap gap) :
    invocation.occursIn (before ++ ("terraform".toList ++ (gap ++ after))) = true := by
  refine occursIn_of_matchBetween ?_
  have hform : invocation = both .wordEdge (seq [word "terraform", blanks1]) := rfl
  have hreads : (seq [word "terraform", blanks1]).Reads ("terraform".toList ++ gap) [] :=
    reads_seq_word.mpr ⟨gap, reads_blanks1.mpr ⟨hgap, rfl⟩, rfl⟩
  rw [hform, matchBetween_wordEdge hbefore rfl (by decide)]
  exact isSome_matchBetween hreads (by rfl) ⟨after, by simp⟩ before

/-- Where a call stands, outputs are named. -/
theorem outputNames_ne_nil (fit : c.Fit outputFlags) (before after : Chars) :
    outputNames (before ++ ("terraform".toList ++ (c.tail ++ after))) ≠ [] := by
  have hreads : outputCall.Reads ("terraform".toList ++ c.tail) [(1, c.name)] :=
    reads_outputCall.mpr ⟨c, fit, rfl, rfl⟩
  have hmatch : (outputCall.matchBetween before
      ("terraform".toList ++ (c.tail ++ after))).isSome = true :=
    isSome_matchBetween hreads (by rfl) ⟨after, by simp⟩ before
  obtain ⟨found, hfound, -⟩ := exists_mem_findAll (by simp) hmatch
  have hname : String.ofList (found.part 1) ∈
      outputNames (before ++ ("terraform".toList ++ (c.tail ++ after))) := by
    refine mem_distinct.mpr (List.mem_flatMap.mpr ⟨outputCall, List.mem_cons_self, ?_⟩)
    exact List.mem_map.mpr ⟨found, hfound, rfl⟩
  exact List.ne_nil_of_mem hname

/-- A step whose text holds a call that does not go on from a word is a Terraform step. -/
theorem terraformStep?_of_call {job : Tree} {jobId : String} {index : Nat} {step : Table}
    (hrun : (runText step).toList = before ++ ("terraform".toList ++ (c.tail ++ after)))
    (hbefore : ∀ d ∈ before.getLast?, isWord d = false) (fit : c.Fit outputFlags) :
    ∃ s, terraformStep? job jobId index step = some s ∧ s.run = runText step ∧
      s.outputs = outputNames (runText step).toList := by
  have hinvokes : invocation.occursIn (runText step).toList = true := by
    rw [hrun]
    unfold CallPieces.tail
    rw [List.append_assoc]
    exact occursIn_invocation hbefore fit.gap
  have houtput : contains (runText step) "output" = true := by
    refine (hasPart_iff _ _).mpr ?_
    rw [hrun]
    unfold CallPieces.tail
    refine ⟨before ++ ("terraform".toList ++ (c.gap ++ c.option)),
      c.gapAfter ++ (c.flags ++ (c.name ++ after)), ?_⟩
    simp
  have hnames : (outputNames (runText step).toList).isEmpty = false := by
    have hne := outputNames_ne_nil fit before after
    rw [← hrun] at hne
    simpa using hne
  unfold terraformStep?
  simp only [hinvokes, houtput, hnames, Bool.not_true, Bool.false_and, Bool.false_eq_true, if_false,
    if_true]
  exact ⟨_, rfl, rfl, rfl⟩

end

end DeployTrace
