/-
  DeployTrace/Proofs/Positionals.lean --- positional arguments are read as they are written.

  WHAT THIS FILE IS FOR.  Release and chart are the first two positional arguments of a call, wherever its
  flags stand.  A written command line is a list of items (`Item`): a positional argument, a flag with the
  word it takes, or a flag that takes none.  Whatever the items are and in whatever order they stand, the
  arguments that are read are the positional ones (`positionals_of_items`).  A positional argument may be
  called like a subcommand, and the word a flag takes may look like another flag.

  HOW IT IS PROVED.  The call at the start of the text is the first one, and nothing in its line ends the
  command.  The words of the line are the written words (`words_spaced`), since each is one part up to the
  next blank.  Over the words one induction on the items is left.
-/
import DeployTrace.Proofs.HelmCalls
import DeployTrace.Proofs.SetFlags

set_option autoImplicit false

namespace DeployTrace.Shell.Helm

open Text Pattern

/-! ## Written command lines -/

/-- Characters that end a command or the line it stands in. -/
def endsCommand (c : Char) : Bool := c == ';' || c == '|' || c == '&' || c == '\n'

/-- Texts that can be written so as one argument of a command. -/
def Quoting.FitsArgument : Quoting → Chars → Prop
  | bare, text => text ≠ [] ∧ ∀ c ∈ text, isPlain c = true
  | double, text => '\x22' ∉ text ∧ ∀ c ∈ text, endsCommand c = false
  | single, text => '\x27' ∉ text ∧ ∀ c ∈ text, endsCommand c = false

/-- An argument of a command. -/
structure Argument where
  quoting : Quoting
  text : String
  fits : quoting.FitsArgument text.toList

/-- An argument as it is written. -/
def Argument.written (a : Argument) : Chars := a.quoting.written a.text.toList

/-- One thing that a command line says. -/
inductive Item where
  /-- a positional argument -/
  | positional (argument : Argument) (start : argument.written.head? ≠ some '-')
  /-- a flag and the word it takes -/
  | setting (flag : String) (known : flag ∈ valueFlags) (value : Argument)
  /-- a flag that takes no word, since it holds its value or is none of those that take one -/
  | switch (flag : String) (start : flag.toList.head? = some '-')
      (plain : ∀ c ∈ flag.toList, isPlain c = true) (alone : '=' ∈ flag.toList ∨ flag ∉ valueFlags)

/-- The words an item is written with. -/
def Item.words : Item → List Chars
  | positional argument _ => [argument.written]
  | setting flag _ value => [flag.toList, value.written]
  | switch flag _ _ _ => [flag.toList]

/-- The positional argument that an item is. -/
def Item.positional? : Item → Option String
  | positional argument _ => some argument.text
  | setting _ _ _ => none
  | switch _ _ _ _ => none

/-- The text of a call with these items. -/
def callText (verb : String) (items : List Item) : Chars :=
  "helm".toList ++ ' ' :: (verb.toList ++ ' ' :: spaced (items.flatMap Item.words))

/-! ## Arguments are words -/

theorem isPlain_of_endsCommand {c : Char} (h : endsCommand c = true) : isPlain c = false := by
  simp only [endsCommand, Bool.or_eq_true, beq_iff_eq] at h
  rcases h with ((rfl | rfl) | rfl) | rfl <;> decide

theorem endsCommand_of_isPlain {c : Char} (h : isPlain c = true) : endsCommand c = false := by
  rw [← Bool.not_eq_true]
  intro hend
  rw [isPlain_of_endsCommand hend] at h
  cases h

namespace Argument

variable (a : Argument)

theorem written_ne_nil : a.written ≠ [] := by
  have hfits := a.fits
  unfold written
  cases hquoting : a.quoting <;> rw [hquoting] at hfits
  · exact hfits.1
  · exact List.cons_ne_nil _ _
  · exact List.cons_ne_nil _ _

/-- An argument is one word in front of a blank. -/
theorem takes_written {rest : Chars} (hrest : ∀ c ∈ rest.head?, isBlank c = true) :
    wordPattern.Takes a.written [] rest := by
  refine takes_wordPattern_part ?_ (refuses_wordPart_of_blank hrest)
  have hfits := a.fits
  unfold written
  cases hquoting : a.quoting <;> rw [hquoting] at hfits
  · refine takes_wordPart_plain hfits.1 hfits.2 fun c hc => ?_
    simp [isPlain, hrest c hc]
  · exact takes_wordPart_quoted (Or.inl rfl) hfits.1
  · exact takes_wordPart_quoted (Or.inr rfl) hfits.1

theorem endsCommand_written : ∀ c ∈ a.written, endsCommand c = false := by
  have quoted : ∀ {mark : Char}, endsCommand mark = false → (∀ c ∈ a.text.toList, endsCommand c = false) →
      ∀ c ∈ mark :: (a.text.toList ++ [mark]), endsCommand c = false := by
    intro mark hmark htext c hc
    rcases List.mem_cons.mp hc with rfl | hc
    · exact hmark
    · rcases List.mem_append.mp hc with hc | hc
      · exact htext c hc
      · exact List.mem_singleton.mp hc ▸ hmark
  have hfits := a.fits
  unfold written
  cases hquoting : a.quoting <;> rw [hquoting] at hfits
  · exact fun c hc => endsCommand_of_isPlain (hfits.2 c hc)
  · exact quoted (by decide) hfits.2
  · exact quoted (by decide) hfits.2

theorem unquoteChars_written : unquoteChars a.written = a.text.toList := by
  have hfits := a.fits
  unfold written
  cases hquoting : a.quoting <;> rw [hquoting] at hfits
  · refine unquoteChars_of_head fun c hc => ?_
    have hplain := hfits.2 c (List.mem_of_mem_head? hc)
    constructor
    · rintro rfl
      exact absurd hplain (by decide)
    · rintro rfl
      exact absurd hplain (by decide)
  · exact unquoteChars_quoted (Or.inl rfl) _
  · exact unquoteChars_quoted (Or.inr rfl) _

end Argument

theorem valueFlag_chars : ∀ flag ∈ valueFlags, flag.toList ≠ [] ∧ flag.toList.all isPlain = true ∧
    "-".toList.isPrefixOf flag.toList = true ∧ '=' ∉ flag.toList := by
  decide +kernel

/-- Every word of an item is an argument. -/
theorem Item.exists_written (item : Item) : ∀ w ∈ item.words, ∃ a : Argument, a.written = w := by
  have plain : ∀ flag : String, flag.toList ≠ [] → (∀ c ∈ flag.toList, isPlain c = true) →
      ∃ a : Argument, a.written = flag.toList := fun flag hne hplain =>
    ⟨{ quoting := .bare, text := flag, fits := ⟨hne, hplain⟩ }, rfl⟩
  intro w hw
  cases item with
  | positional argument start => exact ⟨argument, (List.mem_singleton.mp hw).symm⟩
  | setting flag known value =>
      simp only [words, List.mem_cons, List.not_mem_nil, or_false] at hw
      rcases hw with rfl | rfl
      · obtain ⟨hne, hall, -⟩ := valueFlag_chars flag known
        exact plain flag hne (List.all_eq_true.mp hall)
      · exact ⟨value, rfl⟩
  | switch flag start hplain alone =>
      obtain rfl := List.mem_singleton.mp hw
      refine plain flag (fun hnil => ?_) hplain
      rw [hnil] at start
      cases start

/-! ## The words of a line -/

section

variable {texts : List Chars}

/-- No word starts with a blank. -/
theorem refuses_wordPattern_blank {rest : Chars} : wordPattern.Refuses (' ' :: rest) :=
  (refuses_wordPart_of_blank fun c hc => by cases hc; decide).both

/-- The search for words goes from one blank to the next. -/
theorem findBetween_spaced (h : ∀ w ∈ texts, ∃ a : Argument, a.written = w) (before : Chars) :
    (wordPattern.findBetween before (spaced texts)).map (·.whole) = texts := by
  induction texts generalizing before with
  | nil => rfl
  | cons w rest ih =>
      obtain ⟨⟨a, rfl⟩, hrest⟩ := List.forall_mem_cons.mp h
      cases rest with
      | nil =>
          have htakes : wordPattern.Takes a.written [] [] := a.takes_written (by simp)
          have hone := findBetween_take htakes a.written_ne_nil before
          rw [List.append_nil] at hone
          rw [spaced, hone]
          rfl
      | cons v rest =>
          have htakes : wordPattern.Takes a.written [] (' ' :: spaced (v :: rest)) :=
            a.takes_written fun c hc => by
              cases hc
              decide
          rw [spaced, findBetween_take htakes a.written_ne_nil,
            findBetween_skip_char refuses_wordPattern_blank, List.map_cons, ih hrest]

theorem words_spaced (h : ∀ w ∈ texts, ∃ a : Argument, a.written = w) :
    Shell.words (' ' :: spaced texts) = texts := by
  unfold Shell.words
  rw [findAll_eq_findBetween, findBetween_skip_char refuses_wordPattern_blank]
  exact findBetween_spaced h _

theorem endsCommand_spaced (h : ∀ w ∈ texts, ∃ a : Argument, a.written = w) :
    ∀ c ∈ spaced texts, endsCommand c = false := by
  fun_induction spaced texts with
  | case1 => simp
  | case2 w =>
      obtain ⟨a, rfl⟩ := h w List.mem_cons_self
      exact a.endsCommand_written
  | case3 w v rest ih =>
      obtain ⟨⟨a, rfl⟩, hrest⟩ := List.forall_mem_cons.mp h
      intro c hc
      rcases List.mem_append.mp hc with hc | hc
      · exact a.endsCommand_written c hc
      · rcases List.mem_cons.mp hc with rfl | hc
        · decide
        · exact ih hrest c hc

/-- A line without a character that ends a command is one command. -/
theorem firstCommand_eq_self {text : Chars} (h : ∀ c ∈ text, endsCommand c = false) :
    firstCommand text = text := by
  have hnone : commandEnd.search text = none := by
    refine search_eq_none fun front back htext => refuses_oneOf fun q hq => ?_
    have hhead : ∀ {d : Char}, endsCommand d = true → back.head? ≠ some d := by
      intro d hd hback
      have hmem : d ∈ text := htext ▸ List.mem_append_right front (List.mem_of_mem_head? hback)
      rw [h d hmem] at hd
      cases hd
    simp only [List.mem_cons, List.not_mem_nil, or_false] at hq
    rcases hq with rfl | rfl | rfl | rfl | rfl
    · exact refuses_word (not_prefix_of_head (d := '&') (by decide) (hhead (by decide)))
    · exact refuses_word (not_prefix_of_head (d := '|') (by decide) (hhead (by decide)))
    · exact refuses_word (not_prefix_of_head (d := ';') (by decide) (hhead (by decide)))
    · exact refuses_word (not_prefix_of_head (d := '\n') (by decide) (hhead (by decide)))
    · exact refuses_word (not_prefix_of_head (d := '|') (by decide) (hhead (by decide)))
  simp only [firstCommand, hnone]

end

/-! ## The arguments of a call -/

/-- Of the words of some items the positional ones are the positional items. -/
theorem positionalWords_words (items : List Item) :
    positionalWords false (items.flatMap Item.words) = items.filterMap Item.positional? := by
  have hdash : ∀ {w : Chars}, w.head? = some '-' → "-".toList.isPrefixOf w = true := by
    intro w hw
    obtain ⟨more, rfl⟩ := List.head?_eq_some_iff.mp hw
    rfl
  induction items with
  | nil => rfl
  | cons item items ih =>
      rw [List.flatMap_cons]
      cases item with
      | positional argument start =>
          have hword : "-".toList.isPrefixOf argument.written = false := by
            rw [← Bool.not_eq_true, List.isPrefixOf_iff_prefix]
            exact not_prefix_of_head (d := '-') (by decide) start
          simp only [Item.words, List.singleton_append, positionalWords, hword, Bool.false_eq_true, if_false,
            argument.unquoteChars_written, String.ofList_toList, ih, List.filterMap_cons, Item.positional?]
      | setting flag known value =>
          obtain ⟨-, -, hstart, hequals⟩ := valueFlag_chars flag known
          have htakes : (!flag.toList.contains '=' && takesNext flag.toList) = true := by
            simp [takesNext, String.ofList_toList, hequals, known]
          simp only [Item.words, List.cons_append, List.nil_append, positionalWords, hstart, if_true, htakes,
            ih, List.filterMap_cons, Item.positional?]
      | switch flag start plain alone =>
          have htakes : (!flag.toList.contains '=' && takesNext flag.toList) = false := by
            rcases alone with hequals | hknown
            · simp [hequals]
            · simp [takesNext, String.ofList_toList, hknown]
          simp only [Item.words, List.singleton_append, positionalWords, hdash start, if_true, htakes, ih,
            List.filterMap_cons, Item.positional?]

/-- The arguments of a call at the start of a text are read from its words. -/
theorem positionals_callText {verb : String} {verbs : List String} (hverb : verb ∈ verbs)
    (hverbs : ∀ v ∈ verbs, v ∈ releaseVerbs) (items : List Item) :
    positionals verbs (callText verb items) = items.filterMap Item.positional? := by
  have hwritten : ∀ w ∈ items.flatMap Item.words, ∃ a : Argument, a.written = w := by
    intro w hw
    obtain ⟨item, -, hw⟩ := List.mem_flatMap.mp hw
    exact item.exists_written w hw
  have hcall : CallsAt verb [] (callText verb items) (' ' :: spaced (items.flatMap Item.words)) := by
    refine ⟨by simp, fun c hc => ?_, [' '], isGap_blank, rfl⟩
    cases hc
    decide
  have hfirst : NoCallBefore verbs [] (callText verb items) :=
    fun _ _ _ hlt => absurd hlt (Nat.not_lt_zero _)
  have hends : ∀ c ∈ ' ' :: spaced (items.flatMap Item.words), endsCommand c = false :=
    List.forall_mem_cons.mpr ⟨by decide, endsCommand_spaced hwritten⟩
  have hline : (' ' :: spaced (items.flatMap Item.words)).takeWhile isInLine =
      ' ' :: spaced (items.flatMap Item.words) := by
    refine List.takeWhile_eq_self_iff.mpr fun c hc => ?_
    have hc := hends c hc
    simp only [endsCommand, Bool.or_eq_false_iff] at hc
    simp [isInLine, bne, hc.2]
  have hread := positionals_eq hverb hverbs hcall hfirst
  rw [List.nil_append, hline, firstCommand_eq_self hends, words_spaced hwritten, positionalWords_words] at hread
  exact hread

/-- Whatever the items of an upgrade are and in whatever order they stand, its arguments are the positional
items, whether any subcommand is looked for or this one. -/
theorem positionals_of_items (items : List Item) :
    positionals releaseVerbs ("helm upgrade ".toList ++ spaced (items.flatMap Item.words)) =
        items.filterMap Item.positional? ∧
      positionals ["upgrade"] ("helm upgrade ".toList ++ spaced (items.flatMap Item.words)) =
        items.filterMap Item.positional? := by
  have htext : "helm upgrade ".toList ++ spaced (items.flatMap Item.words) = callText "upgrade" items := rfl
  rw [htext]
  exact ⟨positionals_callText (by decide) (fun _ h => h) items,
    positionals_callText (by decide) (by decide) items⟩

example : positionals releaseVerbs "helm upgrade -n \x22a b\x22 install --wait --set web=-x ./c".toList =
    ["install", "./c"] := by
  decide +kernel

end DeployTrace.Shell.Helm
