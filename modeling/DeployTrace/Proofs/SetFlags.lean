/-
  DeployTrace/Proofs/SetFlags.lean --- set flags are read as they are written.

  WHAT THIS FILE IS FOR.  A command is searched for set flags without being parsed, so a key, a value or a
  quotation may look like another flag.  Written flags (`SetFlag`) say which keys and values a flag may
  have so that this does no harm: a key is anything without a blank and an equals sign, and a value is
  plain text without a comma, or any text between quotation marks that it does not hold.

  HOW IT IS PROVED.  The search goes over a command from flag to flag (`findBetween_take`).  At a flag the
  pattern takes the whole of it: its name with the variant, the key up to its equals sign, and one word,
  after which a blank or the end stands.  No comma of that word cuts it, since a bare value has none and a
  quoted one has them all inside the quotation.
-/
import DeployTrace.Shell.Helm
import DeployTrace.Proofs.Entries
import DeployTrace.Proofs.ShellWords

set_option autoImplicit false

namespace DeployTrace.Shell.Helm

open Text Pattern

/-! ## Written flags -/

/-- The end of a flag's name, which tells its variant. -/
def SetFlavor.suffix : SetFlavor → String
  | plain => ""
  | string => "-string"
  | file => "-file"

/-- What may stand between a flag and its argument. -/
inductive SetSeparator where
  | blank
  | equals
  deriving DecidableEq, Repr

/-- The character between a flag and its argument. -/
def SetSeparator.char : SetSeparator → Char
  | blank => ' '
  | equals => '='

/-- How a value is written: as it is, or between quotation marks. -/
inductive Quoting where
  | bare
  | double
  | single
  deriving DecidableEq, Repr

/-- A value as it is written. -/
def Quoting.written : Quoting → Chars → Chars
  | bare, value => value
  | double, value => '\x22' :: (value ++ ['\x22'])
  | single, value => '\x27' :: (value ++ ['\x27'])

/-- Characters of a value that needs no quotation marks: plain ones, and no comma. -/
def isBareChar (c : Char) : Bool := isPlain c && c != ','

/-- Values that can be written so. -/
def Quoting.Fits : Quoting → Chars → Prop
  | bare, value => value ≠ [] ∧ ∀ c ∈ value, isBareChar c = true
  | double, value => '\x22' ∉ value
  | single, value => '\x27' ∉ value

instance (quoting : Quoting) (value : Chars) : Decidable (quoting.Fits value) :=
  match quoting with
  | .bare =>
    have := List.decidableBAll (fun c => isBareChar c = true) value
    inferInstanceAs (Decidable (value ≠ [] ∧ ∀ c ∈ value, isBareChar c = true))
  | .double => inferInstanceAs (Decidable ('\x22' ∉ value))
  | .single => inferInstanceAs (Decidable ('\x27' ∉ value))

/-- A set flag as it is written on a command line. -/
structure SetFlag where
  flavor : SetFlavor
  separator : SetSeparator
  key : String
  value : String
  quoting : Quoting
  key_ne : key ≠ ""
  key_chars : ∀ c ∈ key.toList, isBlank c = false ∧ c ≠ '='
  value_fits : quoting.Fits value.toList

theorem SetFlag.key_chars_of_all {key : Chars} (h : key.all (fun c => !isBlank c && c != '=') = true) :
    ∀ c ∈ key, isBlank c = false ∧ c ≠ '=' := by
  simpa using h

/-- A flag with a key and a word after its equals sign. -/
def flagText (flavor : SetFlavor) (separator : SetSeparator) (key word : Chars) : Chars :=
  "--set".toList ++ (flavor.suffix.toList ++ separator.char :: (key ++ '=' :: word))

theorem flagText_eq (flavor : SetFlavor) (separator : SetSeparator) (key word : Chars) :
    flagText flavor separator key word =
      "--set".toList ++ (flavor.suffix.toList ++ separator.char :: (key ++ '=' :: word)) := rfl

theorem flagText_ne_nil {flavor : SetFlavor} {separator : SetSeparator} {key word : Chars} :
    flagText flavor separator key word ≠ [] :=
  List.append_ne_nil_of_left_ne_nil (by decide) _

/-- The text of a flag. -/
def SetFlag.written (f : SetFlag) : Chars :=
  flagText f.flavor f.separator f.key.toList (f.quoting.written f.value.toList)

/-- Flags one after the other, with a blank before each. -/
def flagsText (flags : List SetFlag) : Chars := flags.flatMap fun f => ' ' :: f.written

theorem head?_flagsText (flags : List SetFlag) : ∀ c ∈ (flagsText flags).head?, isBlank c = true := by
  cases flags with
  | nil => simp [flagsText]
  | cons f rest =>
      intro c hc
      obtain rfl : ' ' = c := by simpa [flagsText] using hc
      decide

/-! ## A flag is taken whole -/

/-- What the pattern marks for a variant. -/
def SetFlavor.marks : SetFlavor → List (Nat × Chars)
  | plain => []
  | string => [(1, "-string".toList)]
  | file => [(1, "-file".toList)]

section

variable {flavor : SetFlavor} {separator : SetSeparator} {key word rest : Chars}

theorem takes_variant (h : rest.head? ≠ some '-') :
    (optional (mark 1 (oneOf [Pattern.word "-string", Pattern.word "-file"]))).Takes
      flavor.suffix.toList flavor.marks rest := by
  cases flavor with
  | plain =>
      refine takes_right (Refuses.mark (refuses_oneOf fun q hq => ?_)) takes_nothing
      simp only [List.mem_cons, List.not_mem_nil, or_false] at hq
      rcases hq with rfl | rfl
      · exact refuses_word (not_prefix_of_head (d := '-') (by decide) h)
      · exact refuses_word (not_prefix_of_head (d := '-') (by decide) h)
  | string => exact takes_left (takes_mark (takes_oneOf_head (takes_word "-string")))
  | file =>
      have hother : ¬ "-string".toList <+: "-file".toList ++ rest := by
        rintro ⟨after, hafter⟩
        have hsecond := congrArg (fun text => text[1]?) hafter
        exact absurd hsecond (by simp)
      exact takes_left (takes_mark (takes_oneOf_tail (refuses_word hother) (takes_word "-file")))

theorem takes_separator (h : ∀ c ∈ rest.head?, isBlank c = false) :
    (oneOf [blanks1, Pattern.word "="]).Takes [separator.char] [] rest := by
  cases separator with
  | blank =>
      refine takes_oneOf_head (takes_span1 (by simp) (fun c hc => ?_) h)
      rw [List.mem_singleton.mp hc]
      decide
  | equals =>
      refine takes_oneOf_tail (refuses_span1 fun c hc => ?_) (takes_word "=")
      cases hc
      decide

/-- A flag is taken with its key and its word, whatever these look like. -/
theorem takes_setPattern (hne : key ≠ []) (hkey : ∀ c ∈ key, isBlank c = false ∧ c ≠ '=')
    (hword : wordPattern.Takes word [] rest) :
    setPattern.Takes (flagText flavor separator key word) ((3, word) :: (2, key) :: flavor.marks) rest := by
  have hequals : "=".toList = ['='] := by decide
  have hkeyTaken : (mark 2 (solid1 ['='])).Takes key [(2, key)] ('=' :: word ++ rest) := by
    refine takes_mark (takes_span1 hne (fun c hc => ?_) fun c hc => ?_)
    · simp [hkey c hc]
    · cases hc
      decide
  have hkeyHead : ∀ c ∈ (key ++ '=' :: word ++ rest).head?, isBlank c = false := by
    obtain ⟨d, more, rfl⟩ := List.exists_cons_of_ne_nil hne
    intro c hc
    obtain rfl : d = c := by simpa using hc
    exact (hkey d List.mem_cons_self).1
  have hvariantHead : (separator.char :: (key ++ '=' :: word) ++ rest).head? ≠ some '-' := by
    cases separator <;> simp [SetSeparator.char]
  have hvalue : (seq [Pattern.word "=", mark 3 wordPattern]).Takes ('=' :: word) [(3, word)] rest := by
    have hmarked : (seq [mark 3 wordPattern]).Takes word [(3, word)] rest := takes_mark hword
    have htaken := takes_seq_word (w := "=") hmarked
    rwa [hequals, List.singleton_append] at htaken
  have hseparator : (oneOf [blanks1, Pattern.word "="]).Takes [separator.char] []
      (key ++ '=' :: word ++ rest) :=
    takes_separator hkeyHead
  have hargument := takes_seq_cons hseparator (takes_seq_cons hkeyTaken hvalue)
  exact takes_seq_word (takes_seq_cons (takes_variant hvariantHead) hargument)

end

/-! ## The pairs of a flag -/

section

variable {text key : Chars} {s : Scan}

/-- Without a comma there is one piece. -/
theorem piecesFrom_of_notMem (h : ',' ∉ text) : piecesFrom s text = (text, []) := by
  induction text generalizing s with
  | nil => rfl
  | cons c rest ih =>
      rw [List.mem_cons, not_or] at h
      obtain ⟨hc, hrest⟩ := h
      have hcut : s.cutsAt c = false := by simp [Scan.cutsAt, Ne.symm hc]
      simp [piecesFrom, ih hrest, hcut]

/-- Inside a quotation no comma cuts, up to the mark that ends it. -/
theorem piecesFrom_quoted {mark : Char} {depth : Nat} (h : mark ∉ text) :
    piecesFrom ⟨depth, some mark⟩ (text ++ [mark]) = (text ++ [mark], []) := by
  induction text with
  | nil => simp [piecesFrom, Scan.cutsAt]
  | cons c rest ih =>
      rw [List.mem_cons, not_or] at h
      obtain ⟨hc, hrest⟩ := h
      have hnext : Scan.next ⟨depth, some mark⟩ c = ⟨depth, some mark⟩ := by simp [Scan.next, Ne.symm hc]
      simp [piecesFrom, hnext, ih hrest, Scan.cutsAt]

/-- A value of one piece is the value of its key. -/
theorem setPairs_of_piece (h : piecesFrom .start text = (text, [])) :
    setPairs key text = [(key, unquoteChars text)] := by
  simp [setPairs, rawPairs, h, pairsFrom]

theorem unquoteChars_of_head (h : ∀ c ∈ text.head?, c ≠ '\x27' ∧ c ≠ '\x22') : unquoteChars text = text := by
  unfold unquoteChars
  split
  · rename_i q c rest
    have hq := h q rfl
    simp [hq]
  · rfl

theorem unquoteChars_quoted {mark : Char} (hmark : mark = '\x22' ∨ mark = '\x27') (text : Chars) :
    unquoteChars (mark :: (text ++ [mark])) = text := by
  have hquote : (mark == '\x27' || mark == '\x22') = true := by rcases hmark with rfl | rfl <;> decide
  cases text with
  | nil => simp [unquoteChars, hquote]
  | cons c rest =>
      have hlast : (c :: (rest ++ [mark])).getLast? = some mark := by
        rw [← List.cons_append, List.getLast?_concat]
      have hfront : (c :: (rest ++ [mark])).dropLast = c :: rest := by
        rw [← List.cons_append, List.dropLast_concat]
      simp [unquoteChars, hquote, hlast, hfront]

theorem setPairs_quoted {mark : Char} (hmark : mark = '\x22' ∨ mark = '\x27') (h : mark ∉ text) :
    setPairs key (mark :: (text ++ [mark])) = [(key, text)] := by
  have hpiece : piecesFrom .start (mark :: (text ++ [mark])) = (mark :: (text ++ [mark]), []) := by
    have hnext : Scan.next .start mark = ⟨0, some mark⟩ := by rcases hmark with rfl | rfl <;> rfl
    have hcut : Scan.cutsAt .start mark = false := by rcases hmark with rfl | rfl <;> rfl
    simp [piecesFrom, hnext, hcut, piecesFrom_quoted h]
  rw [setPairs_of_piece hpiece, unquoteChars_quoted hmark]

theorem setPairs_bare (h : ∀ c ∈ text, isBareChar c = true) : setPairs key text = [(key, text)] := by
  have outside : ∀ {d : Char}, isBareChar d = false → d ∉ text := by
    intro d hd hmem
    rw [h d hmem] at hd
    cases hd
  have hhead : ∀ c ∈ text.head?, c ≠ '\x27' ∧ c ≠ '\x22' := by
    intro c hc
    have hmem : c ∈ text := List.mem_of_mem_head? hc
    constructor
    · rintro rfl
      exact outside (by decide) hmem
    · rintro rfl
      exact outside (by decide) hmem
  rw [setPairs_of_piece (piecesFrom_of_notMem (outside (by decide))), unquoteChars_of_head hhead]

end

/-! ## The arguments of a command -/

/-- What a flag sets. -/
def SetFlag.argument (f : SetFlag) : SetArgument := { flavor := f.flavor, key := f.key, value := f.value }

/-- What a match of the pattern sets. -/
def argumentsOf (found : Match) : List SetArgument :=
  (setPairs (found.part 2) (found.part 3)).map fun pair =>
    { flavor := .ofPart (found.part? 1), key := String.ofList pair.1, value := String.ofList pair.2 }

theorem setArguments_eq (text : Chars) :
    setArguments text = (setPattern.findBetween [] text).flatMap argumentsOf := rfl

theorem argumentsOf_marks (skipped : Nat) (whole key word : Chars) (flavor : SetFlavor) :
    argumentsOf { skipped := skipped, whole := whole, marks := (3, word) :: (2, key) :: flavor.marks } =
      (setPairs key word).map fun pair =>
        { flavor := flavor, key := String.ofList pair.1, value := String.ofList pair.2 } := by
  cases flavor <;> rfl

theorem refuses_setPattern {text : Chars} (h : ¬ "--set".toList <+: text) : setPattern.Refuses text :=
  (refuses_word h).seq

/-- What stands before the first flag holds none, whatever it ends with. -/
theorem findBetween_flags {command : String} (h : contains command "--set" = false) {rest : Chars}
    (hrest : ∀ c ∈ rest.head?, isBlank c = true) :
    setPattern.findBetween [] (command.toList ++ rest) = setPattern.findBetween command.toList rest := by
  refine findBetween_skip (fun a b hcommand _ => refuses_setPattern ?_) []
  have hpart : ¬ "--set".toList <:+: command.toList := by
    rw [← hasPart_iff]
    simpa [contains] using h
  rintro ⟨after, hafter⟩
  -- The flag would stand in the command, or the blank after the command would stand in the flag.
  have hinside : "--set".toList <+: b := by
    rcases List.append_eq_append_iff.mp hafter with ⟨tail, hb, -⟩ | ⟨tail, hflag, htail⟩
    · exact ⟨tail, hb.symm⟩
    · cases tail with
      | nil => exact ⟨[], by simpa using hflag⟩
      | cons c tail =>
          have hblank : isBlank c = true := hrest c (by rw [htail]; rfl)
          have hsolid : ∀ d ∈ "--set".toList, isBlank d = false := eq_false_of_any (by decide)
          rw [hsolid c (by rw [hflag]; simp)] at hblank
          cases hblank
  exact hpart (hinside.isInfix.trans ⟨a, [], by simp [hcommand]⟩)

namespace SetFlag

/-- The value of a flag is one word in front of a blank. -/
theorem takes_value (f : SetFlag) {rest : Chars} (hrest : ∀ c ∈ rest.head?, isBlank c = true) :
    wordPattern.Takes (f.quoting.written f.value.toList) [] rest := by
  refine takes_wordPattern_part ?_ (refuses_wordPart_of_blank hrest)
  have hfits := f.value_fits
  cases hquoting : f.quoting <;> rw [hquoting] at hfits
  · obtain ⟨hne, hbare⟩ := hfits
    refine takes_wordPart_plain hne (fun c hc => ?_) fun c hc => ?_
    · have hc := hbare c hc
      simp only [isBareChar, Bool.and_eq_true] at hc
      exact hc.1
    · simp [isPlain, hrest c hc]
  · exact takes_wordPart_quoted (Or.inl rfl) hfits
  · exact takes_wordPart_quoted (Or.inr rfl) hfits

theorem setPairs_written (f : SetFlag) :
    setPairs f.key.toList (f.quoting.written f.value.toList) = [(f.key.toList, f.value.toList)] := by
  have hfits := f.value_fits
  cases hquoting : f.quoting <;> rw [hquoting] at hfits
  · exact setPairs_bare hfits.2
  · exact setPairs_quoted (Or.inl rfl) hfits
  · exact setPairs_quoted (Or.inr rfl) hfits

end SetFlag

/-- From every place on, the flags that are written there are read one after the other. -/
theorem argumentsOf_flagsText (flags : List SetFlag) (before : Chars) :
    (setPattern.findBetween before (flagsText flags)).flatMap argumentsOf = flags.map SetFlag.argument := by
  induction flags generalizing before with
  | nil => rfl
  | cons f rest ih =>
      have hkey : f.key.toList ≠ [] := by simpa using f.key_ne
      have htakes : setPattern.Takes f.written _ (flagsText rest) :=
        takes_setPattern hkey f.key_chars (f.takes_value (head?_flagsText rest))
      have hblank : setPattern.Refuses (' ' :: (f.written ++ flagsText rest)) :=
        refuses_setPattern (not_prefix_of_head (d := '-') (by decide) (by simp))
      have hsplit : flagsText (f :: rest) = ' ' :: (f.written ++ flagsText rest) := by simp [flagsText]
      rw [hsplit, findBetween_skip_char hblank, findBetween_take htakes flagText_ne_nil,
        List.flatMap_cons, argumentsOf_marks, f.setPairs_written, ih]
      simp [SetFlag.argument]

/-- A command is read as the flags that were written after it: the keys stand in the order in which they
first came, each with its last value, and the keys that came as strings or as files stand in their
order. -/
theorem setValues_of_flags {command : String} (h : contains command "--set" = false)
    (flags : List SetFlag) :
    let read := setValues (command.toList ++ flagsText flags)
    read.values.names = (flags.map (·.key)).eraseDups ∧
      (∀ key, read.values.get? key = ((flags.filter (·.key == key)).getLast?).map (·.value)) ∧
      read.stringKeys = (flags.filter (·.flavor == .string)).map (·.key) ∧
      read.fileKeys = (flags.filter (·.flavor == .file)).map (·.key) := by
  have harguments : setArguments (command.toList ++ flagsText flags) = flags.map SetFlag.argument := by
    rw [setArguments_eq, findBetween_flags h (head?_flagsText flags), argumentsOf_flagsText]
  simp only [setValues, harguments, Entries.names_ofList, Entries.get?_ofList, List.map_map,
    List.filter_map, List.getLast?_map, Option.map_map]
  exact ⟨rfl, fun _ => rfl, rfl, rfl⟩

/-- Flags whose keys and values look like flags: `--set-string --set="a,b --set c=d"`,
`--set-file=ca='the "ca"'` and `--set --set=x=y`. -/
def lookAlikeFlags : List SetFlag :=
  [{ flavor := .string, separator := .blank, key := "--set", value := "a,b --set c=d", quoting := .double,
     key_ne := by decide, key_chars := SetFlag.key_chars_of_all (by decide), value_fits := by decide },
   { flavor := .file, separator := .equals, key := "ca", value := "the \x22ca\x22", quoting := .single,
     key_ne := by decide, key_chars := SetFlag.key_chars_of_all (by decide), value_fits := by decide },
   { flavor := .plain, separator := .blank, key := "--set", value := "x=y", quoting := .bare,
     key_ne := by decide, key_chars := SetFlag.key_chars_of_all (by decide), value_fits := by decide }]

/-- They are read as what they are. -/
theorem setValues_of_flags_lookAlike :
    let read := setValues ("helm upgrade r c".toList ++ flagsText lookAlikeFlags)
    contains "helm upgrade r c" "--set" = false ∧ read.values.names = ["--set", "ca"] ∧
      read.values.get? "--set" = some "x=y" ∧ read.values.get? "ca" = some "the \x22ca\x22" ∧
      read.stringKeys = ["--set"] ∧ read.fileKeys = ["ca"] := by
  have hcommand : contains "helm upgrade r c" "--set" = false := by decide +kernel
  obtain ⟨hnames, hvalues, hstrings, hfiles⟩ := setValues_of_flags hcommand lookAlikeFlags
  exact ⟨hcommand, hnames.trans (by decide +kernel), (hvalues "--set").trans (by decide +kernel),
    (hvalues "ca").trans (by decide +kernel), hstrings.trans (by decide +kernel),
    hfiles.trans (by decide +kernel)⟩

end DeployTrace.Shell.Helm
