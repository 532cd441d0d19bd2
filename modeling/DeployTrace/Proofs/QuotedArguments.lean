/-
  DeployTrace/Proofs/QuotedArguments.lean --- set flags whose whole argument is quoted.

  WHAT THIS FILE IS FOR.  A shell gives a command the same argument for `--set k=v` and for
  `--set "k=v"`.  The search for set flags does not: the first quotation mark falls to the key, so that the
  value starts inside the quotation, and the mark after it opens a quotation that the next argument
  closes.  In a command with several such arguments everything from the first value on is one word.

      --set "a=1" --set "b=2" --set "c=3"     sets  "a  to  1" --set "b=2" --set "c=3

  What is said here is exactly what a list of plain arguments sets in both ways.
-/
import DeployTrace.Proofs.InlineCommand
import DeployTrace.Proofs.SetFlags

set_option autoImplicit false

namespace DeployTrace.Shell.Helm

open Text Pattern

/-! ## Plain arguments -/

/-- A key and a value of letters, digits, and the characters of names. -/
structure SetPair where
  key : String
  value : String
  key_ne : key ≠ ""
  key_chars : ∀ c ∈ key.toList, isKeyChar c = true
  value_ne : value ≠ ""
  value_chars : ∀ c ∈ value.toList, isKeyChar c = true

theorem isBareChar_of_isKeyChar {c : Char} (h : isKeyChar c = true) : isBareChar c = true := by
  have outside : ∀ {d : Char}, isKeyChar d = false → c ≠ d := by
    rintro d hd rfl
    rw [h] at hd
    cases hd
  have hbreaks : ∀ d ∈ wordBreaks, isKeyChar d = false := eq_false_of_any (by decide)
  have hbreak : c ∉ wordBreaks := fun hmem => outside (hbreaks c hmem) rfl
  have hcomma : c ≠ ',' := outside (by decide)
  simp [isBareChar, isPlain, isBlank_of_isArgumentChar (isArgumentChar_of_isKeyChar h), hbreak, hcomma]

namespace SetPair

variable (p : SetPair)

/-- The argument. -/
def text : Chars := p.key.toList ++ '=' :: p.value.toList

theorem isBareChar_of_mem_text {c : Char} (hc : c ∈ p.text) : isBareChar c = true := by
  rcases List.mem_append.mp hc with hc | hc
  · exact isBareChar_of_isKeyChar (p.key_chars c hc)
  · rcases List.mem_cons.mp hc with rfl | hc
    · decide
    · exact isBareChar_of_isKeyChar (p.value_chars c hc)

theorem isBlank_of_mem_key {c : Char} (hc : c ∈ p.key.toList) : isBlank c = false :=
  isBlank_of_isArgumentChar (isArgumentChar_of_isKeyChar (p.key_chars c hc))

theorem ne_equals_of_mem_key {c : Char} (hc : c ∈ p.key.toList) : c ≠ '=' := by
  rintro rfl
  exact absurd (p.key_chars '=' hc) (by decide)

/-- The flag with the argument as it is. -/
def flag : SetFlag where
  flavor := .plain
  separator := .blank
  key := p.key
  value := p.value
  quoting := .bare
  key_ne := p.key_ne
  key_chars _ hc := ⟨p.isBlank_of_mem_key hc, p.ne_equals_of_mem_key hc⟩
  value_fits := ⟨by simpa using p.value_ne, fun c hc => isBareChar_of_isKeyChar (p.value_chars c hc)⟩

/-- The flag with the whole argument between double quotation marks. -/
def quoted : Chars := "--set ".toList ++ '\x22' :: (p.text ++ ['\x22'])

theorem quoted_eq : p.quoted = "--set ".toList ++ '\x22' :: (p.text ++ ['\x22']) := rfl

end SetPair

/-- Flags with quoted arguments one after the other, with a blank before each. -/
def quotedText (pairs : List SetPair) : Chars := pairs.flatMap fun p => ' ' :: p.quoted

/-! ## Quoted arguments -/

/-- The parts that the value of the first argument goes on with: what stands between two arguments, which
looks quoted, and then the argument, which does not. -/
def swallowedParts (pairs : List SetPair) : List Chars :=
  pairs.flatMap fun p => ['\x22' :: (" --set ".toList ++ ['\x22']), p.text]

/-- What the value of the first argument goes on with. -/
def swallowed (pairs : List SetPair) : Chars := (swallowedParts pairs).flatten

/-- What quoted arguments set: one key, the first one after a quotation mark, if there is any. -/
def swallowingValues : List SetPair → Entries String
  | [] => []
  | p :: rest => [("\x22" ++ p.key, p.value ++ String.ofList (swallowed rest))]

theorem cons_quotedText (pairs : List SetPair) :
    '\x22' :: quotedText pairs = swallowed pairs ++ ['\x22'] := by
  induction pairs with
  | nil => rfl
  | cons p rest ih =>
      have hgap : " --set ".toList = ' ' :: "--set ".toList := by decide
      have hquoted : quotedText (p :: rest) = ' ' :: (p.quoted ++ quotedText rest) := by simp [quotedText]
      have hswallowed : swallowed (p :: rest) =
          '\x22' :: (" --set ".toList ++ '\x22' :: (p.text ++ swallowed rest)) := by
        simp [swallowed, swallowedParts]
      rw [hgap] at hswallowed
      rw [hquoted, hswallowed, SetPair.quoted_eq]
      simp [ih]

theorem head?_swallowed (pairs : List SetPair) : (swallowed pairs ++ ['\x22']).head? = some '\x22' := by
  rw [← cons_quotedText]
  rfl

theorem takesRounds_swallowed (pairs : List SetPair) :
    wordPart.TakesRounds ((swallowedParts pairs).map fun part => (part, [])) ['\x22'] := by
  induction pairs with
  | nil => exact refuses_wordPart_of_mark List.not_mem_nil
  | cons p rest ih =>
      have hparts : swallowedParts (p :: rest) =
          ('\x22' :: (" --set ".toList ++ ['\x22'])) :: p.text :: swallowedParts rest := rfl
      have htext : wordPart.Takes p.text [] (swallowed rest ++ ['\x22']) := by
        refine takes_wordPart_plain (by simp [SetPair.text]) (fun c hc => ?_) fun c hc => ?_
        · have hbare := p.isBareChar_of_mem_text hc
          simp only [isBareChar, Bool.and_eq_true] at hbare
          exact hbare.1
        · rw [head?_swallowed] at hc
          cases hc
          decide
      rw [hparts, List.map_cons, List.map_cons]
      refine ⟨by simp, takes_wordPart_quoted (Or.inl rfl) (by decide), by simp [SetPair.text], ?_, ih⟩
      rw [flatten_unmarked]
      exact htext

section

variable (p : SetPair) (rest : List SetPair)

/-- The value of the first argument is one word with all arguments after it. -/
theorem takes_swallowing : wordPattern.Takes (p.value.toList ++ swallowed rest) [] ['\x22'] := by
  refine takes_wordPattern (takes_wordPart_plain (by simpa using p.value_ne) (fun c hc => ?_) fun c hc => ?_)
    (takesRounds_swallowed rest)
  · have hbare := isBareChar_of_isKeyChar (p.value_chars c hc)
    simp only [isBareChar, Bool.and_eq_true] at hbare
    exact hbare.1
  · have hhead := head?_swallowed rest
    rw [swallowed] at hhead
    rw [hhead] at hc
    cases hc
    decide

/-- There is no comma in it, and it does not start with a quotation mark. -/
theorem setPairs_swallowing (key : Chars) :
    setPairs key (p.value.toList ++ swallowed rest) = [(key, p.value.toList ++ swallowed rest)] := by
  have hvalue : ∀ {d : Char}, isKeyChar d = false → d ∉ p.value.toList := by
    intro d hd hmem
    rw [p.value_chars d hmem] at hd
    cases hd
  have hcomma : ',' ∉ p.value.toList ++ swallowed rest := by
    intro hmem
    rcases List.mem_append.mp hmem with hmem | hmem
    · exact hvalue (by decide) hmem
    · obtain ⟨part, hpart, hmem⟩ := List.mem_flatten.mp hmem
      obtain ⟨q, -, hpart⟩ := List.mem_flatMap.mp hpart
      simp only [List.mem_cons, List.not_mem_nil, or_false] at hpart
      rcases hpart with rfl | rfl
      · exact absurd hmem (by decide)
      · exact absurd (q.isBareChar_of_mem_text hmem) (by decide)
  rw [setPairs_of_piece (piecesFrom_of_notMem hcomma), unquoteChars_of_head fun c hc => ?_]
  have hmem : c ∈ p.value.toList := by
    have hne : p.value.toList ≠ [] := by simpa using p.value_ne
    obtain ⟨d, more, hvalue⟩ := List.exists_cons_of_ne_nil hne
    rw [hvalue] at hc ⊢
    cases hc
    exact List.mem_cons_self
  constructor
  · rintro rfl
    exact hvalue (by decide) hmem
  · rintro rfl
    exact hvalue (by decide) hmem

/-- All that is read is the first key with its quotation mark, and one value. -/
theorem setArguments_quotedText {command : String} (h : contains command "--set" = false) :
    setArguments (command.toList ++ quotedText (p :: rest)) =
      [{ flavor := .plain, key := "\x22" ++ p.key,
         value := p.value ++ String.ofList (swallowed rest) }] := by
  have hkey : ∀ c ∈ '\x22' :: p.key.toList, isBlank c = false ∧ c ≠ '=' := by
    refine List.forall_mem_cons.mpr ⟨by decide, fun c hc => ?_⟩
    exact ⟨p.isBlank_of_mem_key hc, p.ne_equals_of_mem_key hc⟩
  have htakes : setPattern.Takes (flagText .plain .blank ('\x22' :: p.key.toList)
      (p.value.toList ++ swallowed rest)) _ ['\x22'] :=
    takes_setPattern (List.cons_ne_nil _ _) hkey (takes_swallowing p rest)
  have hsplit : quotedText (p :: rest) = ' ' :: (flagText .plain .blank ('\x22' :: p.key.toList)
      (p.value.toList ++ swallowed rest) ++ ['\x22']) := by
    have hquoted : quotedText (p :: rest) =
        ' ' :: ("--set ".toList ++ '\x22' :: (p.text ++ '\x22' :: quotedText rest)) := by
      simp [quotedText, SetPair.quoted_eq]
    have hflag : "--set ".toList = "--set".toList ++ [' '] := by decide
    rw [hquoted, cons_quotedText, hflag]
    simp [flagText_eq, SetPair.text, SetFlavor.suffix, SetSeparator.char]
  have hblank : ∀ c ∈ (quotedText (p :: rest)).head?, isBlank c = true := by
    intro c hc
    rw [hsplit] at hc
    cases hc
    decide
  have hrefuses : ∀ {c : Char} {more : Chars}, c ≠ '-' → setPattern.Refuses (c :: more) := fun hne =>
    refuses_setPattern (not_prefix_of_head (d := '-') (by decide) (by simpa using hne))
  have hnone : ∀ before, setPattern.findBetween before [] = [] := fun _ => rfl
  rw [setArguments_eq, findBetween_flags h hblank, hsplit, findBetween_skip_char (hrefuses (by decide)),
    findBetween_take htakes flagText_ne_nil, findBetween_skip_char (hrefuses (by decide)), hnone,
    List.flatMap_cons, argumentsOf_marks, setPairs_swallowing]
  simp [String.ofList_append, String.ofList_cons]

end

/-- Arguments as they are give every key its last value.  With every argument quoted there is one key, the
first one after a quotation mark, and its value goes over all arguments after it.  So only a command
without arguments is read the same in both ways. -/
theorem setValues_of_quoted {command : String} (h : contains command "--set" = false)
    (pairs : List SetPair) :
    let plain := (setValues (command.toList ++ flagsText (pairs.map SetPair.flag))).values
    let quoted := (setValues (command.toList ++ quotedText pairs)).values
    plain.names = (pairs.map (·.key)).eraseDups ∧
      (∀ key, plain.get? key = ((pairs.filter (·.key == key)).getLast?).map (·.value)) ∧
      quoted = swallowingValues pairs ∧
      (quoted = plain ↔ pairs = []) := by
  intro plain quoted
  have hplain : plain = Entries.ofList (pairs.map fun p => (p.key, p.value)) := by
    have harguments : setArguments (command.toList ++ flagsText (pairs.map SetPair.flag)) =
        pairs.map fun p => p.flag.argument := by
      rw [setArguments_eq, findBetween_flags h (head?_flagsText _), argumentsOf_flagsText, List.map_map]
      rfl
    simp only [plain, setValues, harguments, List.map_map]
    rfl
  have hnames : plain.names = (pairs.map (·.key)).eraseDups := by
    rw [hplain, Entries.names_ofList, List.map_map]
    rfl
  have hvalues : ∀ key, plain.get? key = ((pairs.filter (·.key == key)).getLast?).map (·.value) := by
    intro key
    rw [hplain, Entries.get?_ofList, List.filter_map, List.getLast?_map, Option.map_map]
    rfl
  cases pairs with
  | nil =>
      have hnone : quoted = plain := by
        simp only [quoted, plain, quotedText, flagsText, List.map_nil, List.flatMap_nil]
      exact ⟨hnames, hvalues, hnone.trans hplain, fun _ => rfl, fun _ => hnone⟩
  | cons p rest =>
      have hquoted : quoted = swallowingValues (p :: rest) := by
        simp only [quoted, setValues, setArguments_quotedText p rest h]
        rfl
      refine ⟨hnames, hvalues, hquoted, fun hsame => ?_, fun hnil => absurd hnil (List.cons_ne_nil p rest)⟩
      -- The first key would have a quotation mark in front of itself.
      rw [← hsame, hquoted, swallowingValues, List.map_cons, List.eraseDups_cons] at hnames
      have hkey := congrArg String.length (List.cons.inj hnames).1
      simp only [String.length_append] at hkey
      exact absurd hkey (by simp)

/-- Two arguments of which the second sets the key of the first again. -/
def twicePairs : List SetPair :=
  [{ key := "web.image", value := "v1", key_ne := by decide, key_chars := List.all_eq_true.mp (by decide),
     value_ne := by decide, value_chars := List.all_eq_true.mp (by decide) },
   { key := "web.image", value := "v2", key_ne := by decide, key_chars := List.all_eq_true.mp (by decide),
     value_ne := by decide, value_chars := List.all_eq_true.mp (by decide) }]

/-- As they are they set the key to its last value; quoted they set another key. -/
theorem setValues_of_quoted_twice :
    contains "helm upgrade r c" "--set" = false ∧
      (setValues ("helm upgrade r c".toList ++ flagsText (twicePairs.map SetPair.flag))).values.get?
        "web.image" = some "v2" ∧
      (setValues ("helm upgrade r c".toList ++ quotedText twicePairs)).values =
        [("\x22web.image", "v1\x22 --set \x22web.image=v2")] := by
  have hcommand : contains "helm upgrade r c" "--set" = false := by decide +kernel
  obtain ⟨-, hvalues, hquoted, -⟩ := setValues_of_quoted hcommand twicePairs
  exact ⟨hcommand, (hvalues "web.image").trans (by decide +kernel), hquoted.trans (by decide +kernel)⟩

/-- Quoting one whole argument changes what is set. -/
theorem quoting_changes_values : ¬ ∀ pairs : List SetPair,
    (setValues ("helm upgrade r c".toList ++ quotedText pairs)).values =
      (setValues ("helm upgrade r c".toList ++ flagsText (pairs.map SetPair.flag))).values := by
  intro claimed
  exact absurd (claimed twicePairs) (by decide +kernel)

end DeployTrace.Shell.Helm
