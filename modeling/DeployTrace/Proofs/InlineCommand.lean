/-
  DeployTrace/Proofs/InlineCommand.lean --- a command that sets one value from an output.

  WHAT THIS FILE IS FOR.  In `helm upgrade R C --set K=$(terraform output -raw O)` the searches must find
  the output O and the use of O under K, whatever the names are.  They may not be led astray by a
  release that is called `terraform` with a chart that is called `output`, or by a key that looks like a
  flag.

  HOW IT IS PROVED.  A search takes the first match, and of a match it is only known that it is a reading
  that stands in the command (`reads_of_matchBetween`).  The command is nine words with one blank between
  them, and a reading that goes over a blank says which two words meet there.  So the readings that
  stand in the command are found by trying every pair of words; all of them are the one that is meant.
-/
import DeployTrace.Proofs.Calls

set_option autoImplicit false

namespace DeployTrace

open Text Pattern Shell.Terraform

/-! ## Words with one blank between them -/

/-- Words, one blank after each but the last. -/
def spaced : List Chars → Chars
  | [] => []
  | [w] => w
  | w :: v :: rest => w ++ ' ' :: spaced (v :: rest)

/-- A word: characters, none of which is a blank. -/
structure IsSolid (w : Chars) : Prop where
  ne_nil : w ≠ []
  solid : ∀ c ∈ w, isBlank c = false

/-- Two texts that are the same up to a character of a set are the same before it and after it. -/
theorem eq_of_append_cons_eq {p : Char → Bool} {a b x y : Chars} {c d : Char}
    (ha : ∀ e ∈ a, p e = false) (hb : ∀ e ∈ b, p e = false) (hc : p c = true) (hd : p d = true)
    (h : a ++ c :: x = b ++ d :: y) : a = b ∧ c = d ∧ x = y := by
  induction a generalizing b with
  | nil =>
      cases b with
      | nil =>
          obtain ⟨hcd, hxy⟩ := List.cons.inj h
          exact ⟨rfl, hcd, hxy⟩
      | cons e b =>
          obtain ⟨rfl, -⟩ := List.cons.inj h
          simp [hc] at hb
  | cons e a ih =>
      cases b with
      | nil =>
          obtain ⟨rfl, -⟩ := List.cons.inj h
          simp [hd] at ha
      | cons f b =>
          obtain ⟨rfl, hrest⟩ := List.cons.inj h
          obtain ⟨rfl, hcd, hxy⟩ := ih (List.forall_mem_cons.mp ha).2 (List.forall_mem_cons.mp hb).2 hrest
          exact ⟨rfl, hcd, hxy⟩

section

variable {a gap x w v : Chars} {rest : List Chars}

theorem head?_spaced (rest : List Chars) (hv : IsSolid v) : ∀ c ∈ (spaced (v :: rest)).head?, isBlank c = false := by
  obtain ⟨c, tail, rfl⟩ := List.exists_cons_of_ne_nil hv.ne_nil
  intro d hd
  have hhead : (spaced ((c :: tail) :: rest)).head? = some c := by cases rest <;> rfl
  rw [hhead] at hd
  cases hd
  exact hv.solid _ List.mem_cons_self

/-- Where a gap meets the blank after a word, both end there and the same follows. -/
theorem eq_of_gap_eq_cons (ha : ∀ c ∈ a, isBlank c = false) (hw : ∀ c ∈ w, isBlank c = false)
    (hgap : IsGap gap) {y : Chars} (hy : ∀ c ∈ y.head?, isBlank c = false) {d : Char}
    (hd : isBlank d = true) (h : a ++ (gap ++ x) = w ++ d :: y) : a = w ∧ x = y := by
  obtain ⟨b, more, rfl⟩ := List.exists_cons_of_ne_nil hgap.1
  obtain ⟨hb, hmore⟩ := List.forall_mem_cons.mp hgap.2
  obtain ⟨haw, -, hrest⟩ := eq_of_append_cons_eq ha hw hb hd h
  cases more with
  | nil => exact ⟨haw, hrest⟩
  | cons e more =>
      have he : isBlank e = true := hmore e List.mem_cons_self
      have hnot : isBlank e = false := hy e (by rw [← hrest]; rfl)
      rw [he] at hnot
      cases hnot

theorem eq_of_gap_eq_blank (ha : ∀ c ∈ a, isBlank c = false) (hw : ∀ c ∈ w, isBlank c = false)
    (hgap : IsGap gap) {y : Chars} (hy : ∀ c ∈ y.head?, isBlank c = false)
    (h : a ++ (gap ++ x) = w ++ ' ' :: y) : a = w ∧ x = y :=
  eq_of_gap_eq_cons ha hw hgap hy (by decide) h

/-- A text that goes over a blank and ends spaced words starts in the first of them or later. -/
theorem suffix_spaced_cons (ha : ∀ c ∈ a, isBlank c = false) (hgap : IsGap gap) (hw : IsSolid w)
    (hv : IsSolid v) (h : a ++ (gap ++ x) <:+ spaced (w :: v :: rest)) :
    (a <:+ w ∧ x = spaced (v :: rest)) ∨ a ++ (gap ++ x) <:+ spaced (v :: rest) := by
  obtain ⟨before, hbefore⟩ := h
  have hhead := head?_spaced rest hv
  rw [spaced] at hbefore
  rcases List.append_eq_append_iff.mp hbefore with ⟨tail, rfl, htail⟩ | ⟨front, rfl, hfront⟩
  · have htailSolid : ∀ c ∈ tail, isBlank c = false := fun c hc =>
      hw.solid c (List.mem_append_right before hc)
    obtain ⟨rfl, hx⟩ := eq_of_gap_eq_blank ha htailSolid hgap hhead htail
    exact Or.inl ⟨List.suffix_append before a, hx⟩
  · cases front with
    | nil =>
        have hnone : ∀ c ∈ ([] : Chars), isBlank c = false := fun _ hc => absurd hc List.not_mem_nil
        obtain ⟨rfl, hx⟩ := eq_of_gap_eq_blank ha hnone hgap hhead hfront.symm
        exact Or.inl ⟨List.nil_suffix, hx⟩
    | cons c front =>
        obtain ⟨-, hrest⟩ := List.cons.inj hfront
        exact Or.inr ⟨front, hrest.symm⟩

/-- The last word has no blank to go over. -/
theorem not_suffix_of_isSolid (hgap : IsGap gap) (hw : IsSolid w) : ¬ a ++ (gap ++ x) <:+ w := by
  intro h
  obtain ⟨b, more, rfl⟩ := List.exists_cons_of_ne_nil hgap.1
  have hb : isBlank b = true := hgap.2 b List.mem_cons_self
  have hmem : b ∈ w := h.mem (by simp)
  rw [hw.solid b hmem] at hb
  cases hb

end

/-! ## The words of a call -/

section

variable {c : CallPieces} {v w y : Chars} {rest : List Chars}

theorem isSolid_of_any {w : String} (h : w.toList.any isBlank = false) (hne : w ≠ "") :
    IsSolid w.toList where
  ne_nil := by simpa using hne
  solid := eq_false_of_any h

/-- An option that stands before the subcommand has an equals sign in its word. -/
theorem reads_globalOption {text : Chars} (h : globalOption.Reads text []) :
    text = [] ∨ ∃ directory gap, IsGap gap ∧ (∀ d ∈ directory, isBlank d = false) ∧
      text = ("-chdir=".toList ++ directory) ++ gap := by
  rcases reads_optional.mp h with h | ⟨rfl, -⟩
  · obtain ⟨b, hb, rfl⟩ := reads_seq_word.mp h
    obtain ⟨directory, gap, hdirectory, hgap, rfl⟩ := (reads_seq_of_unmarked (by rfl)).mp hb
    obtain ⟨-, hsolid, -⟩ := reads_span1.mp hdirectory
    refine Or.inr ⟨directory, gap, (reads_blanks1.mp hgap).1, ?_, by simp⟩
    intro d hd
    have hd := hsolid d hd
    simp only [Bool.and_eq_true, Bool.not_eq_true'] at hd
    exact hd.1
  · exact Or.inl rfl

/-- After the tool the next word is the subcommand, if it has no equals sign. -/
theorem CallPieces.Fit.second_word {flags : List Pattern} (fit : c.Fit flags) (hv : IsSolid v)
    (hw : IsSolid w) (hplain : '=' ∉ v)
    (h : c.option ++ ("output".toList ++ (c.gapAfter ++ y)) = v ++ ' ' :: spaced (w :: rest)) :
    v = "output".toList ∧ y = spaced (w :: rest) := by
  have hhead := head?_spaced rest hw
  rcases reads_globalOption fit.option with hoption | ⟨directory, gap, hgap, hdirectory, hoption⟩
  · rw [hoption, List.nil_append] at h
    have houtput : ∀ d ∈ "output".toList, isBlank d = false := eq_false_of_any (by decide)
    obtain ⟨hverb, hy⟩ := eq_of_gap_eq_blank houtput hv.solid fit.gapAfter hhead h
    exact ⟨hverb.symm, hy⟩
  · rw [hoption, List.append_assoc] at h
    have hsolid : ∀ d ∈ "-chdir=".toList ++ directory, isBlank d = false := by
      intro d hd
      rcases List.mem_append.mp hd with hd | hd
      · exact eq_false_of_any (by decide : "-chdir=".toList.any isBlank = false) d hd
      · exact hdirectory d hd
    obtain ⟨rfl, -⟩ := eq_of_gap_eq_blank hsolid hv.solid hgap hhead h
    exact absurd (List.mem_append_left directory (by decide)) hplain

/-- The flags of a call are none, or a dash and a word that starts with a small letter, a gap, and
flags again. -/
theorem reads_flags {text : Chars} (h : (flagsOf outputFlags).Reads text []) :
    text = [] ∨ ∃ d flag gap more, d ∈ ['r', 'j', 'n', 's'] ∧ (∀ e ∈ d :: flag, isBlank e = false) ∧
      IsGap gap ∧ (flagsOf outputFlags).Reads more [] ∧ text = ('-' :: d :: flag) ++ (gap ++ more) := by
  rcases reads_many h with ⟨rfl, -⟩ | ⟨round, more, m, n, hround, hmore, rfl, -⟩
  · exact Or.inl rfl
  · obtain ⟨b, hb, rfl⟩ := reads_seq_word.mp hround
    obtain ⟨flag, gap, hflag, hgap, rfl⟩ := (reads_seq_of_unmarked (by rfl)).mp hb
    obtain rfl : n = [] := hmore.parts_eq_nil (by rfl)
    have hword : ∃ d tail, flag = d :: tail ∧ d ∈ ['r', 'j', 'n', 's'] ∧
        ∀ e ∈ flag, isBlank e = false := by
      obtain ⟨p, hp, hread⟩ := reads_oneOf.mp hflag
      simp only [outputFlags, List.mem_cons, List.not_mem_nil, or_false] at hp
      rcases hp with rfl | rfl | rfl | rfl
      · obtain ⟨rfl, -⟩ := reads_word.mp hread
        exact ⟨'r', _, rfl, by decide, eq_false_of_any (by decide)⟩
      · obtain ⟨rfl, -⟩ := reads_word.mp hread
        exact ⟨'j', _, rfl, by decide, eq_false_of_any (by decide)⟩
      · obtain ⟨rfl, -⟩ := reads_word.mp hread
        exact ⟨'n', _, rfl, by decide, eq_false_of_any (by decide)⟩
      · obtain ⟨name, state, _, _, hname, hstate, rfl, -⟩ := hread
        obtain ⟨rfl, -⟩ := reads_word.mp hname
        obtain ⟨-, hsolid, -⟩ := reads_span1.mp hstate
        refine ⟨'s', _, rfl, by decide, ?_⟩
        intro e he
        rcases List.mem_append.mp he with he | he
        · exact eq_false_of_any (by decide : "state=".toList.any isBlank = false) e he
        · simpa using hsolid e he
    obtain ⟨d, tail, rfl, hd, hsolid⟩ := hword
    exact Or.inr ⟨d, tail, gap, more, hd, hsolid, (reads_blanks1.mp hgap).1, hmore, by simp⟩

/-- No flag starts with a second dash. -/
theorem not_flags_dash (hflags : (flagsOf outputFlags).Reads c.flags [])
    (hy : ∀ d ∈ y.head?, d ≠ '-') {z : Chars} : c.flags ++ y ≠ '-' :: '-' :: z := by
  intro h
  rcases reads_flags hflags with hnone | ⟨d, flag, gap, more, hd, -, -, -, hflag⟩
  · rw [hnone, List.nil_append] at h
    exact hy '-' (by rw [h]; rfl) rfl
  · rw [hflag] at h
    obtain rfl : d = '-' := by
      simp only [List.cons_append, List.cons.injEq, true_and] at h
      exact h.1
    exact absurd hd (by decide)

/-- Of the flags and a name after them, the flag `-raw` is read and no other. -/
theorem eq_of_flags_raw (hflags : (flagsOf outputFlags).Reads c.flags [])
    (hy : ∀ d ∈ y.head?, d ≠ '-') (hw : IsSolid w) (hhead : ∀ d ∈ w.head?, d ≠ '-')
    (h : c.flags ++ y = spaced ["-raw".toList, w]) : y = w := by
  rcases reads_flags hflags with hnone | ⟨d, flag, gap, more, -, hsolid, hgap, hmore, hflag⟩
  · rw [hnone, List.nil_append] at h
    exact absurd rfl (hy '-' (by rw [h]; rfl))
  · rw [hflag, List.append_assoc, List.append_assoc] at h
    have hword : ∀ e ∈ '-' :: d :: flag, isBlank e = false :=
      List.forall_mem_cons.mpr ⟨by decide, hsolid⟩
    have hblankless : ∀ e ∈ w.head?, isBlank e = false := head?_spaced [] hw
    obtain ⟨-, hrest⟩ := eq_of_gap_eq_blank hword (eq_false_of_any (by decide)) hgap hblankless h
    rcases reads_flags hmore with rfl | ⟨e, other, _, _, -, -, -, -, rfl⟩
    · exact hrest
    · exact absurd rfl (hhead '-' (by rw [← hrest]; rfl))

end

/-- An identifier is a start and further characters. -/
theorem reads_identifier {text : Chars} (h : identifier.Reads text []) :
    ∃ d rest, text = d :: rest ∧ isIdentifierStart d = true ∧ ∀ e ∈ rest, isIdentifierChar e = true := by
  obtain ⟨first, rest, _, _, ⟨d, hd, rfl, -⟩, ⟨hrest, -⟩, rfl, -⟩ := h
  exact ⟨d, rest, rfl, hd, hrest⟩

theorem isIdentifierChar_of_start {d : Char} (h : isIdentifierStart d = true) :
    isIdentifierChar d = true := by
  simp only [isIdentifierStart, isIdentifierChar, Char.isAlphanum, Bool.or_eq_true] at h ⊢
  exact h.imp_left Or.inl

/-- All characters of an identifier are identifier characters. -/
theorem isIdentifierChar_of_mem {text : Chars} (h : ∃ c rest, text = c :: rest ∧
    isIdentifierStart c = true ∧ ∀ d ∈ rest, isIdentifierChar d = true) {d : Char} (hd : d ∈ text) :
    isIdentifierChar d = true := by
  obtain ⟨first, rest, rfl, hfirst, hrest⟩ := h
  rcases List.mem_cons.mp hd with rfl | hd
  · exact isIdentifierChar_of_start hfirst
  · exact hrest d hd

theorem ne_dash_of_isIdentifierStart {d : Char} (h : isIdentifierStart d = true) : d ≠ '-' := by
  rintro rfl
  exact absurd h (by decide)

/-! ## The command -/

/-- The characters of the name of a release or a chart: letters and digits of any script, and four
others. -/
def isArgumentChar (c : Char) : Bool := isWord c || c == '.' || c == '/' || c == '-'

/-- The characters of a key. -/
def isKeyChar (c : Char) : Bool := isWord c || c == '.' || c == '-'

/-- The names in a Helm command that sets one value from an output. -/
structure InlineSet where
  release : String
  chart : String
  key : String
  output : String
  release_ne : release ≠ ""
  release_chars : ∀ c ∈ release.toList, isArgumentChar c = true
  chart_ne : chart ≠ ""
  chart_chars : ∀ c ∈ chart.toList, isArgumentChar c = true
  key_ne : key ≠ ""
  key_chars : ∀ c ∈ key.toList, isKeyChar c = true
  output_identifier : ∃ c rest, output.toList = c :: rest ∧ isIdentifierStart c = true ∧
    ∀ d ∈ rest, isIdentifierChar d = true

/-- The command. -/
def InlineSet.command (u : InlineSet) : String :=
  "helm upgrade " ++ u.release ++ " " ++ u.chart ++ " --set " ++ u.key ++
    "=$(terraform output -raw " ++ u.output ++ ")"

theorem isArgumentChar_of_isKeyChar {c : Char} (h : isKeyChar c = true) : isArgumentChar c = true := by
  simp only [isKeyChar, isArgumentChar, Bool.or_eq_true] at h ⊢
  exact h.imp_left Or.inl

theorem isBlank_of_isArgumentChar {c : Char} (h : isArgumentChar c = true) : isBlank c = false := by
  simp only [isArgumentChar, Bool.or_eq_true, beq_iff_eq] at h
  rcases h with ((h | rfl) | rfl) | rfl
  · exact isBlank_eq_false_of_isWord h
  · decide
  · decide
  · decide

namespace InlineSet

variable (u : InlineSet)

/-- The last word: the output and the end of the substitution. -/
def lastWord : Chars := u.output.toList ++ [')']

/-- The words from the subcommand of the call on. -/
def callWords : List Chars := ["output".toList, "-raw".toList, u.lastWord]

/-- The word that holds the key and the start of the substitution. -/
def keyWord : Chars := u.key.toList ++ "=$(terraform".toList

theorem command_toList : u.command.toList = spaced (["helm".toList, "upgrade".toList,
    u.release.toList, u.chart.toList, "--set".toList, u.keyWord] ++ u.callWords) := by
  have hfront : "helm upgrade ".toList = "helm".toList ++ ' ' :: ("upgrade".toList ++ [' ']) := by decide
  have hflag : " --set ".toList = ' ' :: ("--set".toList ++ [' ']) := by decide
  have hcall : "=$(terraform output -raw ".toList =
      "=$(terraform".toList ++ ' ' :: ("output".toList ++ ' ' :: ("-raw".toList ++ [' '])) := by decide
  have hblank : " ".toList = [' '] := by decide
  have hclose : ")".toList = [')'] := by decide
  unfold command callWords lastWord keyWord
  simp only [String.toList_append, hfront, hflag, hcall, hblank, hclose, spaced, List.append_assoc,
    List.cons_append, List.nil_append]

/-! ### Its words -/

theorem isSolid_release : IsSolid u.release.toList where
  ne_nil := by simpa using u.release_ne
  solid c hc := isBlank_of_isArgumentChar (u.release_chars c hc)

theorem isSolid_chart : IsSolid u.chart.toList where
  ne_nil := by simpa using u.chart_ne
  solid c hc := isBlank_of_isArgumentChar (u.chart_chars c hc)

theorem isSolid_keyWord : IsSolid u.keyWord where
  ne_nil := by simp [keyWord]
  solid c hc := by
    rcases List.mem_append.mp hc with hc | hc
    · exact isBlank_of_isArgumentChar (isArgumentChar_of_isKeyChar (u.key_chars c hc))
    · exact eq_false_of_any (by decide : "=$(terraform".toList.any isBlank = false) c hc

theorem isIdentifierChar_of_mem_output {c : Char} (hc : c ∈ u.output.toList) :
    isIdentifierChar c = true :=
  isIdentifierChar_of_mem u.output_identifier hc

theorem isSolid_lastWord : IsSolid u.lastWord where
  ne_nil := by simp [lastWord]
  solid c hc := by
    rcases List.mem_append.mp hc with hc | hc
    · have hidentifier := u.isIdentifierChar_of_mem_output hc
      exact isBlank_eq_false_of_isIdentifierChar hidentifier
    · rw [List.mem_singleton.mp hc]
      decide

variable {a gap x : Chars}

/-- A text that goes over a blank and ends the command starts in one of its words. -/
theorem suffix_cases (ha : ∀ c ∈ a, isBlank c = false) (hgap : IsGap gap)
    (h : a ++ (gap ++ x) <:+ u.command.toList) :
    a <:+ "helm".toList ∨ a <:+ "upgrade".toList ∨
      (a <:+ u.release.toList ∧
        x = spaced (u.chart.toList :: "--set".toList :: u.keyWord :: u.callWords)) ∨
      (a <:+ u.chart.toList ∧ x = spaced ("--set".toList :: u.keyWord :: u.callWords)) ∨
      (a <:+ "--set".toList ∧ x = spaced (u.keyWord :: u.callWords)) ∨
      (a <:+ u.keyWord ∧ x = spaced u.callWords) ∨
      a <:+ "output".toList ∨ a <:+ "-raw".toList := by
  have helm : IsSolid "helm".toList := isSolid_of_any (by decide) (by decide)
  have upgrade : IsSolid "upgrade".toList := isSolid_of_any (by decide) (by decide)
  have flag : IsSolid "--set".toList := isSolid_of_any (by decide) (by decide)
  have output : IsSolid "output".toList := isSolid_of_any (by decide) (by decide)
  have raw : IsSolid "-raw".toList := isSolid_of_any (by decide) (by decide)
  rw [command_toList] at h
  rcases suffix_spaced_cons ha hgap helm upgrade h with ⟨hw, -⟩ | h
  · exact Or.inl hw
  rcases suffix_spaced_cons ha hgap upgrade u.isSolid_release h with ⟨hw, -⟩ | h
  · exact Or.inr (Or.inl hw)
  rcases suffix_spaced_cons ha hgap u.isSolid_release u.isSolid_chart h with hw | h
  · exact Or.inr (Or.inr (Or.inl hw))
  rcases suffix_spaced_cons ha hgap u.isSolid_chart flag h with hw | h
  · exact Or.inr (Or.inr (Or.inr (Or.inl hw)))
  rcases suffix_spaced_cons ha hgap flag u.isSolid_keyWord h with hw | h
  · exact Or.inr (Or.inr (Or.inr (Or.inr (Or.inl hw))))
  rcases suffix_spaced_cons ha hgap u.isSolid_keyWord output h with hw | h
  · exact Or.inr (Or.inr (Or.inr (Or.inr (Or.inr (Or.inl hw)))))
  rcases suffix_spaced_cons ha hgap output raw h with ⟨hw, -⟩ | h
  · exact Or.inr (Or.inr (Or.inr (Or.inr (Or.inr (Or.inr (Or.inl hw))))))
  rcases suffix_spaced_cons ha hgap raw u.isSolid_lastWord h with ⟨hw, -⟩ | h
  · exact Or.inr (Or.inr (Or.inr (Or.inr (Or.inr (Or.inr (Or.inr hw))))))
  · exact absurd h (not_suffix_of_isSolid hgap u.isSolid_lastWord)

/-! ### The call in it -/

variable {c : CallPieces} {after before rest : Chars} {m : Match}

/-- A call that goes on with the words of this call, and ends where its name ends, names its output. -/
theorem call_name (fit : c.Fit outputFlags) (hafter : ∀ d ∈ after.head?, isIdentifierChar d = false)
    (h : c.option ++ ("output".toList ++ (c.gapAfter ++ (c.flags ++ (c.name ++ after)))) =
      spaced u.callWords) : c.name = u.output.toList := by
  have output : IsSolid "output".toList := isSolid_of_any (by decide) (by decide)
  have raw : IsSolid "-raw".toList := isSolid_of_any (by decide) (by decide)
  obtain ⟨-, hflags⟩ := fit.second_word output raw (by decide) h
  obtain ⟨d, tail, hname, hd, htail⟩ := reads_identifier fit.name
  obtain ⟨e, _, houtput, he, -⟩ := u.output_identifier
  have hnameHead : ∀ f ∈ (c.name ++ after).head?, f ≠ '-' := by
    intro f hf
    rw [hname] at hf
    cases hf
    exact ne_dash_of_isIdentifierStart hd
  have houtputHead : ∀ f ∈ u.lastWord.head?, f ≠ '-' := by
    intro f hf
    rw [lastWord, houtput] at hf
    cases hf
    exact ne_dash_of_isIdentifierStart he
  have hlast : c.name ++ after = u.lastWord :=
    eq_of_flags_raw fit.flags hnameHead u.isSolid_lastWord houtputHead hflags
  have hnameChars : ∀ f ∈ c.name, isIdentifierChar f = true := by
    rw [hname]
    exact List.forall_mem_cons.mpr ⟨isIdentifierChar_of_start hd, htail⟩
  -- Both names end where the first character stands that is none of an identifier.
  cases after with
  | nil =>
      have hclose : isIdentifierChar ')' = true := hnameChars ')' (by
        rw [List.append_nil] at hlast
        rw [hlast, lastWord]
        simp)
      exact absurd hclose (by decide)
  | cons f after =>
      have hstop : (!isIdentifierChar f) = true := by simp [hafter f rfl]
      have hcloseStop : (!isIdentifierChar ')') = true := by decide
      have hnames : ∀ e ∈ c.name, (!isIdentifierChar e) = false := fun e he => by simp [hnameChars e he]
      have houtputs : ∀ e ∈ u.output.toList, (!isIdentifierChar e) = false := fun e he => by
        simp [u.isIdentifierChar_of_mem_output he]
      exact (eq_of_append_cons_eq (p := fun e => !isIdentifierChar e) hnames houtputs hstop hcloseStop
        hlast).1

/-- A character that no argument has is in none of the names. -/
theorem notMem_names {d : Char} (hd : isArgumentChar d = false) : d ∉ u.release.toList ∧
    d ∉ u.chart.toList ∧ d ∉ u.key.toList ∧ d ∉ u.output.toList := by
  have outside : ∀ {text : Chars}, (∀ c ∈ text, isArgumentChar c = true) → d ∉ text := by
    intro text hall hmem
    rw [hall d hmem] at hd
    cases hd
  refine ⟨outside u.release_chars, outside u.chart_chars, outside fun c hc => ?_, outside fun c hc => ?_⟩
  · exact isArgumentChar_of_isKeyChar (u.key_chars c hc)
  · have hword := isWord_of_isIdentifierChar (u.isIdentifierChar_of_mem_output hc)
    simp [isArgumentChar, hword]

theorem equals_notMem_chart : '=' ∉ u.chart.toList := (u.notMem_names (by decide)).2.1

/-- Every call that is found in the command names its output. -/
theorem part_of_outputCall (hsplit : u.command.toList = before ++ rest)
    (h : outputCall.matchBetween before rest = some m) : m.part 1 = u.output.toList := by
  obtain ⟨-, hreads⟩ := reads_of_matchBetween h
  obtain ⟨c, fit, hwhole, hmarks⟩ := reads_outputCall.mp hreads
  obtain ⟨after, hrest, hafter⟩ := outputCall_longest h
  have hname : m.part 1 = c.name := by simp [Match.part, Match.part?, hmarks]
  rw [hname]
  have hcall : "terraform".toList ++ (c.gap ++ (c.option ++ ("output".toList ++ (c.gapAfter ++
      (c.flags ++ (c.name ++ after)))))) <:+ u.command.toList := by
    rw [hsplit, hrest, hwhole]
    refine ⟨before, ?_⟩
    simp [CallPieces.tail]
  obtain ⟨d, tail, hnameText, hd, -⟩ := reads_identifier fit.name
  rcases u.suffix_cases (eq_false_of_any (by decide)) fit.gap hcall with
    hw | hw | ⟨-, hx⟩ | ⟨-, hx⟩ | ⟨hw, -⟩ | ⟨-, hx⟩ | hw | hw
  · exact absurd hw (by decide)
  · exact absurd hw (by decide)
  · -- The tool is the release: then the chart is its subcommand, and `--set` is no flag of it.
    have flag : IsSolid "--set".toList := isSolid_of_any (by decide) (by decide)
    obtain ⟨-, hflags⟩ := fit.second_word u.isSolid_chart flag u.equals_notMem_chart hx
    have hhead : ∀ e ∈ (c.name ++ after).head?, e ≠ '-' := by
      intro e he
      rw [hnameText] at he
      cases he
      exact ne_dash_of_isIdentifierStart hd
    exact absurd hflags (not_flags_dash fit.flags hhead)
  · -- The tool is the chart: `--set` is no subcommand.
    have flag : IsSolid "--set".toList := isSolid_of_any (by decide) (by decide)
    obtain ⟨hverb, -⟩ := fit.second_word flag u.isSolid_keyWord (by decide) hx
    exact absurd hverb (by decide)
  · exact absurd hw (by decide)
  · exact u.call_name fit hafter hx
  · exact absurd hw (by decide)
  · exact absurd hw (by decide)

/-! ### The set flag in it -/

variable {f : FlagPieces} {w v z : Chars} {words : List Chars}

/-- The call in the command. -/
def call : CallPieces where
  gap := [' ']
  option := []
  gapAfter := [' ']
  flags := "-raw ".toList
  name := u.output.toList

/-- The set flag in the command. -/
def flag : FlagPieces where
  variant := []
  between := [' ']
  key := u.key.toList
  quote := []
  space := []
  call := u.call
  spaceAfter := []

theorem call_fit : u.call.Fit inlineFlags where
  gap := isGap_blank
  option := reads_optional.mpr (Or.inr ⟨rfl, rfl⟩)
  gapAfter := isGap_blank
  flags := by
    have hraw : (oneOf inlineFlags).Reads "raw".toList [] :=
      reads_oneOf.mpr ⟨word "raw", List.mem_cons_self, reads_word.mpr ⟨rfl, rfl⟩⟩
    have hround : (seq [word "-", oneOf inlineFlags, blanks1]).Reads "-raw ".toList [] := by
      refine reads_seq_word.mpr ⟨"raw".toList ++ [' '], ?_, by decide⟩
      exact (reads_seq_of_unmarked (by rfl)).mpr ⟨_, [' '], hraw, reads_blanks1.mpr ⟨isGap_blank, rfl⟩, rfl⟩
    refine ⟨[("-raw ".toList, [])], ?_, by simp [call], rfl⟩
    simpa using hround
  name := by
    obtain ⟨c, rest, houtput, hc, hrest⟩ := u.output_identifier
    exact ⟨[c], rest, [], [], ⟨c, hc, rfl, rfl⟩, ⟨hrest, rfl⟩, houtput, rfl⟩

/-- What stands before the set flag. -/
def opening : Chars := "helm upgrade ".toList ++ (u.release.toList ++ ' ' :: (u.chart.toList ++ [' ']))

theorem flag_text : u.flag.text = "--set".toList ++ ' ' :: (u.key.toList ++ '=' :: ("$(".toList ++
    ("terraform".toList ++ ' ' :: ("output".toList ++ ' ' :: ("-raw ".toList ++
      (u.output.toList ++ ")".toList)))))) := by
  simp [flag, call, FlagPieces.text_eq, FlagPieces.substitution, CallPieces.tail]

theorem command_eq_flag : u.command.toList = u.opening ++ u.flag.text := by
  have hflag : " --set ".toList = ' ' :: ("--set".toList ++ [' ']) := by decide
  have hcall : "=$(terraform output -raw ".toList =
      '=' :: ("$(".toList ++ ("terraform".toList ++ ' ' :: ("output".toList ++ ' ' :: "-raw ".toList))) := by
    decide
  have hblank : " ".toList = [' '] := by decide
  rw [flag_text]
  unfold command opening
  simp only [String.toList_append, hflag, hcall, hblank, List.append_assoc, List.cons_append,
    List.nil_append]

/-- The call stands in the command after an opening bracket. -/
theorem command_eq_call : ∃ front, u.command.toList =
    (front ++ "$(".toList) ++ ("terraform".toList ++ (u.call.tail ++ ")".toList)) := by
  refine ⟨u.opening ++ ("--set".toList ++ ' ' :: (u.key.toList ++ ['='])), ?_⟩
  rw [command_eq_flag]
  simp [FlagPieces.text_eq, FlagPieces.substitution, flag]

/-- The output is among those that the command names. -/
theorem output_mem_outputNames : u.output ∈ outputNames u.command.toList := by
  obtain ⟨front, hcommand⟩ := u.command_eq_call
  have hreads : outputCall.Reads ("terraform".toList ++ u.call.tail) [(1, u.call.name)] :=
    reads_outputCall.mpr ⟨u.call, u.call_fit.output, rfl, rfl⟩
  have hmatch : (outputCall.matchBetween (front ++ "$(".toList)
      ("terraform".toList ++ (u.call.tail ++ ")".toList))).isSome = true :=
    isSome_matchBetween hreads (by rfl) ⟨")".toList, by simp⟩ _
  obtain ⟨found, hfound, before, rest, hsplit, -, hfoundAt⟩ := exists_mem_findAll (by simp) hmatch
  rw [← hcommand] at hfound hsplit
  refine mem_distinct.mpr (List.mem_flatMap.mpr ⟨outputCall, List.mem_cons_self, ?_⟩)
  refine List.mem_map.mpr ⟨found, hfound, ?_⟩
  rw [u.part_of_outputCall hsplit hfoundAt, String.ofList_toList]

end InlineSet

end DeployTrace
