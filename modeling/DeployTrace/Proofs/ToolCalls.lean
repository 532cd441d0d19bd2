/-
  DeployTrace/Proofs/ToolCalls.lean --- a call of a tool is taken as it stands.

  WHAT THIS FILE IS FOR.  The kind of a step is decided by calls of tools, and a call is looked for by a
  pattern that goes over a gap and a list of subcommands.  What such a pattern takes could depend on what
  stands after the call.  It does not (`selfContained_of_mem_calls`): a gap ends at the first letter of
  what follows, the option is told by its dash, and of the subcommands of one program none starts with
  another one, in small letters or in capitals.
-/
import DeployTrace.Proofs.CallLines
import DeployTrace.Proofs.StepKinds

set_option autoImplicit false

namespace DeployTrace

open Text Pattern

/-! ## Letters without case -/

section

variable {letter other c : Char}

theorem caseRuns_apart :
    blankRanges.all (fun r => caseRuns.all fun s => r.2 < s.first || s.last < r.1) = true := by
  decide +kernel

theorem toLower_eq_self (h : c.toNat ≤ 32) : c.toLower = c := by
  unfold Char.toLower
  split
  · rename_i hcapital
    have hle : 'A'.toNat ≤ c.toNat := UInt32.le_iff_toNat_le.mp hcapital.1
    exact absurd (Nat.le_trans hle h) (by decide)
  · rfl

/-- A blank is its own small letter. -/
theorem lowerChar_of_isBlank (h : isBlank c = true) : lowerChar c = c := by
  unfold isBlank at h
  unfold lowerChar
  split at h
  · rename_i hascii
    simp only [Bool.or_eq_true, Bool.and_eq_true, beq_iff_eq, decide_eq_true_eq] at h
    rw [if_pos hascii, toLower_eq_self (by omega)]
  · rename_i hascii
    have hdotted : (c.toNat == 0x130) = false := by
      refine beq_false_of_ne fun heq => ?_
      obtain ⟨r, hr, hlow, hhigh⟩ := (Ranges.holds_iff _ _).mp h
      have hapart : blankRanges.all (fun r => 0x130 < r.1 || r.2 < 0x130) = true := by decide +kernel
      have hr := List.all_eq_true.mp hapart r hr
      simp only [Bool.or_eq_true, decide_eq_true_eq] at hr
      omega
    have hnone : caseRuns.find? (·.covers c.toNat) = none := by
      refine List.find?_eq_none.mpr fun s hs hcovers => ?_
      simp only [CaseRun.covers, Bool.and_eq_true, decide_eq_true_eq] at hcovers
      obtain ⟨r, hr, hlow, hhigh⟩ := (Ranges.holds_iff _ _).mp h
      have hapart := List.all_eq_true.mp (List.all_eq_true.mp caseRuns_apart r hr) s hs
      simp only [Bool.or_eq_true, decide_eq_true_eq] at hapart
      omega
    rw [if_neg hascii, hdotted, hnone]
    rfl

theorem eq_of_toNat_eq {c d : Char} (h : c.toNat = d.toNat) : c = d :=
  Char.ext (UInt32.toNat_inj.mp h)

/-- The ways in which a character matches a letter. -/
theorem matchesIgnoringCase_iff : matchesIgnoringCase letter c = true ↔
    lowerChar c = letter ∨ (letter = 'i' ∧ c = 'ı') ∨ (letter = 's' ∧ c = 'ſ') := by
  have hdotless : c.toNat = 0x131 ↔ c = 'ı' := ⟨fun h => eq_of_toNat_eq h, fun h => h ▸ rfl⟩
  have hlong : c.toNat = 0x17F ↔ c = 'ſ' := ⟨fun h => eq_of_toNat_eq h, fun h => h ▸ rfl⟩
  simp only [matchesIgnoringCase, Bool.or_eq_true, Bool.and_eq_true, beq_iff_eq, or_assoc, hdotless, hlong]

/-- A letter that is no blank matches none. -/
theorem isBlank_of_matchesIgnoringCase (h : matchesIgnoringCase letter c = true)
    (hletter : isBlank letter = false) : isBlank c = false := by
  rcases matchesIgnoringCase_iff.mp h with hsmall | ⟨-, rfl⟩ | ⟨-, rfl⟩
  · cases hblank : isBlank c with
    | false => rfl
    | true => rw [← hsmall, lowerChar_of_isBlank hblank, hblank] at hletter; exact hletter
  · decide
  · decide

/-- A character matches one letter of ASCII at most. -/
theorem eq_of_matchesIgnoringCase (h : matchesIgnoringCase letter c = true)
    (h' : matchesIgnoringCase other c = true) (hletter : letter.toNat < 128) (hother : other.toNat < 128) :
    letter = other := by
  have hdotless : lowerChar 'ı' = 'ı' := by decide +kernel
  have hlong : lowerChar 'ſ' = 'ſ' := by decide +kernel
  rcases matchesIgnoringCase_iff.mp h with rfl | ⟨rfl, rfl⟩ | ⟨rfl, rfl⟩ <;>
    rcases matchesIgnoringCase_iff.mp h' with rfl | ⟨rfl, hc⟩ | ⟨rfl, hc⟩
  · rfl
  · rw [hc, hdotless] at hletter
    exact absurd hletter (by decide)
  · rw [hc, hlong] at hletter
    exact absurd hletter (by decide)
  · rw [hdotless] at hother
    exact absurd hother (by decide)
  · rfl
  · exact absurd hc (by decide)
  · rw [hlong] at hother
    exact absurd hother (by decide)
  · exact absurd hc (by decide)
  · rfl

end

/-! ## Words without case -/

/-- The letters of a word, matched without regard to case. -/
def lettersOf (letters : Chars) : Pattern := seq (letters.map fun c => char (matchesIgnoringCase c))

section

variable {u v x y text rest : Chars} {parts : List (Nat × Chars)}

theorem takes_lettersOf (h : (lettersOf u).Reads text parts) : (lettersOf u).Takes text parts rest := by
  unfold lettersOf at h ⊢
  induction u generalizing text parts with
  | nil =>
      obtain ⟨rfl, rfl⟩ := h
      exact takes_nothing
  | cons letter u ih =>
      obtain ⟨a, b, m, n, ⟨c, hc, rfl, rfl⟩, hmore, rfl, rfl⟩ := reads_seq_cons.mp h
      exact takes_seq_cons (takes_char hc) (ih hmore)

/-- Words that are read at one place start alike. -/
theorem prefix_of_reads_lettersOf (hu : ∀ c ∈ u, c.toNat < 128) (hv : ∀ c ∈ v, c.toNat < 128)
    {m n : List (Nat × Chars)} (hx : (lettersOf u).Reads x m) (hy : (lettersOf v).Reads y n)
    (hxt : x <+: text) (hyt : y <+: text) : u <+: v ∨ v <+: u := by
  unfold lettersOf at hx hy
  induction u generalizing v x y text m n with
  | nil => exact Or.inl List.nil_prefix
  | cons letter u ih =>
      cases v with
      | nil => exact Or.inr List.nil_prefix
      | cons other v =>
          obtain ⟨_, x, _, _, ⟨c, hc, rfl, rfl⟩, hmoreX, rfl, -⟩ := reads_seq_cons.mp hx
          obtain ⟨_, y, _, _, ⟨d, hd, rfl, rfl⟩, hmoreY, rfl, -⟩ := reads_seq_cons.mp hy
          obtain ⟨hletter, huMore⟩ := List.forall_mem_cons.mp hu
          obtain ⟨hother, hvMore⟩ := List.forall_mem_cons.mp hv
          obtain ⟨restX, rfl⟩ := hxt
          obtain ⟨restY, hsame⟩ := hyt
          obtain ⟨rfl, hmore⟩ := List.cons.inj hsame
          obtain rfl := eq_of_matchesIgnoringCase hc hd hletter hother
          have hprefix := ih huMore hvMore hmoreX hmoreY (List.prefix_append x restX) ⟨restY, hmore⟩
          rwa [List.cons_prefix_cons, List.cons_prefix_cons, and_iff_right rfl, and_iff_right rfl]

/-- Where one word is read, a word that does not start alike is refused. -/
theorem refuses_lettersOf (hu : ∀ c ∈ u, c.toNat < 128) (hv : ∀ c ∈ v, c.toNat < 128)
    (hread : (lettersOf v).Reads text parts) (happart : ¬ u <+: v ∧ ¬ v <+: u) :
    (lettersOf u).Refuses (text ++ rest) := by
  intro read m hreads hstands
  rcases prefix_of_reads_lettersOf hu hv hreads hread hstands (List.prefix_append text rest) with h | h
  · exact happart.1 h
  · exact happart.2 h

/-- What is read of a word starts as solid as the word does. -/
theorem head?_of_reads_lettersOf (hu : ∀ c ∈ u, isBlank c = false) (hne : u ≠ [])
    (h : (lettersOf u).Reads text parts) : ∃ c more, text = c :: more ∧ isBlank c = false := by
  obtain ⟨letter, u, rfl⟩ := List.exists_cons_of_ne_nil hne
  obtain ⟨_, more, _, _, ⟨c, hc, rfl, rfl⟩, -, rfl, -⟩ := reads_seq_cons.mp h
  exact ⟨c, more, rfl, isBlank_of_matchesIgnoringCase hc (hu letter List.mem_cons_self)⟩

end

/-! ## Calls -/

/-- Words of letters that can be told apart at their starts. -/
def Distinguishable (words : List String) : Prop :=
  (∀ w ∈ words, w.toList ≠ [] ∧ ∀ c ∈ w.toList, c.toNat < 128 ∧ isBlank c = false) ∧
    ∀ w ∈ words, ∀ v ∈ words, w = v ∨ ¬ w.toList <+: v.toList ∧ ¬ v.toList <+: w.toList

instance (words : List String) : Decidable (Distinguishable words) :=
  have (w : String) : Decidable (∀ c ∈ w.toList, c.toNat < 128 ∧ isBlank c = false) :=
    List.decidableBAll (fun c => c.toNat < 128 ∧ isBlank c = false) w.toList
  inferInstanceAs (Decidable (_ ∧ _))

/-- A pattern without edges that takes every reading of itself whatever follows, and whose readings start
with a character that is not blank. -/
structure Text.Pattern.SelfContained (p : Pattern) : Prop where
  edgeless : p.edgeless = true
  takes : ∀ {text rest : Chars} {parts : List (Nat × Chars)}, p.Reads text parts → p.Takes text parts rest
  solid : ∀ {text : Chars} {parts : List (Nat × Chars)}, p.Reads text parts →
    ∃ c more, text = c :: more ∧ isBlank c = false

section

variable {program : String} {between : Pattern} {subcommands : List String}

theorem Distinguishable.plain {words : List String} (h : Distinguishable words) {w : String} (hw : w ∈ words) :
    ∀ c ∈ w.toList, c.toNat < 128 :=
  fun c hc => ((h.1 w hw).2 c hc).1

theorem Distinguishable.solid {words : List String} (h : Distinguishable words) {w : String} (hw : w ∈ words)
    {text : Chars} {parts : List (Nat × Chars)} (hread : (wordIgnoringCase w).Reads text parts) :
    ∃ c more, text = c :: more ∧ isBlank c = false :=
  head?_of_reads_lettersOf (fun c hc => ((h.1 w hw).2 c hc).2) (h.1 w hw).1 hread

/-- Where one of some words is read, another one is refused. -/
theorem Distinguishable.refuses {words : List String} (h : Distinguishable words) {w v : String}
    (hw : w ∈ words) (hv : v ∈ words) {text rest : Chars} {parts : List (Nat × Chars)}
    (hread : (wordIgnoringCase v).Reads text parts) :
    w = v ∨ (wordIgnoringCase w).Refuses (text ++ rest) :=
  (h.2 w hw v hv).imp id (refuses_lettersOf (h.plain hw) (h.plain hv) hread)

section

variable {text rest : Chars} {parts : List (Nat × Chars)}

/-- One of some words is taken where it is read. -/
theorem takes_wordsIgnoringCase (hsubcommands : Distinguishable subcommands)
    (h : (oneOf (subcommands.map wordIgnoringCase)).Reads text parts) :
    (oneOf (subcommands.map wordIgnoringCase)).Takes text parts rest := by
  obtain ⟨p, hp, hread⟩ := reads_oneOf.mp h
  obtain ⟨v, hv, rfl⟩ := List.mem_map.mp hp
  refine takes_oneOf_of_mem hp (takes_lettersOf hread) fun q hq => ?_
  obtain ⟨w, hw, rfl⟩ := List.mem_map.mp hq
  exact (hsubcommands.refuses hw hv hread).imp (congrArg _) id

/-- Whether a call has an option is told by what stands before its subcommand. -/
theorem takes_directoryOption {v : String} (hv : v ∈ subcommands) (hother : "-chdir=" ∉ subcommands)
    (hsubcommands : Distinguishable ("-chdir=" :: subcommands)) {option sub : Chars}
    {m n : List (Nat × Chars)} (hoption : directoryOption.Reads option m)
    (hsub : (wordIgnoringCase v).Reads sub n) : directoryOption.Takes option m (sub ++ rest) := by
  have hmem := List.mem_cons_of_mem "-chdir=" hv
  rcases reads_optional.mp hoption with hread | ⟨rfl, rfl⟩
  · obtain ⟨flag, _, _, _, hflag, hmore, rfl, rfl⟩ := reads_seq_cons.mp hread
    obtain ⟨directory, gap, hdirectory, hgapRead, rfl⟩ := (reads_seq_of_unmarked (by rfl)).mp hmore
    obtain ⟨hgap, rfl⟩ := reads_blanks1.mp hgapRead
    obtain ⟨c, more, rfl, hc⟩ := hsubcommands.solid hmem hsub
    have htakesGap : (seq [blanks1]).Takes gap [] (c :: more ++ rest) := takes_gap hgap fun d hd => by
      cases hd
      exact hc
    have htakesDirectory := takes_seq_cons (takes_solid hdirectory (head?_gap hgap (c :: more ++ rest))) htakesGap
    exact takes_left (takes_seq_cons (takes_lettersOf hflag) htakesDirectory)
  · have hrefuses : (wordIgnoringCase "-chdir=").Refuses (sub ++ rest) := by
      refine (hsubcommands.refuses List.mem_cons_self hmem hsub).resolve_left ?_
      rintro rfl
      exact hother hv
    exact takes_right hrefuses.seq takes_nothing

/-- A call of a program whose subcommands can be told apart is taken as it stands. -/
theorem selfContained_callOf (hedgeless : (callOf program between subcommands).edgeless = true)
    (hprogram : Distinguishable [program]) (hsubcommands : Distinguishable subcommands)
    (hbetween : between = nothing ∨ between = directoryOption ∧ "-chdir=" ∉ subcommands ∧
      Distinguishable ("-chdir=" :: subcommands)) :
    (callOf program between subcommands).SelfContained where
  edgeless := hedgeless
  solid h := by
    obtain ⟨called, _, _, _, hcalled, -, rfl, -⟩ := reads_seq_cons.mp h
    obtain ⟨c, more, rfl, hc⟩ := hprogram.solid (List.mem_singleton_self program) hcalled
    exact ⟨c, _, rfl, hc⟩
  takes {text rest parts} h := by
    obtain ⟨called, _, _, _, hcalled, hafter, rfl, rfl⟩ := reads_seq_cons.mp h
    obtain ⟨gap, _, hgapRead, hmore, rfl⟩ := (reads_seq_of_unmarked (by rfl)).mp hafter
    obtain ⟨option, sub, m, _, hoption, ⟨n, hsub, rfl⟩, rfl, rfl⟩ := reads_seq_cons.mp hmore
    obtain ⟨hgap, -⟩ := reads_blanks1.mp hgapRead
    obtain ⟨p, hp, hv⟩ := reads_oneOf.mp hsub
    obtain ⟨v, hmem, rfl⟩ := List.mem_map.mp hp
    obtain ⟨c, tail, rfl, hc⟩ := hsubcommands.solid hmem hv
    have htakesSub : (seq [mark 1 (oneOf (subcommands.map wordIgnoringCase))]).Takes (c :: tail) _ rest :=
      takes_mark (takes_wordsIgnoringCase hsubcommands hsub)
    obtain ⟨htakesOption, hsolid⟩ : between.Takes option m (c :: tail ++ rest) ∧
        (option = [] ∨ ∃ d more, option = d :: more ∧ isBlank d = false) := by
      rcases hbetween with rfl | ⟨rfl, hother, hflags⟩
      · obtain ⟨rfl, rfl⟩ := hoption
        exact ⟨takes_nothing, Or.inl rfl⟩
      · refine ⟨takes_directoryOption hmem hother hflags hoption hv, ?_⟩
        rcases reads_optional.mp hoption with hread | ⟨rfl, -⟩
        · obtain ⟨flag, _, _, _, hflag, -, rfl, -⟩ := reads_seq_cons.mp hread
          obtain ⟨d, more, rfl, hd⟩ := hflags.solid List.mem_cons_self hflag
          exact Or.inr ⟨d, _, rfl, hd⟩
        · exact Or.inl rfl
    have hhead : ∀ d ∈ (option ++ c :: tail ++ rest).head?, isBlank d = false := by
      intro d hd
      rcases hsolid with rfl | ⟨e, more, rfl, he⟩
      · cases hd
        exact hc
      · cases hd
        exact he
    have htakesAfter := takes_seq_cons (takes_gap hgap hhead) (takes_seq_cons htakesOption htakesSub)
    rw [List.append_nil] at htakesAfter
    exact takes_seq_cons (takes_lettersOf hcalled) htakesAfter

end

end

/-- The calls by which tools are told. -/
theorem selfContained_of_mem_calls {tool : Tool} (htool : tool ∈ tools) {call : Pattern}
    (hcall : call ∈ tool.calls) : call.SelfContained := by
  simp only [tools, List.mem_cons, List.not_mem_nil, or_false] at htool
  rcases htool with rfl | rfl | rfl | rfl <;>
    simp only [List.mem_cons, List.not_mem_nil, or_false] at hcall
  · rcases hcall with rfl | rfl | rfl
    · exact selfContained_callOf (by rfl) (by decide) (by decide) (Or.inr ⟨rfl, by decide, by decide⟩)
    · exact selfContained_callOf (by rfl) (by decide) (by decide) (Or.inr ⟨rfl, by decide, by decide⟩)
    · exact selfContained_callOf (by rfl) (by decide) (by decide) (Or.inl rfl)
  · rcases hcall with rfl | rfl <;> exact selfContained_callOf (by rfl) (by decide) (by decide) (Or.inl rfl)
  · subst hcall
    exact selfContained_callOf (by rfl) (by decide) (by decide) (Or.inl rfl)
  · rcases hcall with rfl | rfl | rfl <;> exact selfContained_callOf (by rfl) (by decide) (by decide) (Or.inl rfl)

end DeployTrace
