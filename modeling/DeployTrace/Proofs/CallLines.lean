/-
  DeployTrace/Proofs/CallLines.lean --- the outputs that two lines name.

  WHAT THIS FILE IS FOR.  A command ends with its line.  The search for calls does not know that: a line
  end is a blank, and blanks stand between the words of a call.  So a call at the end of one line can
  take its output from the next.

      terraform output            The second line names the output `vpc`.
      terraform output vpc        Both lines together name the output `terraform` and no other.

  Where no match goes over the line end, both lines together name what each of them names
  (`mem_outputNames_lines`).

  HOW IT IS PROVED.  A search that is cut off at the line end must find what the whole search finds
  before it.  It does, because a match depends on the text after it only through the first character
  there: a bare call ends where its name ends, and the other two forms have a closing character
  (`Pattern.StopsAt`).
-/
import DeployTrace.Proofs.InlineCommand
import DeployTrace.Proofs.ShellWords

set_option autoImplicit false

namespace DeployTrace

open Text Pattern Shell.Terraform

/-! ## Calls as they are taken -/

section

variable {c : CallPieces} {text rest gap flag option : Chars} {parts : List (Nat × Chars)}

theorem takes_gap (hgap : IsGap gap) (hend : ∀ d ∈ rest.head?, isBlank d = false) :
    blanks1.Takes gap [] rest :=
  takes_span1 hgap.1 hgap.2 hend

/-- A text without blanks goes on to the next blank. -/
theorem takes_solid (h : (solid1 []).Reads text []) (hend : ∀ d ∈ rest.head?, isBlank d = true) :
    (solid1 []).Takes text [] rest := by
  obtain ⟨hne, hall, -⟩ := reads_span1.mp h
  refine takes_span1 hne hall fun d hd => ?_
  simp [hend d hd]

theorem head?_gap (hgap : IsGap gap) (rest : Chars) : ∀ d ∈ (gap ++ rest).head?, isBlank d = true := by
  obtain ⟨b, more, rfl⟩ := List.exists_cons_of_ne_nil hgap.1
  intro d hd
  cases hd
  exact hgap.2 _ List.mem_cons_self

theorem takes_globalOption (h : globalOption.Reads option [])
    (hend : ∀ d ∈ rest.head?, isBlank d = false ∧ d ≠ '-') : globalOption.Takes option [] rest := by
  rcases reads_optional.mp h with h | ⟨rfl, -⟩
  · obtain ⟨afterWord, hafterWord, rfl⟩ := reads_seq_word.mp h
    obtain ⟨directory, gap, hdirectory, hgap, rfl⟩ := (reads_seq_of_unmarked (by rfl)).mp hafterWord
    have hgap := (reads_blanks1.mp hgap).1
    have htakesGap : (seq [blanks1]).Takes gap [] rest := takes_gap hgap fun d hd => (hend d hd).1
    have htakes := takes_seq_cons (takes_solid hdirectory (head?_gap hgap rest)) htakesGap
    exact takes_left (takes_seq_word htakes)
  · refine takes_right (refuses_word ?_).seq takes_nothing
    refine Shell.not_prefix_of_head (d := '-') (by decide) fun hhead => ?_
    exact (hend '-' hhead).2 rfl

/-- The first letters of the flags tell them apart. -/
theorem takes_flagName (h : (oneOf outputFlags).Reads flag [])
    (hend : ∀ d ∈ rest.head?, isBlank d = true) : (oneOf outputFlags).Takes flag [] rest := by
  have apart : ∀ {w : String} {d e : Char}, w.toList.head? = some d → flag.head? = some e → e ≠ d →
      (word w).Refuses (flag ++ rest) := by
    intro w d e hw hflag hne
    refine refuses_word (Shell.not_prefix_of_head hw fun hhead => hne ?_)
    rw [List.head?_append, hflag] at hhead
    exact Option.some.inj hhead
  obtain ⟨p, hp, hread⟩ := reads_oneOf.mp h
  simp only [outputFlags, List.mem_cons, List.not_mem_nil, or_false] at hp
  rcases hp with rfl | rfl | rfl | rfl
  · obtain ⟨rfl, -⟩ := reads_word.mp hread
    exact takes_oneOf_head (takes_word "raw")
  · obtain ⟨rfl, -⟩ := reads_word.mp hread
    refine takes_oneOf_tail (apart (d := 'r') (e := 'j') (by decide) (by decide) (by decide)) ?_
    exact takes_oneOf_head (takes_word "json")
  · obtain ⟨rfl, -⟩ := reads_word.mp hread
    refine takes_oneOf_tail (apart (d := 'r') (e := 'n') (by decide) (by decide) (by decide)) ?_
    refine takes_oneOf_tail (apart (d := 'j') (e := 'n') (by decide) (by decide) (by decide)) ?_
    exact takes_oneOf_head (takes_word "no-color")
  · obtain ⟨name, state, m, n, hname, hstate, rfl, -⟩ := hread
    obtain ⟨rfl, -⟩ := reads_word.mp hname
    obtain rfl : n = [] := hstate.parts_eq_nil (by rfl)
    refine takes_oneOf_tail (apart (d := 'r') (e := 's') (by decide) rfl (by decide)) ?_
    refine takes_oneOf_tail (apart (d := 'j') (e := 's') (by decide) rfl (by decide)) ?_
    refine takes_oneOf_tail (apart (d := 'n') (e := 's') (by decide) rfl (by decide)) ?_
    exact takes_both (takes_word "state=") (takes_solid hstate hend)

/-- Flags are taken one after the other, up to a text that starts neither with a blank nor a dash. -/
theorem takes_flags (h : (flagsOf outputFlags).Reads text [])
    (hend : ∀ d ∈ rest.head?, isBlank d = false ∧ d ≠ '-') :
    (flagsOf outputFlags).Takes text [] rest := by
  obtain ⟨rounds, hrounds, rfl, hparts⟩ := h
  rw [hparts]
  refine takes_many ?_
  clear hparts
  induction rounds with
  | nil =>
      refine (refuses_word (Shell.not_prefix_of_head (d := '-') (by decide) fun hhead => ?_)).seq
      exact (hend '-' hhead).2 rfl
  | cons round rounds ih =>
      obtain ⟨⟨hne, hround⟩, hrounds⟩ := List.forall_mem_cons.mp hrounds
      refine ⟨hne, ?_, ih hrounds⟩
      -- What follows is the dash of the next flag, or the rest.
      have hafter : ∀ d ∈ ((rounds.map (·.1)).flatten ++ rest).head?, isBlank d = false := by
        cases rounds with
        | nil => exact fun d hd => (hend d hd).1
        | cons next rounds =>
            obtain ⟨⟨-, hnext⟩, -⟩ := List.forall_mem_cons.mp hrounds
            obtain ⟨more, -, htext⟩ := reads_seq_word.mp hnext
            intro d hd
            rw [List.map_cons, List.flatten_cons, htext] at hd
            cases hd
            decide
      obtain ⟨afterDash, hafterDash, hdash⟩ := reads_seq_word.mp hround
      obtain ⟨flag, gap, hflag, hgap, rfl⟩ := (reads_seq_of_unmarked (by rfl)).mp hafterDash
      have hnone : round.2 = [] := hround.parts_eq_nil (by rfl)
      have hgap := (reads_blanks1.mp (hnone ▸ hgap)).1
      have htakesGap : (seq [blanks1]).Takes gap [] ((rounds.map (·.1)).flatten ++ rest) :=
        takes_gap hgap hafter
      rw [hdash, hnone]
      exact takes_seq_word (takes_seq_cons (takes_flagName hflag (head?_gap hgap _)) htakesGap)

theorem takes_identifier (h : identifier.Reads text [])
    (hend : ∀ d ∈ rest.head?, isIdentifierChar d = false) : identifier.Takes text [] rest := by
  obtain ⟨d, more, rfl, hd, hmore⟩ := reads_identifier h
  exact takes_both (takes_char hd) (takes_span hmore hend)

/-- A call is taken as it stands, if its name ends where it ends. -/
theorem takes_outputCall (fit : c.Fit outputFlags)
    (hend : ∀ d ∈ rest.head?, isIdentifierChar d = false) :
    outputCall.Takes ("terraform".toList ++ c.tail) [(1, c.name)] rest := by
  obtain ⟨d, more, hname, hd, -⟩ := reads_identifier fit.name
  have hdChar : isBlank d = false ∧ d ≠ '-' :=
    ⟨isBlank_eq_false_of_isIdentifierChar (isIdentifierChar_of_start hd),
      ne_dash_of_isIdentifierStart hd⟩
  have htakesName : (seq [mark 1 identifier]).Takes c.name [(1, c.name)] rest :=
    takes_mark (takes_identifier fit.name hend)
  have htakesFlags : (seq [flagsOf outputFlags, mark 1 identifier]).Takes (c.flags ++ c.name)
      [(1, c.name)] rest := by
    refine takes_seq_cons (takes_flags fit.flags fun e he => ?_) htakesName
    rw [hname] at he
    cases he
    exact hdChar
  have hflagsHead : ∀ e ∈ (c.flags ++ c.name ++ rest).head?, isBlank e = false := by
    intro e he
    rcases reads_flags fit.flags with hflags | ⟨_, _, _, _, -, -, -, -, hflags⟩ <;> rw [hflags] at he
    · rw [hname] at he
      cases he
      exact hdChar.1
    · cases he
      decide
  have htakesVerb := takes_seq_word (w := "output")
    (takes_seq_cons (takes_gap fit.gapAfter hflagsHead) htakesFlags)
  have hverbHead : ∀ e ∈ ("output".toList ++ (c.gapAfter ++ (c.flags ++ c.name)) ++ rest).head?,
      isBlank e = false ∧ e ≠ '-' := by
    intro e he
    cases he
    decide
  have hoptionHead : ∀ e ∈ (c.option ++ ("output".toList ++ (c.gapAfter ++ (c.flags ++ c.name)) ++
      rest)).head?, isBlank e = false := by
    intro e he
    rcases reads_globalOption fit.option with hoption | ⟨_, _, -, -, hoption⟩ <;> rw [hoption] at he
    · exact (hverbHead e he).1
    · cases he
      decide
  have htakesOption : (seq [globalOption]).Takes c.option []
      ("output".toList ++ (c.gapAfter ++ (c.flags ++ c.name)) ++ rest) :=
    takes_globalOption fit.option hverbHead
  have htakesStart : callStart.Takes ("terraform".toList ++ (c.gap ++ c.option)) []
      ("output".toList ++ (c.gapAfter ++ (c.flags ++ c.name)) ++ rest) :=
    takes_seq_word (takes_seq_cons (takes_gap fit.gap hoptionHead) htakesOption)
  have htakes := takes_seq_cons htakesStart htakesVerb
  have htext : "terraform".toList ++ c.tail = "terraform".toList ++ (c.gap ++ c.option) ++
      ("output".toList ++ (c.gapAfter ++ (c.flags ++ c.name))) := by
    simp [CallPieces.tail]
  rw [htext]
  exact htakes

theorem reads_enclosedOutputCall {close : Char} :
    (seq [blanks, outputCall, blanks, char (· == close)]).Reads text parts ↔
      ∃ (c : CallPieces) (space spaceAfter : Chars), c.Fit outputFlags ∧ (∀ d ∈ space, isBlank d = true) ∧
        (∀ d ∈ spaceAfter, isBlank d = true) ∧ parts = [(1, c.name)] ∧
        text = space ++ ("terraform".toList ++ c.tail ++ (spaceAfter ++ [close])) := by
  rw [reads_enclosed (by rfl)]
  constructor
  · rintro ⟨space, body, spaceAfter, last, hspace, hbody, hspaceAfter, ⟨d, hd, rfl, -⟩, rfl⟩
    obtain ⟨c, fit, rfl, rfl⟩ := reads_outputCall.mp hbody
    obtain rfl : d = close := by simpa using hd
    exact ⟨c, space, spaceAfter, fit, hspace, hspaceAfter, rfl, rfl⟩
  · rintro ⟨c, space, spaceAfter, fit, hspace, hspaceAfter, rfl, rfl⟩
    exact ⟨space, _, spaceAfter, [close], hspace, reads_outputCall.mpr ⟨c, fit, rfl, rfl⟩, hspaceAfter,
      ⟨close, by simp, rfl, rfl⟩, rfl⟩

/-- The value of an assignment. -/
theorem reads_assigned :
    (seq [span1 isWord, word "=", substituted outputCall]).Reads text parts ↔
      ∃ (assigned : Chars) (c : CallPieces) (space spaceAfter : Chars), assigned ≠ [] ∧
        (∀ d ∈ assigned, isWord d = true) ∧ c.Fit outputFlags ∧ (∀ d ∈ space, isBlank d = true) ∧
        (∀ d ∈ spaceAfter, isBlank d = true) ∧ parts = [(1, c.name)] ∧ text = assigned ++
          ("=$(".toList ++ (space ++ ("terraform".toList ++ c.tail ++ (spaceAfter ++ [')'])))) := by
  rw [reads_seq_of_unmarked (by rfl)]
  constructor
  · rintro ⟨assigned, afterName, hassigned, hafterName, rfl⟩
    obtain ⟨hne, hall, -⟩ := reads_span1.mp hassigned
    obtain ⟨value, hvalue, rfl⟩ := reads_seq_word.mp hafterName
    obtain ⟨enclosed, henclosed, rfl⟩ := reads_seq_word.mp hvalue
    have hclosed : (seq [blanks, outputCall, blanks, char (· == ')')]).Reads enclosed parts := henclosed
    obtain ⟨c, space, spaceAfter, fit, hspace, hspaceAfter, hparts, htext⟩ :=
      reads_enclosedOutputCall.mp hclosed
    exact ⟨assigned, c, space, spaceAfter, hne, hall, fit, hspace, hspaceAfter, hparts, by rw [htext]; rfl⟩
  · rintro ⟨assigned, c, space, spaceAfter, hne, hall, fit, hspace, hspaceAfter, rfl, rfl⟩
    have henclosed : (seq [blanks, outputCall, blanks, char (· == ')')]).Reads
        (space ++ ("terraform".toList ++ c.tail ++ (spaceAfter ++ [')']))) [(1, c.name)] :=
      reads_enclosedOutputCall.mpr ⟨c, space, spaceAfter, fit, hspace, hspaceAfter, rfl, rfl⟩
    have hvalue : (seq [substituted outputCall]).Reads ("$(".toList ++ (space ++ ("terraform".toList ++ c.tail ++
        (spaceAfter ++ [')'])))) [(1, c.name)] :=
      reads_seq_word.mpr ⟨_, henclosed, rfl⟩
    exact ⟨assigned, _, reads_span1.mpr ⟨hne, hall, rfl⟩, reads_seq_word.mpr ⟨_, hvalue, rfl⟩, rfl⟩

/-- A call between grave accents. -/
theorem reads_graveQuoted :
    (graveQuoted outputCall).Reads text parts ↔
      ∃ (c : CallPieces) (space spaceAfter : Chars), c.Fit outputFlags ∧
        (∀ d ∈ space, isBlank d = true) ∧ (∀ d ∈ spaceAfter, isBlank d = true) ∧
        parts = [(1, c.name)] ∧ text = Shell.graveAccent ::
          (space ++ ("terraform".toList ++ c.tail ++ (spaceAfter ++ [Shell.graveAccent]))) := by
  unfold graveQuoted
  rw [reads_seq_of_unmarked (by rfl)]
  constructor
  · rintro ⟨opening, enclosed, ⟨d, hd, rfl, -⟩, henclosed, rfl⟩
    obtain rfl : d = Shell.graveAccent := by simpa using hd
    obtain ⟨c, space, spaceAfter, fit, hspace, hspaceAfter, hparts, rfl⟩ :=
      reads_enclosedOutputCall.mp henclosed
    exact ⟨c, space, spaceAfter, fit, hspace, hspaceAfter, hparts, rfl⟩
  · rintro ⟨c, space, spaceAfter, fit, hspace, hspaceAfter, rfl, rfl⟩
    exact ⟨[Shell.graveAccent], _, ⟨_, by simp, rfl, rfl⟩, reads_enclosedOutputCall.mpr
      ⟨c, space, spaceAfter, fit, hspace, hspaceAfter, rfl, rfl⟩, rfl⟩

/-- What two ends enclose is taken as it stands. -/
theorem takes_enclosedCall {close : Char} (hblank : isBlank close = false)
    (hclose : isIdentifierChar close = false)
    (h : (seq [blanks, outputCall, blanks, char (· == close)]).Reads text parts) :
    (seq [blanks, outputCall, blanks, char (· == close)]).Takes text parts rest := by
  obtain ⟨c, space, spaceAfter, fit, hspace, hspaceAfter, rfl, rfl⟩ := reads_enclosedOutputCall.mp h
  have htakesClose : (seq [blanks, char (· == close)]).Takes (spaceAfter ++ [close]) [] rest := by
    refine takes_seq_cons (n := []) (m := []) (takes_span hspaceAfter ?_) (takes_char (by simp))
    intro e he
    cases he
    exact hblank
  have htakesCall : (seq [outputCall, blanks, char (· == close)]).Takes
      ("terraform".toList ++ c.tail ++ (spaceAfter ++ [close])) [(1, c.name)] rest := by
    refine takes_seq_cons (n := []) (takes_outputCall fit ?_) htakesClose
    rw [List.append_assoc]
    exact head?_blanks_cons hspaceAfter hclose
  refine takes_seq_cons (m := []) (takes_span hspace fun e he => ?_) htakesCall
  cases he
  decide

end

/-! ## Matches and what stands after them -/

/-- Of the text after a match nothing counts but that it starts with a stop, if it is not empty: a match
ends in front of a stop, and a reading in front of a stop is a match. -/
structure Text.Pattern.StopsAt (p : Pattern) (stop : Char → Bool) : Prop where
  edgeless : p.edgeless = true
  reads : p.reads = true
  ends : ∀ {before rest : Chars} {m : Match}, p.matchBetween before rest = some m →
    ∃ after, rest = m.whole ++ after ∧ ∀ c ∈ after.head?, stop c = true
  takes : ∀ {text rest : Chars} {parts : List (Nat × Chars)}, p.Reads text parts →
    (∀ c ∈ rest.head?, stop c = true) → p.Takes text parts rest

namespace Text.Pattern

variable {p : Pattern} {stop : Char → Bool} {A B rest : Chars}

/-- A pattern that refuses a text refuses it also where it is cut off. -/
theorem Refuses.of_append (h : p.Refuses (A ++ B)) : p.Refuses A :=
  fun read parts hreads hstands => h read parts hreads (hstands.trans (List.prefix_append A B))

/-- At the start of a text such a pattern refuses, or takes something up to a stop. -/
theorem StopsAt.refuses_or_takes (hp : p.StopsAt stop) (rest : Chars) :
    p.Refuses rest ∨ ∃ text parts after, rest = text ++ after ∧ text ≠ [] ∧
      (∀ c ∈ after.head?, stop c = true) ∧ p.Reads text parts := by
  cases hmatch : p.matchBetween [] rest with
  | none =>
      refine Or.inl fun read parts hreads hstands => ?_
      have hsome := isSome_matchBetween hreads hp.edgeless hstands []
      rw [hmatch] at hsome
      cases hsome
  | some m =>
      obtain ⟨-, hreads⟩ := reads_of_matchBetween hmatch
      obtain ⟨after, hrest, hafter⟩ := hp.ends hmatch
      exact Or.inr ⟨m.whole, m.marks, after, hrest, hreads.ne_nil hp.reads, hafter, hreads⟩

/-- What such a pattern finds in a text does not depend on what was gone over before. -/
theorem StopsAt.marks_findBetween (hp : p.StopsAt stop) (before other rest : Chars) :
    (p.findBetween before rest).map Match.marks = (p.findBetween other rest).map Match.marks := by
  induction hlength : rest.length using Nat.strongRecOn generalizing before other rest with
  | _ length ih =>
      subst hlength
      rcases hp.refuses_or_takes rest with hrefuses | ⟨text, parts, after, rfl, hne, hafter, hreads⟩
      · cases rest with
        | nil => rfl
        | cons c rest =>
            rw [findBetween_skip_char hrefuses, findBetween_skip_char hrefuses]
            exact ih rest.length (Nat.lt_succ_self _) _ _ rest rfl
      · have htakes := hp.takes hreads hafter
        have hpos : 0 < text.length := List.length_pos_iff.mpr hne
        rw [findBetween_take htakes hne, findBetween_take htakes hne, List.map_cons, List.map_cons,
          ih after.length (by rw [List.length_append]; omega) _ (other ++ text) after rfl]

/-- No match in two lines goes over the end of the first. -/
def Separates (p : Pattern) (A B : Chars) : Prop :=
  ∀ m ∈ p.findAll (A ++ '\n' :: B), m.skipped + m.whole.length ≤ A.length ∨ A.length < m.skipped

instance (p : Pattern) (A B : Chars) : Decidable (p.Separates A B) :=
  inferInstanceAs (Decidable (∀ m ∈ p.findAll (A ++ '\n' :: B),
    m.skipped + m.whole.length ≤ A.length ∨ A.length < m.skipped))

/-- Then the matches in both lines are those in the one and those in the other. -/
theorem StopsAt.marks_findAll (hp : p.StopsAt stop) (h : p.Separates A B) :
    (p.findAll (A ++ '\n' :: B)).map Match.marks =
      (p.findAll A).map Match.marks ++ (p.findAll B).map Match.marks := by
  have step : ∀ before rest : Chars,
      (∀ m ∈ p.findBetween before (rest ++ '\n' :: B),
        m.skipped + m.whole.length ≤ (before ++ rest).length ∨ (before ++ rest).length < m.skipped) →
      (p.findBetween before (rest ++ '\n' :: B)).map Match.marks =
        (p.findBetween before rest).map Match.marks ++ (p.findBetween [] B).map Match.marks := by
    intro before rest hseparates
    induction hlength : rest.length using Nat.strongRecOn generalizing before rest with
    | _ length ih =>
        subst hlength
        rcases hp.refuses_or_takes (rest ++ '\n' :: B) with
          hrefuses | ⟨text, parts, after, htext, hne, hafter, hreads⟩
        · cases rest with
          | nil =>
              rw [List.nil_append, findBetween_skip_char hrefuses, hp.marks_findBetween _ []]
              rfl
          | cons c rest =>
              have hshort : p.Refuses (c :: rest) := hrefuses.of_append
              rw [List.cons_append] at hrefuses hseparates ⊢
              rw [findBetween_skip_char hrefuses] at hseparates ⊢
              rw [findBetween_skip_char hshort]
              exact ih rest.length (Nat.lt_succ_self _) _ rest (by simpa using hseparates) rfl
        · have hpos : 0 < text.length := List.length_pos_iff.mpr hne
          rw [htext, findBetween_take (hp.takes hreads hafter) hne] at hseparates ⊢
          obtain ⟨hfirst, hmore⟩ := List.forall_mem_cons.mp hseparates
          -- The match ends in the first line, so that it is a match there as well.
          have hinside : text.length ≤ rest.length := by
            simp only [List.length_append] at hfirst
            omega
          obtain ⟨left, rfl⟩ : text <+: rest :=
            List.prefix_of_prefix_length_le ⟨after, htext.symm⟩ (List.prefix_append rest _) hinside
          rw [List.append_assoc] at htext
          obtain rfl := List.append_cancel_left htext
          have hleft : ∀ c ∈ left.head?, stop c = true := fun c hc =>
            hafter c (by rw [List.head?_append, Option.mem_def.mp hc]; rfl)
          rw [findBetween_take (hp.takes hreads hleft) hne, List.map_cons, List.map_cons,
            List.cons_append, ih left.length (by rw [List.length_append]; omega) _ left ?_ rfl]
          simpa using hmore
  exact step [] A h

end Text.Pattern

/-! ## The forms in which an output is named -/

section

variable {before rest : Chars} {m : Match}

/-- A bare call ends where its name ends. -/
theorem stopsAt_outputCall : outputCall.StopsAt fun c => !isIdentifierChar c where
  edgeless := by rfl
  reads := by rfl
  ends h := by
    obtain ⟨after, hrest, hafter⟩ := outputCall_longest h
    exact ⟨after, hrest, fun c hc => by simp [hafter c hc]⟩
  takes h hend := by
    obtain ⟨c, fit, rfl, rfl⟩ := reads_outputCall.mp h
    exact takes_outputCall fit fun d hd => by simpa using hend d hd

/-- A form with a closing character ends anywhere. -/
theorem stopsAt_of_takes {p : Pattern} (edgeless : p.edgeless = true) (reads : p.reads = true)
    (takes : ∀ {text rest : Chars} {parts : List (Nat × Chars)}, p.Reads text parts →
      p.Takes text parts rest) : p.StopsAt fun _ => true where
  edgeless := edgeless
  reads := reads
  ends h := by
    obtain ⟨⟨after, hafter⟩, -⟩ := reads_of_matchBetween h
    exact ⟨after, hafter.symm, fun _ _ => rfl⟩
  takes h _ := takes h

/-- The value of an assignment. -/
theorem takes_assigned {text rest : Chars} {parts : List (Nat × Chars)}
    (h : (seq [span1 isWord, word "=", substituted outputCall]).Reads text parts) :
    (seq [span1 isWord, word "=", substituted outputCall]).Takes text parts rest := by
  obtain ⟨name, afterName, hname, hafterName, rfl⟩ := (reads_seq_of_unmarked (by rfl)).mp h
  obtain ⟨value, hvalue, rfl⟩ := reads_seq_word.mp hafterName
  obtain ⟨enclosed, henclosed, rfl⟩ := reads_seq_word.mp hvalue
  obtain ⟨hne, hall, -⟩ := reads_span1.mp hname
  have htakesCall : (seq [blanks, outputCall, blanks, char (· == ')')]).Takes enclosed parts rest :=
    takes_enclosedCall (by decide) (by decide) henclosed
  have htakesSubstituted : (seq [substituted outputCall]).Takes ("$(".toList ++ enclosed) parts rest :=
    takes_seq_word htakesCall
  have htakesValue : (seq [word "=", substituted outputCall]).Takes
      ("=".toList ++ ("$(".toList ++ enclosed)) parts rest :=
    takes_seq_word htakesSubstituted
  have htakes := takes_seq_cons (takes_span1 hne hall fun d hd => ?_) htakesValue
  · rwa [List.append_nil] at htakes
  · cases hd
    decide

/-- A call between grave accents. -/
theorem takes_graveQuoted {text rest : Chars} {parts : List (Nat × Chars)}
    (h : (graveQuoted outputCall).Reads text parts) : (graveQuoted outputCall).Takes text parts rest := by
  obtain ⟨opening, enclosed, hopening, henclosed, rfl⟩ := (reads_seq_of_unmarked (by rfl)).mp h
  obtain ⟨d, hd, rfl, -⟩ := hopening
  have htakesCall : (seq [blanks, outputCall, blanks, char (· == Shell.graveAccent)]).Takes enclosed
      parts rest :=
    takes_enclosedCall (by decide) (by decide) henclosed
  have htakesOpening : (char (· == Shell.graveAccent)).Takes [d] [] (enclosed ++ rest) := takes_char hd
  have htakes := takes_seq_cons htakesOpening htakesCall
  rwa [List.append_nil] at htakes

theorem stopsAt_of_mem_outputForms {form : Pattern} (h : form ∈ outputForms) :
    ∃ stop, form.StopsAt stop := by
  simp only [outputForms, List.mem_cons, List.not_mem_nil, or_false] at h
  rcases h with rfl | rfl | rfl
  · exact ⟨_, stopsAt_outputCall⟩
  · exact ⟨_, stopsAt_of_takes (by rfl) (by rfl) takes_assigned⟩
  · exact ⟨_, stopsAt_of_takes (by rfl) (by rfl) takes_graveQuoted⟩

end

/-! ## Two lines -/

namespace Shell.Terraform

variable {A B : Chars}

/-- The names that a form finds are read from the parts of its matches. -/
theorem names_of_marks (form : Pattern) (text : Chars) :
    (form.findAll text).map (fun found => String.ofList (found.part 1)) =
      ((form.findAll text).map Match.marks).map fun parts => String.ofList ((parts.lookup 1).getD []) := by
  rw [List.map_map]
  rfl

/-- Where no match goes over the line end, two lines name what each of them names. -/
theorem mem_outputNames_lines (h : ∀ form ∈ outputForms, form.Separates A B) (name : String) :
    name ∈ outputNames (A ++ '\n' :: B) ↔ name ∈ outputNames A ∨ name ∈ outputNames B := by
  unfold outputNames
  simp only [mem_distinct, List.mem_flatMap, names_of_marks]
  rw [← exists_or]
  refine exists_congr fun form => ?_
  rw [← and_or_left]
  refine and_congr_right fun hform => ?_
  obtain ⟨stop, hstops⟩ := stopsAt_of_mem_outputForms hform
  rw [hstops.marks_findAll (h form hform), List.map_append, List.mem_append]

/-- The second line starts with the word that the first one lacks. -/
theorem mem_outputNames_lines_assigned :
    (∀ form ∈ outputForms, form.Separates "terraform output -raw terraform".toList
      "output=\x60terraform -chdir=a output dns\x60".toList) ∧
    "dns" ∈ outputNames ("terraform output -raw terraform".toList ++
      '\n' :: "output=\x60terraform -chdir=a output dns\x60".toList) := by
  have hlines : ∀ form ∈ outputForms, form.Separates "terraform output -raw terraform".toList
      "output=\x60terraform -chdir=a output dns\x60".toList := by decide +kernel
  exact ⟨hlines, (mem_outputNames_lines hlines "dns").mpr (Or.inr (by decide +kernel))⟩

/-- What can make a line go on in the next one: quotation marks, substitutions, escapes. -/
def openers : Chars := ['\x22', '\x27', graveAccent, '$', '\\']

/-- A line of a text in which nothing goes on in the next one. -/
def IsPlainLine (line : Chars) : Prop := ∀ c ∈ line, c ∉ openers ∧ c ≠ '\n'

instance (line : Chars) : Decidable (IsPlainLine line) :=
  List.decidableBAll (fun c => c ∉ openers ∧ c ≠ '\n') line

/-- Two plain lines can name an output that neither of them names. -/
theorem outputNames_over_line_end : ¬ ∀ A B : Chars, IsPlainLine A → IsPlainLine B → ∀ name,
    name ∈ outputNames (A ++ '\n' :: B) ↔ name ∈ outputNames A ∨ name ∈ outputNames B := by
  intro claimed
  have hnames := claimed "terraform output".toList "terraform output vpc".toList (by decide) (by decide)
    "terraform"
  exact absurd hnames (by decide +kernel)

end Shell.Terraform

end DeployTrace
