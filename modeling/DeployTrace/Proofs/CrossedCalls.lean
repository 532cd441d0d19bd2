/-
  DeployTrace/Proofs/CrossedCalls.lean --- substitutions that the search for calls goes over.

  WHAT THIS FILE IS FOR.  A value's substitution `$(terraform output x)` is found with a pattern of its own.
  That the text around it names the output `x` is found with three other patterns, each of which goes over
  the whole text and takes matches that do not overlap.  So a match that starts earlier may go over the
  substitution, and then another output is named in its place.

  WHAT HOLDS.  There is one way for that to happen: the substitution is written `$(...)`, and it is part of
  the argument of a `-state=` flag of another call, behind something else.

      terraform output -state="$(terraform output path)" vpc      This text names `output` and not `path`.
      terraform output -state=$(terraform output path) vpc        This one names `output` and `path`.

  THE ARGUMENT.  A search finds what a pattern takes somewhere, or a match that starts before it and goes
  on into it.  A call has words, blanks and two kinds of arguments; of these only the arguments can hold the
  `$` or the grave accent that opens a substitution.  Behind a `-chdir=` argument that ends in the inner
  `terraform` both calls go on alike, and so they name the same output.  Behind a `-state=` argument the
  outer call takes its name from the words of the inner one, and then no closing character follows it, so
  that the two patterns which ask for one cannot go over the substitution.
-/
import DeployTrace.Proofs.CallLines

set_option autoImplicit false

namespace DeployTrace

open Text Pattern Shell.Terraform

/-! ## What a search finds or goes over -/

/-- A match starts before the place between two texts and goes on behind it, up to a stop. -/
def Text.Match.Crosses (m : Match) (stop : Char → Bool) (front back : Chars) : Prop :=
  ∃ before inside reach after, front = before ++ inside ∧ back = reach ++ after ∧ inside ≠ [] ∧
    reach ≠ [] ∧ m.whole = inside ++ reach ∧ ∀ c ∈ after.head?, stop c = true

theorem Text.Match.Crosses.behind {m : Match} {stop : Char → Bool} {front back : Chars}
    (h : m.Crosses stop front back) (more : Chars) : m.Crosses stop (more ++ front) back := by
  obtain ⟨before, inside, reach, after, rfl, hback, hinside, hreach, hwhole, hafter⟩ := h
  exact ⟨more ++ before, inside, reach, after, by simp, hback, hinside, hreach, hwhole, hafter⟩

/-- What a pattern takes somewhere in a text is found there, unless a match crosses its beginning. -/
theorem Text.Pattern.StopsAt.found_or_crossed {p : Pattern} {stop : Char → Bool} (hp : p.StopsAt stop)
    {text rest : Chars} {parts : List (Nat × Chars)} (htakes : p.Takes text parts rest) (hne : text ≠ [])
    (front : Chars) :
    ∃ m ∈ p.findAll (front ++ (text ++ rest)), p.Reads m.whole m.marks ∧
      (m.marks = parts ∨ m.Crosses stop front (text ++ rest)) := by
  have step : ∀ passed, ∃ m ∈ p.findBetween passed (front ++ (text ++ rest)), p.Reads m.whole m.marks ∧
      (m.marks = parts ∨ m.Crosses stop front (text ++ rest)) := by
    induction hlength : front.length using Nat.strongRecOn generalizing front with
    | _ length ih =>
        subst hlength
        intro passed
        cases front with
        | nil =>
            have hreads := (reads_of_matchBetween (matchBetween_of_takes htakes passed)).2
            rw [List.nil_append, findBetween_take htakes hne]
            exact ⟨_, List.mem_cons_self, hreads, Or.inl rfl⟩
        | cons c front =>
            rcases hp.refuses_or_takes (c :: front ++ (text ++ rest)) with
              hrefuses | ⟨read, marks, after, hsplit, hreadNe, hafter, hreads⟩
            · obtain ⟨m, hm, hread, hcase⟩ := ih front.length (Nat.lt_succ_self _) front rfl (passed ++ [c])
              rw [List.cons_append] at hrefuses ⊢
              rw [← findBetween_skip_char hrefuses] at hm
              exact ⟨m, hm, hread, hcase.imp_right fun h => h.behind [c]⟩
            · have hfirst : read <+: c :: front ++ (text ++ rest) := ⟨after, hsplit.symm⟩
              rw [hsplit, findBetween_take (hp.takes hreads hafter) hreadNe]
              rcases Nat.lt_or_ge (c :: front).length read.length with hlong | hshort
              · -- The match at the beginning goes on into what the pattern takes.
                obtain ⟨reach, rfl⟩ : c :: front <+: read :=
                  List.prefix_of_prefix_length_le (List.prefix_append _ _) hfirst (Nat.le_of_lt hlong)
                rw [List.append_assoc] at hsplit
                have hreach : reach ≠ [] := by
                  rintro rfl
                  simp at hlong
                refine ⟨_, List.mem_cons_self, hreads, Or.inr ?_⟩
                exact ⟨[], c :: front, reach, after, rfl, List.append_cancel_left hsplit,
                  List.cons_ne_nil c front, hreach, rfl, hafter⟩
              · obtain ⟨left, hfront⟩ : read <+: c :: front :=
                  List.prefix_of_prefix_length_le hfirst (List.prefix_append _ _) hshort
                rw [← hfront, List.append_assoc] at hsplit
                obtain rfl := List.append_cancel_left hsplit
                have hshorter : left.length < (c :: front).length := by
                  have hpos := List.length_pos_iff.mpr hreadNe
                  rw [← hfront, List.length_append]
                  omega
                obtain ⟨m, hm, hread, hcase⟩ := ih left.length hshorter left rfl (passed ++ read)
                rw [← hfront]
                exact ⟨m, List.mem_cons_of_mem _ hm, hread, hcase.imp_right fun h => h.behind read⟩
  exact step []

/-! ## Places in a text -/

section

variable {x y P z a w gap gap' : Chars} {e : Char}

/-- A character in two texts is in the first or in the second of them. -/
theorem inside_or_behind (h : x ++ y = P ++ e :: z) :
    (∃ w, x = P ++ e :: w ∧ z = w ++ y) ∨ ∃ Q, P = x ++ Q ∧ y = Q ++ e :: z := by
  rcases List.append_eq_append_iff.mp h with ⟨Q, hP, hy⟩ | ⟨w, hx, hz⟩
  · exact Or.inr ⟨Q, hP, hy⟩
  · cases w with
    | nil => exact Or.inr ⟨[], by rw [hx, List.append_nil, List.append_nil], by simpa using hz.symm⟩
    | cons d w =>
        obtain ⟨rfl, hmore⟩ := List.cons.inj hz
        exact Or.inl ⟨w, hx, hmore⟩

/-- The last character of two texts is that of the second. -/
theorem last_behind (hne : y ≠ []) (h : x ++ y = P ++ [e]) : ∃ Q, P = x ++ Q ∧ y = Q ++ [e] := by
  rcases inside_or_behind h with ⟨w, -, hw⟩ | hbehind
  · exact absurd (List.append_eq_nil_iff.mp hw.symm).2 hne
  · exact hbehind

/-- A text that ends with a closing character goes on behind a text without one. -/
theorem ends_behind {reach behind front : Chars} {close : Char} (hne : reach ≠ [])
    (hends : x ++ reach = y ++ [close]) (hclose : close ∉ front) (h : reach ++ behind = front ++ e :: z) :
    ∃ w, reach = front ++ e :: w ∧ z = w ++ behind := by
  rcases inside_or_behind h with hreach | ⟨R, rfl, -⟩
  · exact hreach
  · obtain ⟨most, -, rfl⟩ := last_behind hne hends
    exact absurd (List.mem_append_left R (List.mem_append_right most List.mem_cons_self)) hclose

theorem behind_of_notMem (he : e ∉ x) (h : x ++ y = P ++ e :: z) : ∃ Q, P = x ++ Q ∧ y = Q ++ e :: z := by
  rcases inside_or_behind h with ⟨w, rfl, -⟩ | hbehind
  · exact absurd (List.mem_append_right P List.mem_cons_self) he
  · exact hbehind

/-- The text starts with a word of a call: a flag or a name. -/
def OpensWord (text : Chars) : Prop := ∃ d more, text = d :: more ∧ (d = '-' ∨ isIdentifierStart d = true)

theorem not_blank_of_opens {d : Char} (h : d = '-' ∨ isIdentifierStart d = true) : isBlank d = false := by
  rcases h with rfl | hstart
  · decide
  · exact isBlank_eq_false_of_isIdentifierChar (isIdentifierChar_of_start hstart)

/-- Two texts of a word without blanks, a gap and another word are cut at the same places. -/
theorem eq_of_gaps (ha : ∀ d ∈ a, isBlank d = false) (hw : ∀ d ∈ w, isBlank d = false) (hgap : IsGap gap)
    (hgap' : IsGap gap') (hx : OpensWord x) (hy : OpensWord y)
    (h : a ++ (gap ++ x) = w ++ (gap' ++ y)) : a = w ∧ x = y := by
  obtain ⟨b, blanks, rfl⟩ := List.exists_cons_of_ne_nil hgap.1
  obtain ⟨b', blanks', rfl⟩ := List.exists_cons_of_ne_nil hgap'.1
  obtain ⟨hb, hblanks⟩ := List.forall_mem_cons.mp hgap.2
  obtain ⟨hb', hblanks'⟩ := List.forall_mem_cons.mp hgap'.2
  obtain ⟨d, more, rfl, hd⟩ := hx
  obtain ⟨d', more', rfl, hd'⟩ := hy
  obtain ⟨rfl, -, hrest⟩ := eq_of_append_cons_eq ha hw hb hb' h
  have hsolid : ∀ {text : Chars}, (∀ d ∈ text, isBlank d = true) → ∀ d ∈ text, (!isBlank d) = false :=
    fun hblank d hd => by simp [hblank d hd]
  obtain ⟨-, rfl, rfl⟩ := eq_of_append_cons_eq (p := fun d => !isBlank d) (hsolid hblanks) (hsolid hblanks')
    (by simp [not_blank_of_opens hd]) (by simp [not_blank_of_opens hd']) hrest
  exact ⟨rfl, rfl⟩

end

/-! ## Words of a call -/

section

variable {flags name option gap : Chars}

theorem opensWord_flags (hflags : (flagsOf outputFlags).Reads flags []) (hname : identifier.Reads name [])
    (rest : Chars) : OpensWord (flags ++ (name ++ rest)) := by
  rcases reads_flags hflags with rfl | ⟨d, flag, gap, more, -, -, -, -, rfl⟩
  · obtain ⟨d, more, rfl, hd, -⟩ := reads_identifier hname
    exact ⟨d, more ++ rest, rfl, Or.inr hd⟩
  · exact ⟨'-', d :: flag ++ (gap ++ more) ++ (name ++ rest), rfl, Or.inl rfl⟩

theorem opensWord_option (hoption : globalOption.Reads option []) (rest : Chars) :
    OpensWord (option ++ ("output".toList ++ rest)) := by
  rcases reads_globalOption hoption with rfl | ⟨directory, gap, -, -, rfl⟩
  · exact ⟨'o', "utput".toList ++ rest, rfl, Or.inr (by decide)⟩
  · exact ⟨'-', "chdir=".toList ++ directory ++ gap ++ ("output".toList ++ rest), rfl, Or.inl rfl⟩

/-- Flags end with a blank. -/
theorem blank_before_name (hgap : IsGap gap) (hflags : (flagsOf outputFlags).Reads flags []) :
    ∃ front b, isBlank b = true ∧ gap ++ flags = front ++ [b] := by
  have endsBlank : ∀ {space : Chars}, IsGap space → ∃ front b, isBlank b = true ∧ space = front ++ [b] :=
    fun {space} h => ⟨space.dropLast, space.getLast h.1, h.2 _ (List.getLast_mem h.1),
      (List.dropLast_concat_getLast h.1).symm⟩
  induction hlength : flags.length using Nat.strongRecOn generalizing gap flags with
  | _ length ih =>
      subst hlength
      rcases reads_flags hflags with rfl | ⟨d, flag, space, more, -, -, hspace, hmore, rfl⟩
      · rw [List.append_nil]
        exact endsBlank hgap
      · obtain ⟨front, b, hb, hfront⟩ := ih more.length (by simp; omega) hspace hmore rfl
        exact ⟨gap ++ ('-' :: d :: flag ++ front), b, hb, by simp [hfront]⟩

end

/-! ## Where a substitution opens -/

/-- The first character of a substitution and what stands between it and the blanks before the call. -/
inductive IsOpening : Char → Chars → Prop where
  | dollar : IsOpening '$' ['(']
  | grave : IsOpening Shell.graveAccent []

namespace IsOpening

variable {e : Char} {bracket : Chars} (h : IsOpening e bracket)

include h

theorem not_blank : isBlank e = false := by cases h <;> decide

theorem not_identifier : isIdentifierChar e = false := by cases h <;> decide

theorem bracket_solid : ∀ d ∈ bracket, isBlank d = false := by
  cases h
  · exact List.forall_mem_singleton.mpr (by decide)
  · exact fun _ hd => absurd hd List.not_mem_nil

theorem notMem_blanks {text : Chars} (hblank : ∀ d ∈ text, isBlank d = true) : e ∉ text := by
  intro he
  have hnot := h.not_blank
  rw [hblank e he] at hnot
  cases hnot

theorem notMem_name {name : Chars} (hname : identifier.Reads name []) : e ∉ name := by
  intro he
  have hnot := h.not_identifier
  rw [isIdentifierChar_of_mem (reads_identifier hname) he] at hnot
  cases hnot

end IsOpening

/-! ## Openings in a call -/

section

variable {c c' : CallPieces} {e : Char} {bracket : Chars}

/-- The name of a flag holds no opening; an argument can stand only behind `-state=`. -/
theorem flag_or_state (hopening : IsOpening e bracket) {flag : Chars}
    (h : (oneOf outputFlags).Reads flag []) :
    e ∉ flag ∨ ∃ state, flag = "state=".toList ++ state ∧ ∀ d ∈ state, isBlank d = false := by
  obtain ⟨p, hp, hread⟩ := reads_oneOf.mp h
  simp only [outputFlags, List.mem_cons, List.not_mem_nil, or_false] at hp
  rcases hp with rfl | rfl | rfl | rfl
  · obtain ⟨rfl, -⟩ := reads_word.mp hread
    exact Or.inl (by cases hopening <;> decide)
  · obtain ⟨rfl, -⟩ := reads_word.mp hread
    exact Or.inl (by cases hopening <;> decide)
  · obtain ⟨rfl, -⟩ := reads_word.mp hread
    exact Or.inl (by cases hopening <;> decide)
  · obtain ⟨name, state, _, _, hname, hstate, rfl, -⟩ := hread
    obtain ⟨rfl, -⟩ := reads_word.mp hname
    obtain ⟨-, hsolid, -⟩ := reads_span1.mp hstate
    exact Or.inr ⟨state, rfl, fun d hd => by simpa using hsolid d hd⟩

/-- What stands before an opening and after it, when it is in the argument of a `-state=` flag that goes on
with `w` and is followed by other flags and by `tail`. -/
structure InState (before after tail : Chars) : Prop where
  state : ∃ front state, before = front ++ ("-state=".toList ++ state) ∧ ∀ d ∈ state, isBlank d = false
  rest : ∃ w gap more, (∀ d ∈ w, isBlank d = false) ∧ IsGap gap ∧ (flagsOf outputFlags).Reads more [] ∧
    after = w ++ (gap ++ (more ++ tail))

theorem InState.behind {before after tail : Chars} (h : InState before after tail) (more : Chars) :
    InState (more ++ before) after tail := by
  obtain ⟨⟨front, state, rfl, hstate⟩, rest⟩ := h
  exact ⟨⟨more ++ front, state, by simp, hstate⟩, rest⟩

/-- An opening in the flags of a call or behind them. -/
theorem inState_of_flags (hopening : IsOpening e bracket) {flags tail P z : Chars}
    (hflags : (flagsOf outputFlags).Reads flags []) (h : flags ++ tail = P ++ e :: z) :
    InState P z tail ∨ ∃ Q, P = flags ++ Q ∧ tail = Q ++ e :: z := by
  obtain ⟨rounds, hrounds, rfl, -⟩ := hflags
  induction rounds generalizing P with
  | nil => exact Or.inr ⟨P, rfl, h⟩
  | cons round rounds ih =>
      obtain ⟨⟨-, hround⟩, hrounds⟩ := List.forall_mem_cons.mp hrounds
      obtain ⟨afterDash, hafterDash, hdash⟩ := reads_seq_word.mp hround
      rw [hround.parts_eq_nil (by rfl)] at hafterDash
      obtain ⟨flag, gap, hflag, hgap, rfl⟩ := (reads_seq_of_unmarked (by rfl)).mp hafterDash
      have hgap : IsGap gap := (reads_blanks1.mp hgap).1
      rw [List.map_cons, List.flatten_cons, hdash] at h ⊢
      simp only [List.append_assoc] at h ⊢
      obtain ⟨Q, rfl, hQ⟩ := behind_of_notMem (by cases hopening <;> decide) h
      -- The opening is in the argument, or it is in what follows the flag.
      have later : ∀ R, Q = flag ++ R → gap ++ ((rounds.map (·.1)).flatten ++ tail) = R ++ e :: z →
          InState ("-".toList ++ Q) z tail ∨
            ∃ S, "-".toList ++ Q = "-".toList ++ (flag ++ (gap ++ ((rounds.map (·.1)).flatten ++ S))) ∧
              tail = S ++ e :: z := by
        rintro R rfl hR
        obtain ⟨S, rfl, hS⟩ := behind_of_notMem (hopening.notMem_blanks hgap.2) hR
        rcases ih hrounds hS with hstate | ⟨U, rfl, hU⟩
        · have hmore := hstate.behind ("-".toList ++ (flag ++ gap))
          exact Or.inl (by simpa using hmore)
        · exact Or.inr ⟨U, rfl, hU⟩
      rcases flag_or_state hopening hflag with hnone | ⟨state, rfl, hsolid⟩
      · obtain ⟨R, hQR, hR⟩ := behind_of_notMem hnone hQ
        exact later R hQR hR
      · rw [List.append_assoc] at hQ
        obtain ⟨R, rfl, hR⟩ := behind_of_notMem (by cases hopening <;> decide) hQ
        rcases inside_or_behind hR with ⟨w, rfl, hz⟩ | ⟨S, rfl, hS⟩
        · have hform : "-state=".toList = "-".toList ++ "state=".toList := by decide
          refine Or.inl ⟨⟨[], R, by simp [hform], fun d hd => hsolid d (List.mem_append_left _ hd)⟩, ?_⟩
          have hmore : (flagsOf outputFlags).Reads (rounds.map (·.1)).flatten
              (rounds.reverse.map (·.2)).flatten := ⟨rounds, hrounds, rfl, rfl⟩
          rw [hmore.parts_eq_nil (by rfl)] at hmore
          refine ⟨w, gap, _, fun d hd => ?_, hgap, hmore, hz⟩
          exact hsolid d (List.mem_append_right R (List.mem_cons_of_mem e hd))
        · exact later S (by simp) hS

/-- An opening in a call or behind it: in the argument of `-chdir=`, in that of a `-state=`, or behind. -/
theorem opening_cases (hopening : IsOpening e bracket) (fit : c.Fit outputFlags) {tail P z : Chars}
    (h : "terraform".toList ++ (c.tail ++ tail) = P ++ e :: z) :
    (∃ w gap, (∀ d ∈ w, isBlank d = false) ∧ IsGap gap ∧
      z = w ++ (gap ++ ("output".toList ++ (c.gapAfter ++ (c.flags ++ (c.name ++ tail)))))) ∨
    InState P z (c.name ++ tail) ∨ ∃ Q, P = "terraform".toList ++ (c.tail ++ Q) ∧ tail = Q ++ e :: z := by
  simp only [CallPieces.tail, List.append_assoc] at h ⊢
  -- Behind the option there are the subcommand, a gap, flags and the name.
  have behindOption : ∀ Q, "output".toList ++ (c.gapAfter ++ (c.flags ++ (c.name ++ tail))) = Q ++ e :: z →
      InState Q z (c.name ++ tail) ∨
        ∃ R, Q = "output".toList ++ (c.gapAfter ++ (c.flags ++ (c.name ++ R))) ∧ tail = R ++ e :: z := by
    intro Q hQ
    obtain ⟨R, rfl, hR⟩ := behind_of_notMem (by cases hopening <;> decide) hQ
    obtain ⟨S, rfl, hS⟩ := behind_of_notMem (hopening.notMem_blanks fit.gapAfter.2) hR
    rcases inState_of_flags hopening fit.flags hS with hstate | ⟨T, rfl, hT⟩
    · exact Or.inl ((hstate.behind c.gapAfter).behind "output".toList)
    · obtain ⟨U, rfl, hU⟩ := behind_of_notMem (hopening.notMem_name fit.name) hT
      exact Or.inr ⟨U, rfl, hU⟩
  obtain ⟨Q, rfl, hQ⟩ := behind_of_notMem (by cases hopening <;> decide) h
  obtain ⟨R, rfl, hR⟩ := behind_of_notMem (hopening.notMem_blanks fit.gap.2) hQ
  rcases reads_globalOption fit.option with hoption | ⟨directory, gap, hgap, hdirectory, hoption⟩
  · rw [hoption] at hR ⊢
    rcases behindOption R hR with hstate | ⟨S, rfl, hS⟩
    · exact Or.inr (Or.inl ((hstate.behind c.gap).behind "terraform".toList))
    · exact Or.inr (Or.inr ⟨S, rfl, hS⟩)
  · rw [hoption, List.append_assoc, List.append_assoc] at hR
    obtain ⟨S, rfl, hS⟩ := behind_of_notMem (by cases hopening <;> decide) hR
    rcases inside_or_behind hS with ⟨w, rfl, hw⟩ | ⟨T, rfl, hT⟩
    · refine Or.inl ⟨w, gap, fun d hd => ?_, hgap, hw⟩
      exact hdirectory d (List.mem_append_right S (List.mem_cons_of_mem e hd))
    · obtain ⟨U, rfl, hU⟩ := behind_of_notMem (hopening.notMem_blanks hgap.2) hT
      rw [hoption]
      rcases behindOption U hU with hstate | ⟨V, rfl, hV⟩
      · have hcall := hstate.behind ("terraform".toList ++ (c.gap ++ ("-chdir=".toList ++ (directory ++ gap))))
        exact Or.inr (Or.inl (by simpa using hcall))
      · exact Or.inr (Or.inr ⟨V, by simp, hV⟩)

/-! ## Calls that go over an opening -/

/-- Two calls at one place name the same output, if each ends where its name ends. -/
theorem name_eq_of_calls (fit : c.Fit outputFlags) (fit' : c'.Fit outputFlags) {after after' : Chars}
    (hafter : ∀ d ∈ after.head?, isIdentifierChar d = false)
    (hafter' : ∀ d ∈ after'.head?, isIdentifierChar d = false)
    (h : "terraform".toList ++ (c.tail ++ after) = "terraform".toList ++ (c'.tail ++ after')) :
    c.name = c'.name := by
  have htaken := matchBetween_of_takes (takes_outputCall fit hafter) []
  rw [List.append_assoc, h, ← List.append_assoc,
    matchBetween_of_takes (takes_outputCall fit' hafter') []] at htaken
  simpa using (congrArg Match.marks (Option.some.inj htaken)).symm

/-- A text that opens with a word after the opening of a substitution: either the word is the tool with the
opening in front, or it is the tool itself. -/
theorem cut_at_tool (hopening : IsOpening e bracket) (fit : c.Fit outputFlags) {space w gap x after : Chars}
    (hspace : ∀ d ∈ space, isBlank d = true) (hw : ∀ d ∈ w, isBlank d = false) (hgap : IsGap gap)
    (hx : OpensWord x)
    (h : bracket ++ (space ++ ("terraform".toList ++ (c.tail ++ after))) = w ++ (gap ++ x)) :
    x = c.option ++ ("output".toList ++ (c.gapAfter ++ (c.flags ++ (c.name ++ after)))) ∨
      x = "terraform".toList ++ (c.gap ++ (c.option ++ ("output".toList ++
        (c.gapAfter ++ (c.flags ++ (c.name ++ after)))))) := by
  simp only [CallPieces.tail, List.append_assoc] at h
  by_cases hnone : space = []
  · have hsolid : ∀ d ∈ bracket ++ "terraform".toList, isBlank d = false := by
      intro d hd
      rcases List.mem_append.mp hd with hd | hd
      · exact hopening.bracket_solid d hd
      · exact eq_false_of_any (by decide : "terraform".toList.any isBlank = false) d hd
    rw [hnone, List.nil_append, ← List.append_assoc bracket] at h
    exact Or.inl (eq_of_gaps hsolid hw fit.gap hgap (opensWord_option fit.option _) hx h).2.symm
  · have htool : OpensWord ("terraform".toList ++ (c.gap ++ (c.option ++ ("output".toList ++
        (c.gapAfter ++ (c.flags ++ (c.name ++ after))))))) := ⟨'t', _, rfl, Or.inr (by decide)⟩
    exact Or.inr (eq_of_gaps hopening.bracket_solid hw ⟨hnone, hspace⟩ hgap htool hx h).2.symm

/-- A `-chdir=` argument in which a substitution opens ends with the tool of the call in it, and both calls
go on alike. -/
theorem name_eq_of_directory (hopening : IsOpening e bracket) (fit : c.Fit outputFlags)
    (fit' : c'.Fit outputFlags) {space after after' w gap : Chars} (hspace : ∀ d ∈ space, isBlank d = true)
    (hw : ∀ d ∈ w, isBlank d = false) (hgap : IsGap gap)
    (hafter : ∀ d ∈ after.head?, isIdentifierChar d = false)
    (hafter' : ∀ d ∈ after'.head?, isIdentifierChar d = false)
    (h : bracket ++ (space ++ ("terraform".toList ++ (c.tail ++ after))) =
      w ++ (gap ++ ("output".toList ++ (c'.gapAfter ++ (c'.flags ++ (c'.name ++ after')))))) :
    c'.name = c.name := by
  have hverb : OpensWord ("output".toList ++ (c'.gapAfter ++ (c'.flags ++ (c'.name ++ after')))) :=
    ⟨'o', _, rfl, Or.inr (by decide)⟩
  rcases cut_at_tool hopening fit hspace hw hgap hverb h with hsame | htool
  · -- What the directory ends with begins a call without an option.
    have fitInner : CallPieces.Fit outputFlags ⟨c.gap, [], c'.gapAfter, c'.flags, c'.name⟩ :=
      ⟨fit.gap, reads_optional.mpr (Or.inr ⟨rfl, rfl⟩), fit'.gapAfter, fit'.flags, fit'.name⟩
    refine (name_eq_of_calls fit fitInner hafter hafter' ?_).symm
    simp only [CallPieces.tail, List.append_assoc, List.nil_append, hsame]
  · have hletters : some 'o' = some 't' := congrArg List.head? htool
    exact absurd hletters (by decide)

/-- Flags and a name with a closing character behind them do not go on with two words. -/
theorem not_closed_of_words {word flags name gap x spaceAfter after : Chars} {close : Char}
    (hflags : (flagsOf outputFlags).Reads flags []) (hname : identifier.Reads name [])
    (hword : identifier.Reads word []) (hgap : IsGap gap) (hx : OpensWord x)
    (hspaceAfter : ∀ d ∈ spaceAfter, isBlank d = true) (hclose : close = ')' ∨ close = Shell.graveAccent) :
    flags ++ (name ++ (spaceAfter ++ close :: after)) ≠ word ++ (gap ++ x) := by
  intro h
  rcases reads_flags hflags with rfl | ⟨_, _, _, _, -, -, -, -, rfl⟩
  · have hcloseName : isIdentifierChar close = false := by rcases hclose with rfl | rfl <;> decide
    have hcloseBlank : isBlank close = false := by rcases hclose with rfl | rfl <;> decide
    obtain ⟨s, rest, hs⟩ := List.exists_cons_of_ne_nil
      (List.append_ne_nil_of_right_ne_nil spaceAfter (List.cons_ne_nil close after))
    have hsName : isIdentifierChar s = false := head?_blanks_cons hspaceAfter hcloseName s (by rw [hs]; rfl)
    obtain ⟨b, blanks, rfl⟩ := List.exists_cons_of_ne_nil hgap.1
    have hbName : isIdentifierChar b = false :=
      head?_blanks_cons hgap.2 hcloseName b (by rfl : b ∈ (b :: blanks ++ close :: after).head?)
    have hnot : ∀ {text : Chars}, identifier.Reads text [] → ∀ d ∈ text, (!isIdentifierChar d) = false :=
      fun hread d hd => by simp [isIdentifierChar_of_mem (reads_identifier hread) hd]
    rw [hs] at h
    obtain ⟨-, rfl, hrest⟩ := eq_of_append_cons_eq (hnot hname) (hnot hword) (by simp [hsName])
      (by simp [hbName]) h
    -- The blanks end at the closing character, and also where the second word starts.
    obtain ⟨d, more, rfl, hd⟩ := hx
    have hsame : spaceAfter ++ close :: after = (s :: blanks) ++ d :: more := by rw [hs, hrest]; rfl
    obtain ⟨-, rfl, -⟩ := eq_of_append_cons_eq (p := fun d => !isBlank d)
      (fun d hd => by simp [hspaceAfter d hd]) (fun d hd => by simp [hgap.2 d hd]) (by simp [hcloseBlank])
      (by simp [not_blank_of_opens hd]) hsame
    rcases hclose with rfl | rfl <;> exact absurd hd (by decide)
  · obtain ⟨d, more, rfl, hd, -⟩ := reads_identifier hword
    exact ne_dash_of_isIdentifierStart hd (List.cons.inj h).1.symm

/-- Behind a `-state=` argument the words of the inner call follow, and then the outer call is not closed. -/
theorem not_closed_behind_state (hopening : IsOpening e bracket) (fit : c.Fit outputFlags)
    {w gap flags name space spaceAfter after after' : Chars} {close : Char} (hw : ∀ d ∈ w, isBlank d = false)
    (hgap : IsGap gap) (hflags : (flagsOf outputFlags).Reads flags []) (hname : identifier.Reads name [])
    (hspace : ∀ d ∈ space, isBlank d = true) (hspaceAfter : ∀ d ∈ spaceAfter, isBlank d = true)
    (hclose : close = ')' ∨ close = Shell.graveAccent) :
    bracket ++ (space ++ ("terraform".toList ++ (c.tail ++ after))) ≠
      w ++ (gap ++ (flags ++ (name ++ (spaceAfter ++ close :: after')))) := by
  intro h
  have isName : ∀ {word : String}, word = "terraform" ∨ word = "output" →
      identifier.Reads word.toList [] := by
    rintro word (rfl | rfl)
    · exact ⟨['t'], "erraform".toList, [], [], ⟨'t', by decide, rfl, rfl⟩,
        ⟨List.all_eq_true.mp (by decide), rfl⟩, rfl, rfl⟩
    · exact ⟨['o'], "utput".toList, [], [], ⟨'o', by decide, rfl, rfl⟩,
        ⟨List.all_eq_true.mp (by decide), rfl⟩, rfl, rfl⟩
  rcases cut_at_tool hopening fit hspace hw hgap (opensWord_flags hflags hname _) h with hcut | hcut
  · rcases reads_globalOption fit.option with hoption | ⟨directory, blanks, -, -, hoption⟩
    · rw [hoption, List.nil_append] at hcut
      exact not_closed_of_words hflags hname (isName (Or.inr rfl)) fit.gapAfter
        (opensWord_flags fit.flags fit.name after) hspaceAfter hclose hcut
    · -- There is no flag that starts as the option does.
      rw [hoption] at hcut
      rcases reads_flags hflags with rfl | ⟨d, _, _, _, hd, -, -, -, rfl⟩
      · obtain ⟨d, more, rfl, hd, -⟩ := reads_identifier hname
        exact ne_dash_of_isIdentifierStart hd (List.cons.inj hcut).1
      · obtain rfl : d = 'c' := (List.cons.inj (List.cons.inj hcut).2).1
        exact absurd hd (by decide)
  · exact not_closed_of_words hflags hname (isName (Or.inl rfl)) fit.gap (opensWord_option fit.option _)
      hspaceAfter hclose hcut

/-- A bare call that goes over the opening of a substitution names the same output as the call in it, or the
opening is in the argument of a `-state=` flag. -/
theorem name_or_state_of_crossing (hopening : IsOpening e bracket) (fit : c.Fit outputFlags)
    (fit' : c'.Fit outputFlags) {space P reach after after' : Chars} (hspace : ∀ d ∈ space, isBlank d = true)
    (hafter : ∀ d ∈ after.head?, isIdentifierChar d = false)
    (hafter' : ∀ d ∈ after'.head?, isIdentifierChar d = false)
    (hwhole : "terraform".toList ++ c'.tail = P ++ e :: reach)
    (hreach : bracket ++ (space ++ ("terraform".toList ++ (c.tail ++ after))) = reach ++ after') :
    c'.name = c.name ∨
      ∃ front state, P = front ++ ("-state=".toList ++ state) ∧ ∀ d ∈ state, isBlank d = false := by
  have hwhole' : "terraform".toList ++ (c'.tail ++ []) = P ++ e :: reach := by rw [List.append_nil, hwhole]
  rcases opening_cases hopening fit' hwhole' with ⟨w, gap, hw, hgap, rfl⟩ | hstate | ⟨Q, -, hQ⟩
  · refine Or.inl (name_eq_of_directory hopening fit fit' hspace hw hgap hafter hafter' ?_)
    simpa only [List.append_assoc, List.nil_append] using hreach
  · exact Or.inr hstate.state
  · simp at hQ

/-- A closed call that goes over the opening of a substitution names the same output as the call in it, or
its closing character is the opening one. -/
theorem name_eq_of_closed (hopening : IsOpening e bracket) (fit : c.Fit outputFlags)
    (fit' : c'.Fit outputFlags) {space spaceAfter P reach after after' : Chars} {close : Char}
    (hspace : ∀ d ∈ space, isBlank d = true) (hspaceAfter : ∀ d ∈ spaceAfter, isBlank d = true)
    (hclose : close = ')' ∨ close = Shell.graveAccent)
    (hafter : ∀ d ∈ after.head?, isIdentifierChar d = false)
    (hwhole : "terraform".toList ++ (c'.tail ++ (spaceAfter ++ [close])) = P ++ e :: reach)
    (hreach : bracket ++ (space ++ ("terraform".toList ++ (c.tail ++ after))) = reach ++ after') :
    c'.name = c.name ∨ (e = close ∧ P = "terraform".toList ++ (c'.tail ++ spaceAfter)) := by
  have hcloseName : isIdentifierChar close = false := by rcases hclose with rfl | rfl <;> decide
  rcases opening_cases hopening fit' hwhole with ⟨w, gap, hw, hgap, rfl⟩ | hstate | ⟨Q, rfl, hQ⟩
  · have hcloses : ∀ d ∈ (spaceAfter ++ close :: after').head?, isIdentifierChar d = false :=
      head?_blanks_cons hspaceAfter hcloseName
    refine Or.inl (name_eq_of_directory hopening fit fit' hspace hw hgap hafter hcloses ?_)
    rw [hreach]
    simp
  · obtain ⟨w, gap, more, hw, hgap, hmore, rfl⟩ := hstate.rest
    simp only [List.append_assoc, List.singleton_append] at hreach
    exact absurd hreach (not_closed_behind_state hopening fit hw hgap hmore fit'.name hspace hspaceAfter hclose)
  · obtain ⟨R, rfl, hR⟩ := behind_of_notMem (hopening.notMem_blanks hspaceAfter) hQ
    cases R with
    | nil => exact Or.inr ⟨(List.cons.inj hR).1.symm, by simp⟩
    | cons d R => simp at hR

end

/-! ## Substitutions are named -/

section

variable {c : CallPieces} {front space spaceAfter state after text name : Chars}

theorem mem_outputNames_of_found {form : Pattern} (hform : form ∈ outputForms) {m : Match}
    (hm : m ∈ form.findAll text) (hmarks : m.marks = [(1, name)]) : String.ofList name ∈ outputNames text := by
  refine mem_distinct.mpr (List.mem_flatMap.mpr ⟨form, hform, List.mem_map.mpr ⟨m, hm, ?_⟩⟩)
  rw [Match.part, Match.part?, hmarks]
  rfl

/-- The search for bare calls finds the output of a substitution, unless the substitution is in the argument
of a `-state=` flag. -/
theorem named_or_state {e : Char} {bracket : Chars} (hopening : IsOpening e bracket) (fit : c.Fit outputFlags)
    (hspace : ∀ d ∈ space, isBlank d = true) (hafter : ∀ d ∈ after.head?, isIdentifierChar d = false)
    (front : Chars) : String.ofList c.name ∈
        outputNames (front ++ e :: (bracket ++ (space ++ ("terraform".toList ++ (c.tail ++ after))))) ∨
      ∃ ahead state, front = ahead ++ ("-state=".toList ++ state) ∧ ∀ d ∈ state, isBlank d = false := by
  have hsplit : front ++ e :: (bracket ++ (space ++ ("terraform".toList ++ (c.tail ++ after)))) =
      (front ++ e :: (bracket ++ space)) ++ ("terraform".toList ++ c.tail ++ after) := by
    simp
  have hne : "terraform".toList ++ c.tail ≠ [] := by simp
  obtain ⟨m, hm, hread, hcase⟩ := stopsAt_outputCall.found_or_crossed (takes_outputCall fit hafter) hne
    (front ++ e :: (bracket ++ space))
  rw [← hsplit] at hm
  obtain ⟨c', fit', hwhole, hmarks⟩ := reads_outputCall.mp hread
  have hnamed := mem_outputNames_of_found List.mem_cons_self hm hmarks
  suffices h : c'.name = c.name ∨
      ∃ ahead state, front = ahead ++ ("-state=".toList ++ state) ∧ ∀ d ∈ state, isBlank d = false by
    refine h.imp_left fun hname => ?_
    rw [← hname]
    exact hnamed
  rcases hcase with hsame | ⟨before, inside, reach, behind, hfront, hback, hinside, -, hcross, hbehind⟩
  · rw [hmarks] at hsame
    exact Or.inl (by simpa using hsame)
  · rw [hwhole] at hcross
    rcases inside_or_behind hfront.symm with ⟨w, -, hrest⟩ | ⟨P, rfl, rfl⟩
    · -- The match does not start behind the opening, where there are a bracket and blanks.
      obtain ⟨d, more, rfl⟩ := List.exists_cons_of_ne_nil hinside
      obtain rfl : 't' = d := (List.cons.inj hcross).1
      have hmem : 't' ∈ bracket ++ space := hrest ▸ List.mem_append_right w List.mem_cons_self
      rcases List.mem_append.mp hmem with ht | ht
      · exact absurd ht (by cases hopening <;> decide)
      · exact absurd (hspace 't' ht) (by decide)
    · rw [List.append_assoc, List.cons_append] at hcross
      have hreach : bracket ++ (space ++ ("terraform".toList ++ (c.tail ++ after))) =
          bracket ++ space ++ reach ++ behind := by
        rw [List.append_assoc _ reach, ← hback]
        simp
      have hstop : ∀ d ∈ behind.head?, isIdentifierChar d = false := fun d hd => by simpa using hbehind d hd
      refine (name_or_state_of_crossing hopening fit fit' hspace hafter hstop hcross hreach).imp_right ?_
      rintro ⟨ahead, state, rfl, hstate⟩
      exact ⟨before ++ ahead, state, by simp, hstate⟩

/-- A substitution that is all of the argument of a `-state=` flag is the value of an assignment. -/
theorem named_of_assigned (fit : c.Fit outputFlags) (hspace : ∀ d ∈ space, isBlank d = true)
    (hspaceAfter : ∀ d ∈ spaceAfter, isBlank d = true) (front after : Chars) :
    String.ofList c.name ∈ outputNames (front ++ '-' :: ("state=".toList ++ '$' :: (['('] ++
      (space ++ ("terraform".toList ++ (c.tail ++ (spaceAfter ++ ')' :: after))))))) := by
  have hreads := reads_assigned.mpr ⟨"state".toList, c, space, spaceAfter, by decide,
    List.all_eq_true.mp (by decide), fit, hspace, hspaceAfter, rfl, rfl⟩
  obtain ⟨m, hm, hread, hcase⟩ := (stopsAt_of_takes (by rfl) (by rfl) takes_assigned).found_or_crossed
    (@takes_assigned _ after _ hreads) (List.append_ne_nil_of_left_ne_nil (by decide) _) (front ++ ['-'])
  obtain ⟨assigned, c', space', spaceAfter', -, hall, fit', hspaceInner, hspaceAfter', hmarks, hwhole⟩ :=
    reads_assigned.mp hread
  have hnamed : String.ofList c'.name ∈ outputNames (front ++ '-' :: ("state=".toList ++ '$' :: (['('] ++
      (space ++ ("terraform".toList ++ (c.tail ++ (spaceAfter ++ ')' :: after))))))) := by
    refine mem_outputNames_of_found (List.mem_cons_of_mem _ List.mem_cons_self) (m := m) ?_ hmarks
    simpa using hm
  suffices hname : c'.name = c.name by
    rw [← hname]
    exact hnamed
  rcases hcase with hsame | ⟨before, inside, reach, behind, hfront, hback, hinside, hreachNe, hcross, -⟩
  · rw [hmarks] at hsame
    simpa using hsame
  · obtain ⟨P, -, rfl⟩ := last_behind hinside hfront.symm
    -- The dash is in the call of the match, because there is none in what stands before that.
    have hdash : '-' ∉ assigned ++ ("=$(".toList ++ space') := by
      simp only [List.mem_append, not_or]
      refine ⟨fun hd => ?_, by decide, fun hd => ?_⟩
      · exact absurd (hall '-' hd) (by decide)
      · exact absurd (hspaceInner '-' hd) (by decide)
    have hcall : (assigned ++ ("=$(".toList ++ space')) ++
        ("terraform".toList ++ (c'.tail ++ (spaceAfter' ++ [')']))) = P ++ '-' :: reach := by
      rw [hwhole] at hcross
      simpa using hcross
    obtain ⟨Q, -, hQ⟩ := behind_of_notMem hdash hcall
    have hends : (Q ++ ['-']) ++ reach = ("terraform".toList ++ (c'.tail ++ spaceAfter')) ++ [')'] := by
      simpa using hQ.symm
    have hopens : reach ++ behind = "state=".toList ++ '$' :: (['('] ++
        (space ++ ("terraform".toList ++ (c.tail ++ (spaceAfter ++ ')' :: after))))) := by
      rw [← hback]
      simp
    obtain ⟨w, rfl, hw⟩ := ends_behind hreachNe hends (by decide) hopens
    have hclosed : "terraform".toList ++ (c'.tail ++ (spaceAfter' ++ [')'])) =
        (Q ++ '-' :: "state=".toList) ++ '$' :: w := by
      rw [hQ]
      simp
    rcases name_eq_of_closed .dollar fit fit' hspace hspaceAfter' (Or.inl rfl)
      (head?_blanks_cons hspaceAfter (by decide)) hclosed hw with hname | ⟨hsame, -⟩
    · exact hname
    · exact absurd hsame (by decide)

/-- No call ends inside the argument of a `-state=` flag: there is a blank before its name, and no equals sign
in the name. -/
theorem not_closed_in_state (fit : c.Fit outputFlags) (hspaceAfter : ∀ d ∈ spaceAfter, isBlank d = true)
    (hstate : ∀ d ∈ state, isBlank d = false) (front ahead : Chars) :
    front ++ ("-state=".toList ++ state) ≠ ahead ++ (c.tail ++ spaceAfter) := by
  intro h
  obtain ⟨most, b, hb, hblank⟩ := blank_before_name fit.gapAfter fit.flags
  have hsplit : ahead ++ (c.tail ++ spaceAfter) = (ahead ++ (c.gap ++ (c.option ++ ("output".toList ++ most)))) ++
      b :: (c.name ++ spaceAfter) := by
    rw [CallPieces.tail, ← List.append_assoc c.gapAfter, hblank]
    simp
  rw [hsplit] at h
  rcases inside_or_behind h with ⟨w, -, hw⟩ | ⟨Q, -, hQ⟩
  · have hmem : '=' ∈ c.name ++ spaceAfter := by
      rw [hw]
      exact List.mem_append_right w (List.mem_append_left state (by decide))
    rcases List.mem_append.mp hmem with hname | hspace
    · exact absurd (isIdentifierChar_of_mem (reads_identifier fit.name) hname) (by decide)
    · exact absurd (hspaceAfter '=' hspace) (by decide)
  · have hmem : b ∈ "-state=".toList ++ state := by
      rw [hQ]
      exact List.mem_append_right Q List.mem_cons_self
    rcases List.mem_append.mp hmem with hflag | hmem
    · rw [eq_false_of_any (by decide : "-state=".toList.any isBlank = false) b hflag] at hb
      cases hb
    · rw [hstate b hmem] at hb
      cases hb

/-- A substitution between grave accents is found as such, also in the argument of a `-state=` flag. -/
theorem named_of_graves (fit : c.Fit outputFlags) (hspace : ∀ d ∈ space, isBlank d = true)
    (hspaceAfter : ∀ d ∈ spaceAfter, isBlank d = true) (hstate : ∀ d ∈ state, isBlank d = false)
    (front after : Chars) :
    String.ofList c.name ∈ outputNames ((front ++ ("-state=".toList ++ state)) ++ Shell.graveAccent ::
      (space ++ ("terraform".toList ++ (c.tail ++ (spaceAfter ++ Shell.graveAccent :: after))))) := by
  have hreads := reads_graveQuoted.mpr ⟨c, space, spaceAfter, fit, hspace, hspaceAfter, rfl, rfl⟩
  obtain ⟨m, hm, hread, hcase⟩ := (stopsAt_of_takes (by rfl) (by rfl) takes_graveQuoted).found_or_crossed
    (@takes_graveQuoted _ after _ hreads) (List.cons_ne_nil _ _) (front ++ ("-state=".toList ++ state))
  obtain ⟨c', space', spaceAfter', fit', hspace', hspaceAfter', hmarks, hwhole⟩ := reads_graveQuoted.mp hread
  have hnamed : String.ofList c'.name ∈ outputNames ((front ++ ("-state=".toList ++ state)) ++
      Shell.graveAccent :: (space ++ ("terraform".toList ++
        (c.tail ++ (spaceAfter ++ Shell.graveAccent :: after))))) := by
    refine mem_outputNames_of_found (List.mem_cons_of_mem _ (List.mem_cons_of_mem _ List.mem_cons_self))
      (m := m) ?_ hmarks
    simpa using hm
  suffices hname : c'.name = c.name by
    rw [← hname]
    exact hnamed
  rcases hcase with hsame | ⟨before, inside, reach, behind, hfront, hback, hinside, hreachNe, hcross, -⟩
  · rw [hmarks] at hsame
    simpa using hsame
  · obtain ⟨d, inside, rfl⟩ := List.exists_cons_of_ne_nil hinside
    obtain ⟨e, reach, rfl⟩ := List.exists_cons_of_ne_nil hreachNe
    simp only [List.cons_append, List.append_assoc, List.nil_append] at hback
    obtain ⟨rfl, hreach⟩ := List.cons.inj hback
    rw [hwhole] at hcross
    obtain ⟨rfl, hcall⟩ := List.cons.inj hcross
    obtain ⟨P, rfl, hP⟩ := behind_of_notMem (IsOpening.grave.notMem_blanks hspace') hcall
    have hclosed : "terraform".toList ++ (c'.tail ++ (spaceAfter' ++ [Shell.graveAccent])) =
        P ++ Shell.graveAccent :: reach := by
      simpa using hP
    have hopens : [] ++ (space ++ ("terraform".toList ++
        (c.tail ++ (spaceAfter ++ Shell.graveAccent :: after)))) = reach ++ behind := by
      exact hreach
    rcases name_eq_of_closed .grave fit fit' hspace hspaceAfter' (Or.inr rfl)
      (head?_blanks_cons hspaceAfter (by decide)) hclosed hopens with hname | ⟨-, rfl⟩
    · exact hname
    · refine absurd ?_ (not_closed_in_state fit' hspaceAfter' hstate front
        (before ++ Shell.graveAccent :: (space' ++ "terraform".toList)))
      rw [hfront]
      simp

/-- A flag for the state of a call, in whose argument, behind something else, a substitution stands that calls
Terraform itself. -/
def stateFromCall : Pattern := seq [word "-state=", solid1 [], substituted inlineCall]

theorem occursIn_stateFromCall {parts : List (Nat × Chars)} (hreads : (substituted inlineCall).Reads text parts)
    (hstate : ∀ d ∈ state, isBlank d = false) (hne : state ≠ []) (front after : Chars) :
    stateFromCall.occursIn ((front ++ ("-state=".toList ++ state)) ++ (text ++ after)) = true := by
  have hsolid : (solid1 []).Reads state [] := reads_span1.mpr ⟨hne, fun d hd => by simp [hstate d hd], rfl⟩
  have hargument : (seq [solid1 [], substituted inlineCall]).Reads (state ++ text) parts :=
    (reads_seq_of_unmarked (by rfl)).mpr ⟨state, text, hsolid, hreads, rfl⟩
  have hflag : stateFromCall.Reads ("-state=".toList ++ (state ++ text)) parts :=
    reads_seq_word.mpr ⟨_, hargument, rfl⟩
  have hmatch : (stateFromCall.matchBetween front
      ("-state=".toList ++ (state ++ text) ++ after)).isSome = true :=
    isSome_matchBetween hflag (by rfl) (List.prefix_append _ _) front
  have hoccurs := occursIn_of_matchBetween hmatch
  simpa using hoccurs

/-- What a substitution calls for is among the outputs that its text names, unless the text has a `-state=`
flag from a call. -/
theorem output_named_of_substitution {form : Pattern} (hform : form ∈ substitutionForms)
    {parts : List (Nat × Chars)} (hreads : form.Reads text parts)
    (hplain : stateFromCall.occursIn (front ++ (text ++ after)) = false) :
    String.ofList ((parts.lookup 1).getD []) ∈ outputNames (front ++ (text ++ after)) := by
  simp only [substitutionForms, List.mem_cons, List.not_mem_nil, or_false] at hform
  rcases hform with rfl | rfl
  · obtain ⟨c, space, spaceAfter, fit, hspace, hspaceAfter, rfl, rfl⟩ := reads_substituted.mp hreads
    have hclose : ∀ d ∈ (spaceAfter ++ ')' :: after).head?, isIdentifierChar d = false :=
      head?_blanks_cons hspaceAfter (by decide)
    have hcase := named_or_state .dollar fit.output hspace hclose front
    rcases hcase with hnamed | ⟨ahead, state, rfl, hstate⟩
    · simpa using hnamed
    · by_cases hne : state = []
      · have hnamed := named_of_assigned fit.output hspace hspaceAfter ahead after
        rw [hne]
        simpa using hnamed
      · rw [occursIn_stateFromCall hreads hstate hne] at hplain
        cases hplain
  · obtain ⟨opening, enclosed, ⟨d, hd, rfl, -⟩, henclosed, rfl⟩ :=
      (reads_seq_of_unmarked (by rfl)).mp hreads
    obtain rfl : d = Shell.graveAccent := by simpa using hd
    obtain ⟨c, space, spaceAfter, last, fit, hspace, hspaceAfter, ⟨close, hlast, rfl, -⟩, rfl, rfl⟩ :=
      (reads_enclosedCall (by rfl)).mp henclosed
    obtain rfl : close = Shell.graveAccent := by simpa using hlast
    have hclose : ∀ d ∈ (spaceAfter ++ Shell.graveAccent :: after).head?, isIdentifierChar d = false :=
      head?_blanks_cons hspaceAfter (by decide)
    have hcase := named_or_state .grave fit.output hspace hclose front
    rcases hcase with hnamed | ⟨ahead, state, rfl, hstate⟩
    · simpa using hnamed
    · have hnamed := named_of_graves fit.output hspace hspaceAfter hstate ahead after
      simpa using hnamed

end

end DeployTrace
