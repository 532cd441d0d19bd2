/-
  DeployTrace/Proofs/HelmCalls.lean --- where a text calls Helm with a subcommand.

  WHAT THIS FILE IS FOR.  Arguments are read after the first call with one of some subcommands, and two
  readers of one text may look for different subcommands.  `CallsAt` says what a call is without a pattern:
  the word `helm`, a gap, and the subcommand as a word of its own.  `FirstCall` says which subcommand the
  first call of a text has.  A text has one first call at most, and the arguments are those after it
  whatever else was looked for (`FirstCall.positionals_eq`).

  HOW IT IS PROVED.  The pattern of a call matches where a call stands and nowhere else
  (`CallsAt.exists_match`, `exists_callsAt_of_match`).  Of two subcommands none starts with the other, so
  one place has one call.
-/
import DeployTrace.Shell.Helm
import DeployTrace.Proofs.CallLines
import Mathlib.Data.List.TakeWhile

set_option autoImplicit false

namespace DeployTrace.Shell.Helm

open Text Pattern

/-! ## Calls -/

/-- A text starts with a call of Helm with a subcommand, which `rest` follows.  The call does not go on
from a word before it, and the subcommand ends where `rest` starts. -/
structure CallsAt (verb : String) (before text rest : Chars) : Prop where
  starts : ∀ c ∈ before.getLast?, isWord c = false
  ends : ∀ c ∈ rest.head?, isWord c = false
  stands : ∃ gap, IsGap gap ∧ text = "helm".toList ++ (gap ++ (verb.toList ++ rest))

theorem releaseVerb_chars : ∀ verb ∈ releaseVerbs, verb.toList ≠ [] ∧ verb.toList.all isWord = true := by
  decide

/-- No subcommand starts with another one. -/
theorem releaseVerb_apart : ∀ verb ∈ releaseVerbs, ∀ other ∈ releaseVerbs,
    other.toList <+: verb.toList → other = verb := by
  decide

/-- What a run goes over up to its end is left out. -/
theorem dropWhile_run {p : Char → Bool} {text rest : Chars} (hall : ∀ c ∈ text, p c = true)
    (hend : ∀ c ∈ rest.head?, p c = false) : (text ++ rest).dropWhile p = rest := by
  rw [List.dropWhile_append_of_pos hall]
  cases rest with
  | nil => rfl
  | cons c more => simp [hend c rfl]

section

variable {verb other : String} {verbs : List String} {before text rest more : Chars} {m : Match}

theorem isWord_of_mem_releaseVerb (hverb : verb ∈ releaseVerbs) : ∀ c ∈ verb.toList, isWord c = true :=
  List.all_eq_true.mp (releaseVerb_chars verb hverb).2

theorem head?_releaseVerb (hverb : verb ∈ releaseVerbs) (rest : Chars) :
    ∀ c ∈ (verb.toList ++ rest).head?, isBlank c = false := by
  obtain ⟨d, tail, hd⟩ := List.exists_cons_of_ne_nil (releaseVerb_chars verb hverb).1
  have hword := isWord_of_mem_releaseVerb hverb
  rw [hd] at hword ⊢
  intro c hc
  cases hc
  exact isBlank_eq_false_of_isWord (hword d List.mem_cons_self)

/-- What goes on with one subcommand does not start with another one. -/
theorem releaseVerb_not_prefix (hverb : verb ∈ releaseVerbs) (hother : other ∈ releaseVerbs)
    (hne : other ≠ verb) : ¬ other.toList <+: verb.toList ++ rest := by
  intro hprefix
  rcases Nat.le_total other.toList.length verb.toList.length with hle | hle
  · exact hne (releaseVerb_apart verb hverb other hother
      (List.prefix_of_prefix_length_le hprefix (List.prefix_append _ _) hle))
  · exact hne (releaseVerb_apart other hother verb hverb
      (List.prefix_of_prefix_length_le (List.prefix_append _ _) hprefix hle)).symm

/-- One place has one call. -/
theorem CallsAt.unique (h : CallsAt verb before text rest) (h' : CallsAt other before text more)
    (hverb : verb ∈ releaseVerbs) (hother : other ∈ releaseVerbs) : verb = other := by
  obtain ⟨gap, hgap, rfl⟩ := h.stands
  obtain ⟨gap', hgap', htext⟩ := h'.stands
  -- Both gaps go on to the first character that is not blank.
  have hsame : verb.toList ++ rest = other.toList ++ more := by
    rw [← dropWhile_run hgap.2 (head?_releaseVerb hverb rest),
      ← dropWhile_run hgap'.2 (head?_releaseVerb hother more), List.append_cancel_left htext]
  refine Decidable.byContradiction fun hne => ?_
  exact releaseVerb_not_prefix hverb hother (Ne.symm hne) ⟨more, hsame.symm⟩

/-! ### The pattern of a call -/

theorem takes_oneWordOf (hverb : verb ∈ verbs)
    (apart : ∀ other ∈ verbs, other ≠ verb → ¬ other.toList <+: verb.toList ++ rest) :
    (oneWordOf verbs).Takes verb.toList [] rest := by
  refine takes_oneOf_of_mem (List.mem_map_of_mem hverb) (takes_word verb) fun p hp => ?_
  obtain ⟨other, hother, rfl⟩ := List.mem_map.mp hp
  by_cases heq : other = verb
  · exact Or.inl (congrArg word heq)
  · exact Or.inr (refuses_word (apart other hother heq))

/-- The pattern of a call matches where one stands, and marks the rest of the line. -/
theorem CallsAt.exists_match (h : CallsAt verb before text rest) (hverb : verb ∈ verbs)
    (hverbs : ∀ v ∈ verbs, v ∈ releaseVerbs) :
    ∃ m, (callLine verbs).matchBetween before text = some m ∧ m.part 1 = rest.takeWhile isInLine := by
  obtain ⟨gap, hgap, rfl⟩ := h.stands
  have hsplit : rest.takeWhile isInLine ++ rest.dropWhile isInLine = rest := List.takeWhile_append_dropWhile
  have hlast : (verb.toList.getLast?.map isWord).getD false = true := by
    have hne := (releaseVerb_chars verb (hverbs verb hverb)).1
    rw [List.getLast?_eq_some_getLast hne]
    exact isWord_of_mem_releaseVerb (hverbs verb hverb) _ (List.getLast_mem hne)
  have hend : (rest.head?.map isWord).getD false = false := by
    cases hhead : rest.head? with
    | none => rfl
    | some c => exact h.ends c hhead
  have hverbTaken : (oneWordOf verbs).Takes verb.toList [] rest :=
    takes_oneWordOf hverb fun other hother hne =>
      releaseVerb_not_prefix (hverbs verb hverb) (hverbs other hother) hne
  have hline : (mark 1 line).Takes (rest.takeWhile isInLine) [(1, rest.takeWhile isInLine)]
      (rest.dropWhile isInLine) := by
    refine takes_mark (takes_span (List.all_eq_true.mp List.all_takeWhile) fun c hc => ?_)
    have hstop := List.head?_dropWhile_not isInLine rest
    rw [Option.mem_def.mp hc] at hstop
    exact hstop
  have hcall : (seq [oneWordOf verbs, wordEdge, mark 1 line]).Takes
      (verb.toList ++ rest.takeWhile isInLine) [(1, rest.takeWhile isInLine)] (rest.dropWhile isInLine) := by
    refine takes_wordEdge_between (releaseVerb_chars verb (hverbs verb hverb)).1 ?_ hline ?_
    · rw [hsplit]
      exact hverbTaken
    · rw [hsplit, hlast, hend]
      decide
  have hgapEnd := head?_releaseVerb (hverbs verb hverb) rest
  rw [← hsplit, ← List.append_assoc] at hgapEnd
  have htakes := takes_seq_word (w := "helm") (takes_seq_cons (takes_gap hgap hgapEnd) hcall)
  have hmatch := matchBetween_of_takes htakes before
  have hgroup : (callLine verbs).matchBetween before = (both wordEdge (seq [word "helm", blanks1,
      oneWordOf verbs, wordEdge, mark 1 line])).matchBetween before := rfl
  have htext : "helm".toList ++ (gap ++ (verb.toList ++ rest.takeWhile isInLine)) ++ rest.dropWhile isInLine =
      "helm".toList ++ (gap ++ (verb.toList ++ rest)) := by
    simp
  rw [htext, ← matchBetween_wordEdge h.starts (d := 'h') rfl (by decide), ← hgroup] at hmatch
  exact ⟨_, hmatch, rfl⟩

/-- Where the pattern of a call matches, one stands. -/
theorem exists_callsAt_of_match (h : (callLine verbs).matchBetween before text = some m)
    (hverbs : ∀ v ∈ verbs, v ∈ releaseVerbs) :
    ∃ verb ∈ verbs, ∃ rest, CallsAt verb before text rest := by
  have hgroup : (callLine verbs).matchBetween before = (both wordEdge (both (seq [word "helm", blanks1])
      (both (oneWordOf verbs) (both wordEdge (mark 1 line))))).matchBetween before := rfl
  rw [hgroup] at h
  unfold Pattern.matchBetween Pattern.matchAt at h
  obtain ⟨later, hreach, -⟩ := Pattern.run_sound h
  -- Two edges and two texts are read one after the other.
  cases hreach with | both hedge hreach => ?_
  cases hedge with | wordEdge hedge => ?_
  cases hreach with | both hopening hreach => ?_
  cases hreach with | both hverb hreach => ?_
  cases hreach with | both hend hreach => ?_
  cases hend with | wordEdge hend => ?_
  obtain ⟨opening, m, hreads, ⟨more, hmore⟩, rfl⟩ := hopening.reads_text
  obtain ⟨gap, hgap, rfl⟩ := reads_seq_word.mp hreads
  obtain ⟨verbText, n, hverbReads, ⟨rest, hrest⟩, rfl⟩ := hverb.reads_text
  obtain ⟨p, hp, hread⟩ := reads_oneOf.mp hverbReads
  obtain ⟨verb, hmem, rfl⟩ := List.mem_map.mp hp
  obtain ⟨rfl, rfl⟩ := reads_word.mp hread
  have hgap := (reads_blanks1.mp hgap).1
  obtain rfl : "helm".toList ++ gap ++ more = text := hmore
  obtain rfl : verb.toList ++ rest = more := by simpa [Place.after] using hrest
  have hne := (releaseVerb_chars verb (hverbs verb hmem)).1
  have hlast : ∀ c ∈ verb.toList.getLast?, isWord c = true := fun c hc =>
    isWord_of_mem_releaseVerb (hverbs verb hmem) c (List.mem_of_getLast? hc)
  refine ⟨verb, hmem, rest, ?_, ?_, gap, hgap, by simp⟩
  · intro c hc
    have hh : isWord 'h' = true := by decide
    simpa [Place.atWordEdge, Option.mem_def.mp hc, hh] using hedge
  · intro c hc
    obtain ⟨d, hd⟩ := Option.ne_none_iff_exists'.mp fun h => hne (List.getLast?_eq_none_iff.mp h)
    simpa [Place.atWordEdge, Place.after, Option.mem_def.mp hc, hd, hlast d hd] using hend

/-! ## The first call -/

/-- No call with one of some subcommands stands in the text before this place. -/
def NoCallBefore (verbs : List String) (before rest : Chars) : Prop :=
  ∀ front back, before ++ rest = front ++ back → front.length < before.length →
    ∀ other ∈ verbs, ∀ more, ¬ CallsAt other front back more

/-- The first call in a text with one of some subcommands has this one. -/
def FirstCall (verbs : List String) (text : Chars) (verb : String) : Prop :=
  verb ∈ verbs ∧ ∃ before call rest, text = before ++ call ∧ CallsAt verb before call rest ∧
    NoCallBefore verbs before call

theorem noneBefore_callLine_iff (hverbs : ∀ v ∈ verbs, v ∈ releaseVerbs) :
    (callLine verbs).NoneBefore before text ↔ NoCallBefore verbs before text := by
  constructor
  · intro hnone front back hsplit hlt other hother more hcall
    obtain ⟨m, hmatch, -⟩ := hcall.exists_match hother hverbs
    rw [hnone front back hsplit hlt] at hmatch
    cases hmatch
  · intro hfirst front back hsplit hlt
    rw [Option.eq_none_iff_forall_ne_some]
    intro m hmatch
    obtain ⟨other, hother, more, hcall⟩ := exists_callsAt_of_match hmatch hverbs
    exact hfirst front back hsplit hlt other hother more hcall

/-- A text has one first call. -/
theorem FirstCall.unique (h : FirstCall verbs text verb) (h' : FirstCall verbs text other)
    (hverbs : ∀ v ∈ verbs, v ∈ releaseVerbs) : verb = other := by
  obtain ⟨hverb, before, call, rest, htext, hcall, hfirst⟩ := h
  obtain ⟨hother, before', call', rest', htext', hcall', hfirst'⟩ := h'
  have hsame := htext.symm.trans htext'
  have hle : before.length ≤ before'.length := Nat.not_lt.mp fun hlt =>
    hfirst before' call' hsame hlt other hother rest' hcall'
  have hle' : before'.length ≤ before.length := Nat.not_lt.mp fun hlt =>
    hfirst' before call hsame.symm hlt verb hverb rest hcall
  obtain ⟨rfl, rfl⟩ := List.append_inj hsame (Nat.le_antisymm hle hle')
  exact hcall.unique hcall' (hverbs verb hverb) (hverbs other hother)

/-- The arguments are read from the line of the first call. -/
theorem positionals_eq (hverb : verb ∈ verbs) (hverbs : ∀ v ∈ verbs, v ∈ releaseVerbs)
    (hcall : CallsAt verb before text rest) (hfirst : NoCallBefore verbs before text) :
    positionals verbs (before ++ text) =
      positionalWords false (words (firstCommand (rest.takeWhile isInLine))) := by
  obtain ⟨m, hmatch, hpart⟩ := hcall.exists_match hverb hverbs
  unfold positionals
  rw [search_of_first hmatch ((noneBefore_callLine_iff hverbs).mpr hfirst)]
  simp only [hpart]

/-- The arguments after the first call with one of some subcommands are those after the first call with
its own. -/
theorem FirstCall.positionals_eq (h : FirstCall verbs text verb) (hverbs : ∀ v ∈ verbs, v ∈ releaseVerbs) :
    positionals verbs text = positionals [verb] text := by
  obtain ⟨hverb, before, call, rest, rfl, hcall, hfirst⟩ := h
  have hown : ∀ v ∈ [verb], v ∈ verbs := fun v hv => List.mem_singleton.mp hv ▸ hverb
  rw [Helm.positionals_eq hverb hverbs hcall hfirst,
    Helm.positionals_eq (List.mem_singleton_self verb) (fun v hv => hverbs v (hown v hv)) hcall
      fun front back hsplit hlt other hother => hfirst front back hsplit hlt other (hown other hother)]

/-- Where arguments are read, there is a first call. -/
theorem exists_firstCall (hne : positionals verbs text ≠ []) (hverbs : ∀ v ∈ verbs, v ∈ releaseVerbs) :
    ∃ verb, FirstCall verbs text verb := by
  unfold positionals at hne
  cases hsearch : (callLine verbs).search text with
  | none => simp [hsearch] at hne
  | some m =>
      obtain ⟨before, call, rfl, hmatch, hnone⟩ := exists_first_of_search hsearch
      obtain ⟨verb, hverb, rest, hcall⟩ := exists_callsAt_of_match hmatch hverbs
      exact ⟨verb, hverb, before, call, rest, rfl, hcall, (noneBefore_callLine_iff hverbs).mp hnone⟩

end

end DeployTrace.Shell.Helm
