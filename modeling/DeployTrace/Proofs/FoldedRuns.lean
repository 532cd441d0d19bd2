/-
  DeployTrace/Proofs/FoldedRuns.lean --- what a step runs holds no continuation.

  WHAT THIS FILE IS FOR.  Detection reads the text of a step with its continuation lines joined, and
  linking joins the lines once more before it looks for a release or a chart.  Nothing may be left to be
  joined the second time, although backslashes and line ends can stand next to each other in any number.

  WHAT JOINING IS.  `Shell.Folds` says it without going through the text character by character: up to the
  first continuation a text stays, the continuation and the blanks after it become one space, and the rest
  is folded in the same way.  Every text has one folded form, which is the joined text (`folds_iff`).
-/
import DeployTrace.Link.Score
import DeployTrace.Proofs.JoinedOperations

set_option autoImplicit false

namespace DeployTrace

open Text

namespace Shell

variable {text folded front back rest lineEnd gap : Chars}

/-! ## Texts with a continuation -/

/-- A backslash stands at the end of a line somewhere in a text. -/
def HasContinuation (text : Chars) : Prop := ['\\', '\n'] <:+: text ∨ ['\\', '\r', '\n'] <:+: text

theorem hasContinuation_iff :
    HasContinuation text ↔ ∃ front back, text = front ++ back ∧ startsContinuation back = true := by
  constructor
  · rintro (⟨front, more, rfl⟩ | ⟨front, more, rfl⟩)
    · exact ⟨front, '\\' :: '\n' :: more, by simp, rfl⟩
    · exact ⟨front, '\\' :: '\r' :: '\n' :: more, by simp, rfl⟩
  · rintro ⟨front, back, rfl, hcontinues⟩
    rcases startsContinuation_iff.mp hcontinues with ⟨more, rfl⟩ | ⟨more, rfl⟩
    · exact Or.inl ⟨front, more, by simp⟩
    · exact Or.inr ⟨front, more, by simp⟩

/-- A text without continuations has none in front of what does not start with a line end. -/
theorem freeBefore_of_not (h : ¬ HasContinuation front) (hrest : ∀ c ∈ rest.head?, c ≠ '\n' ∧ c ≠ '\r') :
    FreeBefore front rest := by
  intro a b hfront hne
  rw [← Bool.not_eq_true]
  intro hcontinues
  refine h (hasContinuation_iff.mpr ⟨a, b, hfront, ?_⟩)
  -- Whatever follows the last backslash of the front is in the front or is no line end.
  match b, hne with
  | [c], _ | [c, d], _ =>
    cases rest with
    | nil => simpa using hcontinues
    | cons e rest =>
        obtain ⟨hfeed, hreturn⟩ := hrest e rfl
        simp_all [startsContinuation_iff]
  | _ :: _ :: _ :: _, _ => simp_all [startsContinuation_iff]

/-- A text in which no continuation starts has none. -/
theorem FreeBefore.not_hasContinuation (h : FreeBefore front rest) : ¬ HasContinuation front := by
  intro hhas
  obtain ⟨a, b, hfront, hcontinues⟩ := hasContinuation_iff.mp hhas
  have hne : b ≠ [] := by
    rintro rfl
    cases hcontinues
  have hlong := startsContinuation_append hcontinues rest
  rw [h a b hfront hne] at hlong
  cases hlong

/-- A joined text has no continuation: it would be one of the text already. -/
theorem not_hasContinuation_joinLines (text : Chars) : ¬ HasContinuation (joinLines text) := by
  intro hhas
  obtain ⟨front, back, hjoined, hcontinues⟩ := hasContinuation_iff.mp hhas
  obtain ⟨more, rfl⟩ : ∃ more, back = '\\' :: more := by
    rcases startsContinuation_iff.mp hcontinues with ⟨more, rfl⟩ | ⟨more, rfl⟩ <;> exact ⟨_, rfl⟩
  obtain ⟨before, rest, -, -, hrest⟩ := exists_of_joinLines (by decide) hjoined
  cases hstarts : startsContinuation ('\\' :: rest) with
  | true =>
      obtain ⟨joined, hspace⟩ := exists_joinLines_of_continuation hstarts
      rw [hspace] at hrest
      exact absurd (List.cons.inj hrest).1 (by decide)
  | false =>
      rw [joinLines_keep hstarts] at hrest
      obtain ⟨-, rfl⟩ := List.cons.inj hrest
      rw [startsContinuation_cons_joinLines hcontinues] at hstarts
      cases hstarts

/-! ## Folding -/

/-- A text and its folded form. -/
inductive Folds : Chars → Chars → Prop
  /-- a text without a continuation stays -/
  | plain {text : Chars} (free : ¬ HasContinuation text) : Folds text text
  /-- the first continuation becomes a space, with all the blanks after it -/
  | fold {front lineEnd gap rest folded : Chars} (free : ¬ HasContinuation front)
      (ends : lineEnd = ['\n'] ∨ lineEnd = ['\r', '\n']) (blank : ∀ c ∈ gap, isBlank c = true)
      (solid : ∀ c ∈ rest.head?, isBlank c = false) (more : Folds rest folded) :
      Folds (front ++ '\\' :: (lineEnd ++ (gap ++ rest))) (front ++ ' ' :: folded)

theorem joinLinesFrom_gap (hgap : ∀ c ∈ gap, isBlank c = true) (hrest : ∀ c ∈ rest.head?, isBlank c = false) :
    joinLinesFrom true (gap ++ rest) = joinLines rest := by
  induction gap with
  | nil =>
      cases rest with
      | nil => rfl
      | cons c rest => exact joinLinesFrom_of_solid (hrest c rfl)
  | cons c gap ih =>
      obtain ⟨hc, hgap⟩ := List.forall_mem_cons.mp hgap
      exact (joinLinesFrom_skip hc).trans (ih hgap)

theorem joinLines_continuation (hends : lineEnd = ['\n'] ∨ lineEnd = ['\r', '\n'])
    (hgap : ∀ c ∈ gap, isBlank c = true) (hrest : ∀ c ∈ rest.head?, isBlank c = false) :
    joinLines ('\\' :: (lineEnd ++ (gap ++ rest))) = ' ' :: joinLines rest := by
  rw [← joinLinesFrom_gap hgap hrest]
  rcases hends with rfl | rfl
  · exact joinLinesFrom_feed
  · exact joinLinesFrom_return_feed

/-- The folded form of a text is the joined text. -/
theorem Folds.eq_joinLines (h : Folds text folded) : folded = joinLines text := by
  induction h with
  | @plain text free =>
      have hfree : FreeBefore text [] := freeBefore_of_not free (by simp)
      exact hfree.joinLines_eq.symm
  | @fold front lineEnd gap rest folded free ends blank solid more ih =>
      have hfree : FreeBefore front ('\\' :: (lineEnd ++ (gap ++ rest))) := freeBefore_of_not free (by simp)
      rw [joinLines_append_free hfree, joinLines_continuation ends blank solid, ih]

/-- A text that starts a continuation is the backslash, the line end, the blanks after it and a rest. -/
theorem exists_rest_of_continuation (h : startsContinuation text = true) :
    ∃ lineEnd gap rest, text = '\\' :: (lineEnd ++ (gap ++ rest)) ∧
      (lineEnd = ['\n'] ∨ lineEnd = ['\r', '\n']) ∧ (∀ c ∈ gap, isBlank c = true) ∧
      (∀ c ∈ rest.head?, isBlank c = false) := by
  have hsplit : ∀ more : Chars, (∀ c ∈ more.takeWhile isBlank, isBlank c = true) ∧
      (∀ c ∈ (more.dropWhile isBlank).head?, isBlank c = false) := by
    intro more
    refine ⟨fun c hc => List.mem_takeWhile_imp hc, fun c hc => ?_⟩
    have hnot := List.head?_dropWhile_not isBlank more
    rw [Option.mem_def.mp hc] at hnot
    exact hnot
  rcases startsContinuation_iff.mp h with ⟨more, rfl⟩ | ⟨more, rfl⟩
  · exact ⟨['\n'], more.takeWhile isBlank, more.dropWhile isBlank,
      by simp [List.takeWhile_append_dropWhile], Or.inl rfl, hsplit more⟩
  · exact ⟨['\r', '\n'], more.takeWhile isBlank, more.dropWhile isBlank,
      by simp [List.takeWhile_append_dropWhile], Or.inr rfl, hsplit more⟩

/-- Every text has a folded form.  The rest after a continuation is shorter than the text. -/
theorem folds_joinLines (text : Chars) : Folds text (joinLines text) := by
  obtain ⟨front, back, htext, hfree, hback⟩ := exists_continuation text
  have free := hfree.not_hasContinuation
  rcases hback with rfl | hcontinues
  · rw [List.append_nil] at htext
    rw [htext, hfree.joinLines_eq]
    exact .plain free
  · obtain ⟨lineEnd, gap, rest, rfl, hends, hgap, hrest⟩ := exists_rest_of_continuation hcontinues
    have shorter : rest.length < text.length := by
      rw [htext]
      simp only [List.length_append, List.length_cons]
      omega
    rw [htext, joinLines_append_free hfree, joinLines_continuation hends hgap hrest]
    exact .fold free hends hgap hrest (folds_joinLines rest)
termination_by text.length

theorem folds_iff : Folds text folded ↔ joinLines text = folded :=
  ⟨fun h => h.eq_joinLines.symm, fun h => h ▸ folds_joinLines text⟩

end Shell

/-! ## What a step runs -/

/-- What a step runs is the one folded form of its text.  It has no continuation, a step with that text runs
just this text, and release and chart are the same in the text as it is written and in the folded form. -/
theorem runText_folded (step : Table) :
    (∀ text : String, Shell.Folds (rawRunText step).toList text.toList ↔ runText step = text) ∧
      ¬ Shell.HasContinuation (runText step).toList ∧
      runText [(.text "run", .text (runText step))] = runText step ∧
      releaseName? (runText step) = releaseName? (rawRunText step) ∧
      chartReference? (runText step) = chartReference? (rawRunText step) := by
  have hjoined : (runText step).toList = Shell.joinLines (rawRunText step).toList := by
    rw [runText_eq, String.toList_ofList]
  have harguments : releaseArguments (runText step) = releaseArguments (rawRunText step) := by
    unfold releaseArguments
    rw [hjoined, Shell.joinLines_joinLines]
  refine ⟨fun text => ?_, ?_, ?_, ?_, ?_⟩
  · rw [Shell.folds_iff, ← hjoined]
    exact String.toList_inj
  · rw [hjoined]
    exact Shell.not_hasContinuation_joinLines _
  · have hagain := runText_eq [(.text "run", .text (runText step))]
    rw [hagain]
    show String.ofList (Shell.joinLines (runText step).toList) = runText step
    rw [joinLines_runText, String.ofList_toList]
  · exact congrArg (·[0]?) harguments
  · exact congrArg (·[1]?) harguments

/-- Backslashes and line ends next to each other leave no continuation behind. -/
example : runText [(.text "run", .text "helm \\\r\\\n\\\r\n\n upgrade \\\\\nweb")] = "helm \\\r  upgrade \\ web" := by
  decide +kernel

end DeployTrace
