/-
  DeployTrace/Proofs/JoinedLines.lean --- what joining continuation lines does to a text.

  WHAT THIS FILE IS FOR.  Some readers look at a text as it is written and some at the joined text, so it
  must be known which place of the one belongs to which place of the other.  Four facts are enough:

      Joining goes on anew at every character that is not blank       (`joinLines_append`),
      and such a character of the joined text is one of the text      (`exists_of_joinLines`).

      Text in which no continuation starts is left as it is           (`joinLines_append_free`),
      and every text goes on so up to its first continuation          (`exists_continuation`).

  From these, joining a joined text changes nothing, and later places of a text are later in the joined
  one.
-/
import DeployTrace.Step.Job

set_option autoImplicit false

namespace DeployTrace.Shell

open Text

variable {text before after front back rest : Chars} {c : Char} {skipping : Bool}

/-! ## Continuations -/

/-- Whether a text starts with a backslash at the end of a line. -/
def startsContinuation : Chars → Bool
  | '\\' :: '\n' :: _ => true
  | '\\' :: '\r' :: '\n' :: _ => true
  | _ => false

/-- No continuation starts in a text in front of another one. -/
def FreeBefore (text rest : Chars) : Prop :=
  ∀ a b, text = a ++ b → b ≠ [] → startsContinuation (b ++ rest) = false

theorem startsContinuation_iff : startsContinuation text = true ↔
    (∃ more, text = '\\' :: '\n' :: more) ∨ ∃ more, text = '\\' :: '\r' :: '\n' :: more := by
  unfold startsContinuation
  split <;> simp_all

theorem startsContinuation_eq_false (hfeed : ∀ more, c = '\\' → rest = '\n' :: more → False)
    (hreturn : ∀ more, c = '\\' → rest = '\r' :: '\n' :: more → False) :
    startsContinuation (c :: rest) = false := by
  rw [← Bool.not_eq_true, startsContinuation_iff]
  rintro (⟨more, hmore⟩ | ⟨more, hmore⟩)
  · exact hfeed more (List.cons.inj hmore).1 (List.cons.inj hmore).2
  · exact hreturn more (List.cons.inj hmore).1 (List.cons.inj hmore).2

theorem startsContinuation_append (h : startsContinuation text = true) (rest : Chars) :
    startsContinuation (text ++ rest) = true := by
  rcases startsContinuation_iff.mp h with ⟨more, rfl⟩ | ⟨more, rfl⟩ <;> rfl

/-- A continuation ends with its line, so that it does not reach over a character that is not blank. -/
theorem startsContinuation_of_append (hc : isBlank c = false) (hne : text ≠ [])
    (h : startsContinuation (text ++ c :: rest) = true) : startsContinuation text = true := by
  have hfeed : c ≠ '\n' := by
    rintro rfl
    cases hc
  have hreturn : c ≠ '\r' := by
    rintro rfl
    cases hc
  match text, hne with
  | [_], _ | [_, _], _ | _ :: _ :: _ :: _, _ => simp_all [startsContinuation_iff]

/-! ## One step of joining -/

theorem joinLinesFrom_skip (hc : isBlank c = true) :
    joinLinesFrom true (c :: rest) = joinLinesFrom true rest := by
  conv => lhs; unfold joinLinesFrom
  simp [hc]

theorem joinLinesFrom_feed : joinLinesFrom skipping ('\\' :: '\n' :: rest) = ' ' :: joinLinesFrom true rest := by
  cases skipping <;> rfl

theorem joinLinesFrom_return_feed :
    joinLinesFrom skipping ('\\' :: '\r' :: '\n' :: rest) = ' ' :: joinLinesFrom true rest := by
  cases skipping <;> rfl

/-- A character that is not skipped and starts no continuation stays. -/
theorem joinLinesFrom_keep (hskip : (skipping && isBlank c) = false)
    (h : startsContinuation (c :: rest) = false) :
    joinLinesFrom skipping (c :: rest) = c :: joinLines rest := by
  rw [← Bool.not_eq_true, startsContinuation_iff, not_or] at h
  obtain ⟨hfeed, hreturn⟩ := h
  rw [joinLinesFrom.eq_4, hskip]
  · rfl
  · rintro more rfl rfl
    exact hfeed ⟨more, rfl⟩
  · rintro more rfl rfl
    exact hreturn ⟨more, rfl⟩

theorem joinLinesFrom_of_solid (hc : isBlank c = false) :
    joinLinesFrom skipping (c :: rest) = joinLines (c :: rest) := by
  unfold joinLines joinLinesFrom
  simp [hc]

theorem joinLines_keep (h : startsContinuation (c :: rest) = false) :
    joinLines (c :: rest) = c :: joinLines rest :=
  joinLinesFrom_keep rfl h

/-- A continuation becomes a space. -/
theorem exists_joinLines_of_continuation (h : startsContinuation text = true) :
    ∃ more, joinLines text = ' ' :: more := by
  rcases startsContinuation_iff.mp h with ⟨more, rfl⟩ | ⟨more, rfl⟩ <;> exact ⟨_, rfl⟩

theorem joinLines_ne_nil (hne : text ≠ []) : joinLines text ≠ [] := by
  obtain ⟨c, rest, rfl⟩ := List.exists_cons_of_ne_nil hne
  cases hcontinues : startsContinuation (c :: rest) with
  | true =>
      obtain ⟨more, hmore⟩ := exists_joinLines_of_continuation hcontinues
      rw [hmore]
      exact List.cons_ne_nil _ _
  | false =>
      rw [joinLines_keep hcontinues]
      exact List.cons_ne_nil _ _

/-! ## Places of the joined text -/

/-- Joining lines puts in nothing but spaces. -/
theorem mem_of_mem_joinLinesFrom (h : c ∈ joinLinesFrom skipping text) : c = ' ' ∨ c ∈ text := by
  fun_induction joinLinesFrom skipping text with
  | case1 => exact Or.inr h
  | case2 skipping d rest hskip ih => exact (ih h).imp id (List.mem_cons_of_mem d)
  | case3 skipping more hskip ih =>
      rcases List.mem_cons.mp h with rfl | h
      · exact Or.inl rfl
      · exact (ih h).imp id fun hmem => List.mem_cons_of_mem _ (List.mem_cons_of_mem _ hmem)
  | case4 skipping more hskip ih =>
      rcases List.mem_cons.mp h with rfl | h
      · exact Or.inl rfl
      · refine (ih h).imp id fun hmem => ?_
        exact List.mem_cons_of_mem _ (List.mem_cons_of_mem _ (List.mem_cons_of_mem _ hmem))
  | case5 skipping d rest hskip _ _ ih =>
      rcases List.mem_cons.mp h with rfl | h
      · exact Or.inr List.mem_cons_self
      · exact (ih h).imp id (List.mem_cons_of_mem d)

theorem joinLinesFrom_append (hc : isBlank c = false) :
    joinLinesFrom skipping (before ++ c :: rest) =
      joinLinesFrom skipping before ++ joinLines (c :: rest) := by
  fun_induction joinLinesFrom skipping before with
  | case1 skipping => exact joinLinesFrom_of_solid hc
  | case2 skipping d before hskip ih =>
      obtain ⟨rfl, hd⟩ := Bool.and_eq_true_iff.mp hskip
      rw [List.cons_append, joinLinesFrom_skip hd]
      exact ih
  | case3 skipping more hskip ih =>
      rw [List.cons_append, List.cons_append, joinLinesFrom_feed]
      exact congrArg _ ih
  | case4 skipping more hskip ih =>
      rw [List.cons_append, List.cons_append, List.cons_append, joinLinesFrom_return_feed]
      exact congrArg _ ih
  | case5 skipping d before hfeed hreturn hskip ih =>
      have hfree : startsContinuation (d :: (before ++ c :: rest)) = false := by
        rw [← Bool.not_eq_true]
        intro hcontinues
        have hshort := startsContinuation_of_append hc (List.cons_ne_nil d before) hcontinues
        rw [startsContinuation_eq_false hfeed hreturn] at hshort
        cases hshort
      rw [List.cons_append, joinLinesFrom_keep (Bool.not_eq_true _ ▸ hskip) hfree]
      exact congrArg _ ih

/-- Joining goes on anew at every character that is not blank. -/
theorem joinLines_append (hc : isBlank c = false) :
    joinLines (before ++ c :: rest) = joinLines before ++ joinLines (c :: rest) :=
  joinLinesFrom_append hc

theorem exists_of_joinLinesFrom (hc : isBlank c = false)
    (h : joinLinesFrom skipping text = front ++ c :: back) :
    ∃ before rest, text = before ++ c :: rest ∧ joinLinesFrom skipping before = front ∧
      joinLines (c :: rest) = c :: back := by
  have hspace : c ≠ ' ' := by
    rintro rfl
    cases hc
  fun_induction joinLinesFrom skipping text generalizing front with
  | case1 => simp at h
  | case2 skipping d text hskip ih =>
      obtain ⟨rfl, hd⟩ := Bool.and_eq_true_iff.mp hskip
      obtain ⟨before, rest, rfl, hfront, hback⟩ := ih h
      exact ⟨d :: before, rest, rfl, (joinLinesFrom_skip hd).trans hfront, hback⟩
  | case3 skipping more hskip ih =>
      cases front with
      | nil => exact absurd (List.cons.inj h).1.symm hspace
      | cons d front =>
          obtain ⟨rfl, hmore⟩ := List.cons.inj h
          obtain ⟨before, rest, rfl, hfront, hback⟩ := ih hmore
          exact ⟨_ :: _ :: before, rest, rfl, joinLinesFrom_feed.trans (congrArg _ hfront), hback⟩
  | case4 skipping more hskip ih =>
      cases front with
      | nil => exact absurd (List.cons.inj h).1.symm hspace
      | cons d front =>
          obtain ⟨rfl, hmore⟩ := List.cons.inj h
          obtain ⟨before, rest, rfl, hfront, hback⟩ := ih hmore
          exact ⟨_ :: _ :: _ :: before, rest, rfl, joinLinesFrom_return_feed.trans (congrArg _ hfront), hback⟩
  | case5 skipping d text hfeed hreturn hskip ih =>
      have hfree := startsContinuation_eq_false hfeed hreturn
      cases front with
      | nil =>
          obtain ⟨rfl, hmore⟩ := List.cons.inj h
          exact ⟨[], text, rfl, rfl, (joinLines_keep hfree).trans (congrArg _ hmore)⟩
      | cons e front =>
          obtain ⟨rfl, hmore⟩ := List.cons.inj h
          obtain ⟨before, rest, rfl, hfront, hback⟩ := ih hmore
          have hshort : startsContinuation (d :: before) = false := by
            rw [← Bool.not_eq_true]
            intro hcontinues
            have hlong := startsContinuation_append hcontinues (c :: rest)
            rw [List.cons_append, hfree] at hlong
            cases hlong
          refine ⟨d :: before, rest, rfl, ?_, hback⟩
          exact (joinLinesFrom_keep (Bool.not_eq_true _ ▸ hskip) hshort).trans (congrArg _ hfront)

/-- A character of the joined text that is not blank is one of the text. -/
theorem exists_of_joinLines (hc : isBlank c = false) (h : joinLines text = front ++ c :: back) :
    ∃ before rest, text = before ++ c :: rest ∧ joinLines before = front ∧
      joinLines (c :: rest) = c :: back :=
  exists_of_joinLinesFrom hc h

/-! ## Up to the first continuation -/

/-- Text in which no continuation starts is left as it is. -/
theorem joinLines_append_free (h : FreeBefore text rest) : joinLines (text ++ rest) = text ++ joinLines rest := by
  induction text with
  | nil => rfl
  | cons c text ih =>
      have hfirst : startsContinuation (c :: (text ++ rest)) = false :=
        h [] (c :: text) rfl (List.cons_ne_nil c text)
      rw [List.cons_append, joinLines_keep hfirst,
        ih fun a b htext hne => h (c :: a) b (by rw [htext]; rfl) hne]
      rfl

theorem freeBefore_nil : FreeBefore [] rest := by
  intro a b h hne
  exact absurd (List.append_eq_nil_iff.mp h.symm).2 hne

theorem FreeBefore.cons (hfirst : startsContinuation (c :: (text ++ rest)) = false)
    (h : FreeBefore text rest) : FreeBefore (c :: text) rest := by
  intro a b htext hne
  cases a with
  | nil =>
      obtain rfl : c :: text = b := htext
      exact hfirst
  | cons d a => exact h a b (List.cons.inj htext).2 hne

/-- A text goes on without a continuation up to its first one, or to its end. -/
theorem exists_continuation (text : Chars) :
    ∃ x y, text = x ++ y ∧ FreeBefore x y ∧ (y = [] ∨ startsContinuation y = true) := by
  induction text with
  | nil => exact ⟨[], [], rfl, freeBefore_nil, Or.inl rfl⟩
  | cons c text ih =>
      cases hfirst : startsContinuation (c :: text) with
      | true => exact ⟨[], c :: text, rfl, freeBefore_nil, Or.inr hfirst⟩
      | false =>
          obtain ⟨x, y, rfl, hfree, hend⟩ := ih
          exact ⟨c :: x, y, rfl, hfree.cons hfirst, hend⟩

theorem FreeBefore.joinLines_eq (h : FreeBefore text rest) : joinLines text = text := by
  have hfree : FreeBefore text [] := by
    intro a b htext hne
    rw [List.append_nil, ← Bool.not_eq_true]
    intro hcontinues
    have hlong := startsContinuation_append hcontinues rest
    rw [h a b htext hne] at hlong
    cases hlong
  have hnil : joinLines [] = [] := rfl
  have hjoined := joinLines_append_free hfree
  rwa [hnil, List.append_nil] at hjoined

/-! ## Joining twice -/

theorem exists_cons_of_joinLines (h : joinLines text = c :: rest) (hspace : c ≠ ' ') :
    ∃ more, text = c :: more ∧ joinLines more = rest := by
  cases text with
  | nil => cases h
  | cons d text =>
      cases hcontinues : startsContinuation (d :: text) with
      | true =>
          obtain ⟨more, hmore⟩ := exists_joinLines_of_continuation hcontinues
          exact absurd (List.cons.inj (h.symm.trans hmore)).1 hspace
      | false =>
          obtain ⟨rfl, hmore⟩ := List.cons.inj ((joinLines_keep hcontinues).symm.trans h)
          exact ⟨text, rfl, hmore⟩

/-- No character starts a continuation with a joined text that it does not start with the text. -/
theorem startsContinuation_cons_joinLines (h : startsContinuation (c :: joinLines text) = true) :
    startsContinuation (c :: text) = true := by
  rcases startsContinuation_iff.mp h with ⟨more, hmore⟩ | ⟨more, hmore⟩
  · obtain ⟨rfl, hfeed⟩ := List.cons.inj hmore
    obtain ⟨rest, rfl, -⟩ := exists_cons_of_joinLines hfeed (by decide)
    rfl
  · obtain ⟨rfl, hreturn⟩ := List.cons.inj hmore
    obtain ⟨rest, rfl, hfeed⟩ := exists_cons_of_joinLines hreturn (by decide)
    obtain ⟨rest, rfl, -⟩ := exists_cons_of_joinLines hfeed (by decide)
    rfl

theorem joinLines_joinLinesFrom (skipping : Bool) (text : Chars) :
    joinLines (joinLinesFrom skipping text) = joinLinesFrom skipping text := by
  fun_induction joinLinesFrom skipping text with
  | case1 => rfl
  | case2 skipping c text hskip ih => exact ih
  | case3 skipping more hskip ih => exact (joinLines_keep rfl).trans (congrArg _ ih)
  | case4 skipping more hskip ih => exact (joinLines_keep rfl).trans (congrArg _ ih)
  | case5 skipping c text hfeed hreturn hskip ih =>
      refine (joinLines_keep ?_).trans (congrArg _ ih)
      rw [← Bool.not_eq_true]
      intro hcontinues
      have hstarts := startsContinuation_cons_joinLines hcontinues
      rw [startsContinuation_eq_false hfeed hreturn] at hstarts
      cases hstarts

/-- Joining a joined text changes nothing. -/
theorem joinLines_joinLines (text : Chars) : joinLines (joinLines text) = joinLines text :=
  joinLines_joinLinesFrom false text

end DeployTrace.Shell

namespace DeployTrace

/-- What a step runs has its lines joined already. -/
theorem joinLines_runText (step : Table) : Shell.joinLines (runText step).toList = (runText step).toList := by
  unfold runText
  cases step.text? "run" with
  | none => rfl
  | some run =>
      simp only [String.toList_ofList]
      exact Shell.joinLines_joinLines run.toList

end DeployTrace
