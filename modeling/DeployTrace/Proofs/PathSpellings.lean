/-
  DeployTrace/Proofs/PathSpellings.lean --- how alike paths are, and how they are written.

  WHAT THIS FILE IS FOR.  One directory can be written in several ways: with `./` in front, with a slash at
  the end, with slashes that repeat.  Paths are compared in one spelling, so that this should not matter.
  It does not, and the comparison has no sides, with one exception:

      .      ./      The same directory, and nothing in common.

  A leading `./` is taken off before the slashes at the end are, and what `./` leaves is no path at all.
  Every path that comes down to a single dot is lost in this way when a slash follows, and no other path is
  (`plainPath_slash`).
-/
import DeployTrace.Link.Score
import DeployTrace.Proofs.OutputModules

set_option autoImplicit false

namespace DeployTrace

open Text

/-! ## Small letters -/

theorem caseRuns_above_dot : caseRuns.all (fun run => '.'.toNat < run.first + run.shift) = true := by
  decide +kernel

theorem toLower_eq_dot : ∀ n < 128, (Char.ofNat n).toLower = '.' → Char.ofNat n = '.' := by
  decide +kernel

theorem eq_dot_of_ofNat {n : Nat} (h : Char.ofNat n = '.') : n = '.'.toNat := by
  unfold Char.ofNat at h
  by_cases hvalid : n.isValidChar
  · rw [dif_pos hvalid] at h
    exact congrArg Char.toNat h
  · rw [dif_neg hvalid] at h
    exact absurd h (by decide)

/-- No other character has the dot as its small letter. -/
theorem lowerChar_eq_dot_iff {c : Char} : lowerChar c = '.' ↔ c = '.' := by
  constructor
  · intro h
    unfold lowerChar at h
    split at h
    · rename_i hascii
      have hdot := toLower_eq_dot c.toNat hascii
      rw [Char.ofNat_toNat] at hdot
      exact hdot h
    split at h
    · exact absurd h (by decide)
    split at h
    · rename_i run hrun
      have habove := List.all_eq_true.mp caseRuns_above_dot run (List.mem_of_find?_eq_some hrun)
      have hcovers := List.find?_some hrun
      have hcode := eq_dot_of_ofNat h
      simp only [CaseRun.covers, Bool.and_eq_true, decide_eq_true_eq] at habove hcovers
      omega
    · exact h
  · rintro rfl
    decide

theorem lowerAfter_eq_nil {seen text : Chars} (h : lowerAfter seen text = []) : text = [] := by
  cases text with
  | nil => rfl
  | cons c rest =>
      unfold lowerAfter at h
      split at h
      · exact absurd h (by simp)
      split at h <;> exact absurd h (by simp)

theorem lower_eq_dot_iff {s : String} : lower s = "." ↔ s = "." := by
  rw [← String.toList_inj, ← String.toList_inj, lower, String.toList_ofList]
  constructor
  · intro h
    cases hs : s.toList with
    | nil =>
        rw [hs] at h
        exact absurd h (by decide)
    | cons c rest =>
        rw [hs, lowerAfter] at h
        split at h
        · -- a sigma
          have hhead := (List.cons.inj h).1
          split at hhead <;> exact absurd hhead (by decide)
        split at h
        · exact absurd (List.cons.inj h).1 (by decide)
        · obtain ⟨hdot, hrest⟩ := List.cons.inj h
          rw [lowerAfter_eq_nil hrest, lowerChar_eq_dot_iff.mp hdot]
          rfl
  · intro h
    rw [h]
    decide

/-! ## The spelling of a path -/

/-- A path with single slashes only. -/
def slashed (path : String) : Chars := singleSlashes (path.toList.map fun c => if c == '\\' then '/' else c)

theorem plainPath_eq (path : String) :
    plainPath path = lower (String.ofList (dropEndWhile (· == '/') (dropHere (slashed path)))) := rfl

theorem getLast?_singleSlashes (text : Chars) : (singleSlashes text).getLast? = text.getLast? := by
  fun_induction singleSlashes text with
  | case1 => rfl
  | case2 c => rfl
  | case3 c d rest _ ih => rw [ih, List.getLast?_cons_cons]
  | case4 c d rest _ ih =>
      rw [List.getLast?_cons_cons, List.getLast?_cons, ih]
      simp [List.getLast?_cons]

/-- A slash at the end is kept once. -/
theorem singleSlashes_append_slash (text : Chars) : singleSlashes (text ++ ['/']) =
    if text.getLast? = some '/' then singleSlashes text else singleSlashes text ++ ['/'] := by
  fun_induction singleSlashes text with
  | case1 => rfl
  | case2 c =>
      by_cases h : c = '/'
      · simp [singleSlashes, h]
      · simp [singleSlashes, h]
  | case3 c d rest h ih => simpa [singleSlashes, h] using ih
  | case4 c d rest h ih =>
      rw [List.cons_append, List.cons_append, singleSlashes, if_neg h, List.getLast?_cons_cons]
      rw [List.cons_append] at ih
      rw [ih]
      split <;> rfl

theorem dropHere_of_ne {path : Chars} (h : ∀ rest, path ≠ '.' :: '/' :: rest) : dropHere path = path := by
  unfold dropHere
  split
  · exact absurd rfl (h _)
  · rfl

theorem dropHere_append_slash (path : Chars) :
    dropHere (path ++ ['/']) = if dropHere path = ['.'] then [] else dropHere path ++ ['/'] := by
  fun_induction dropHere path with
  | case1 rest ih => exact ih
  | case2 path h =>
      match path with
      | [] => rfl
      | [c] =>
          by_cases hc : c = '.'
          · rw [if_pos (congrArg (fun c => [c]) hc), hc]
            rfl
          · have hne : [c] ≠ ['.'] := fun heq => hc (List.head_eq_of_cons_eq heq)
            rw [if_neg hne]
            exact dropHere_of_ne fun rest heq => hc (List.head_eq_of_cons_eq heq)
      | c :: d :: more =>
          rw [if_neg (by simp)]
          refine dropHere_of_ne fun rest heq => h more ?_
          simp only [List.cons_append, List.cons.injEq] at heq
          obtain ⟨rfl, rfl, -⟩ := heq
          rfl

theorem dropHere_ne_here (path rest : Chars) : dropHere path ≠ '.' :: '/' :: rest := by
  fun_induction dropHere path with
  | case1 _ ih => exact ih
  | case2 path h => exact h rest

theorem dropEndWhile_append_slash (text : Chars) :
    dropEndWhile (· == '/') (text ++ ['/']) = dropEndWhile (· == '/') text := by
  simp [dropEndWhile]

theorem plainPath_eq_dot_iff {path : String} : plainPath path = "." ↔ dropHere (slashed path) = ['.'] := by
  rw [plainPath_eq, lower_eq_dot_iff, ← String.toList_inj, String.toList_ofList]
  constructor
  · intro h
    obtain ⟨slashes, hsplit, hslashes⟩ := exists_dropEndWhile (p := (· == '/')) (dropHere (slashed path))
    rw [h] at hsplit
    cases slashes with
    | nil => exact hsplit
    | cons d more =>
        obtain rfl : d = '/' := beq_iff_eq.mp (hslashes d List.mem_cons_self)
        exact absurd hsplit (dropHere_ne_here _ _)
  · intro h
    rw [h]
    decide

/-- A slash at the end changes the spelling of no path but those that come down to a dot, and of those
nothing is left. -/
theorem plainPath_slash (path : String) :
    plainPath (path ++ "/") = if plainPath path = "." then "" else plainPath path := by
  obtain ⟨text, htext⟩ : ∃ text, text = path.toList.map fun c => if c == '\\' then '/' else c := ⟨_, rfl⟩
  have hbefore : slashed path = singleSlashes text := by rw [slashed, htext]
  have hafter : slashed (path ++ "/") = singleSlashes (text ++ ['/']) := by
    rw [slashed, htext, String.toList_append, List.map_append]
    rfl
  rw [singleSlashes_append_slash, ← hbefore] at hafter
  by_cases hlast : text.getLast? = some '/'
  · -- the slash repeats another one, and the path is none of the exceptions
    rw [if_pos hlast] at hafter
    rw [← getLast?_singleSlashes, ← hbefore] at hlast
    obtain ⟨init, hinit⟩ := List.getLast?_eq_some_iff.mp hlast
    have hdot : plainPath path ≠ "." := by
      rw [Ne, plainPath_eq_dot_iff, hinit, dropHere_append_slash]
      split
      · simp
      · exact fun h => absurd (congrArg List.getLast? h) (by simp)
    rw [if_neg hdot, plainPath_eq, hafter, ← plainPath_eq]
  · rw [if_neg hlast] at hafter
    rw [plainPath_eq, hafter, dropHere_append_slash]
    by_cases hdot : plainPath path = "."
    · rw [if_pos hdot, if_pos (plainPath_eq_dot_iff.mp hdot)]
      rfl
    · rw [if_neg hdot, if_neg (mt plainPath_eq_dot_iff.mpr hdot), dropEndWhile_append_slash, ← plainPath_eq]

/-! ## Spellings of one path -/

/-- A path that has a name in it, is written with slashes, and does not start at the root. -/
structure IsRelativePath (path : String) : Prop where
  nonempty : path ≠ ""
  noBackslash : '\\' ∉ path.toList
  notRooted : path.toList.head? ≠ some '/'

/-- `./` in front of a relative path changes nothing. -/
theorem IsRelativePath.plainPath_here {path : String} (h : IsRelativePath path) :
    plainPath ("./" ++ path) = plainPath path := by
  have htext : path.toList.map (fun c => if c == '\\' then '/' else c) = path.toList := by
    refine (List.map_congr_left fun c hc => ?_).trans path.toList.map_id
    have hne : c ≠ '\\' := fun heq => h.noBackslash (heq ▸ hc)
    simp [hne]
  have hslashed : slashed ("./" ++ path) = '.' :: '/' :: slashed path := by
    unfold slashed
    rw [String.toList_append, List.map_append, htext]
    cases hpath : path.toList with
    | nil => exact absurd (String.toList_eq_nil_iff.mp hpath) h.nonempty
    | cons c rest =>
        have hslash : (c == '/') = false := by
          rw [beq_eq_false_iff_ne]
          rintro rfl
          exact h.notRooted (by rw [hpath]; rfl)
        simp [singleSlashes, hslash]
  rw [plainPath_eq, hslashed, dropHere, ← plainPath_eq]

/-- A path and the ways to write it: as it is, with `./` in front, or with a slash at the end, unless all of
it comes down to a dot. -/
inductive SpelledAs (path : String) : String → Prop where
  | asIs : SpelledAs path path
  | here (relative : IsRelativePath path) : SpelledAs path ("./" ++ path)
  | slash (relative : IsRelativePath path) (named : plainPath path ≠ ".") : SpelledAs path (path ++ "/")

theorem SpelledAs.plainPath_eq {path spelled : String} (h : SpelledAs path spelled) :
    plainPath spelled = plainPath path := by
  cases h with
  | asIs => rfl
  | here relative => exact relative.plainPath_here
  | slash _ named => rw [plainPath_slash, if_neg named]

/-! ## Likeness -/

theorem sharedLead_comm (xs ys : List String) : sharedLead xs ys = sharedLead ys xs := by
  induction xs generalizing ys with
  | nil => cases ys <;> rfl
  | cons x xs ih =>
      cases ys with
      | nil => rfl
      | cons y ys => rw [sharedLead, sharedLead, ih ys, Bool.beq_comm]

theorem pathSimilarity_comm (a b : String) : pathSimilarity a b = pathSimilarity b a := by
  unfold pathSimilarity
  simp only [Bool.or_comm (plainSegments a).isEmpty, sharedLead_comm (plainSegments a),
    Nat.max_comm (plainSegments a).length]

theorem pathsRelated_comm (a b : String) : pathsRelated a b = pathsRelated b a := by
  unfold pathsRelated
  simp only [Bool.or_comm (plainPath a).isEmpty, Bool.beq_comm (a := plainPath a),
    Bool.or_right_comm _ (isInside (plainPath a) (plainPath b)),
    Bool.and_comm (!(plainDirectory (plainPath a)).isEmpty), Bool.beq_comm (a := plainDirectory (plainPath a)),
    Bool.or_right_comm _ (isInside (plainDirectory (plainPath a)) (plainDirectory (plainPath b)))]

section

variable {a b c d : String}

theorem pathSimilarity_congr (hab : plainPath a = plainPath b) (hcd : plainPath c = plainPath d) :
    pathSimilarity a c = pathSimilarity b d := by
  unfold pathSimilarity plainSegments
  rw [hab, hcd]

theorem pathsRelated_congr (hab : plainPath a = plainPath b) (hcd : plainPath c = plainPath d) :
    pathsRelated a c = pathsRelated b d := by
  unfold pathsRelated
  rw [hab, hcd]

/-- A path of which nothing is left is like no path and related to none. -/
theorem unlike_of_plainPath_empty (h : plainPath a = "") (b : String) :
    pathSimilarity a b = 0 ∧ pathsRelated a b = false := by
  have hsegments : plainSegments a = [] := by
    unfold plainSegments
    rw [h]
    decide
  constructor
  · unfold pathSimilarity
    rw [hsegments]
    rfl
  · unfold pathsRelated
    rw [h]
    rfl

end

/-- How alike two paths are, and whether they are related, has no sides and does not depend on how the paths
are written; a relative path that comes down to a dot is lost when a slash is put at its end. -/
theorem likeness_of_spelling (p q : String) :
    pathSimilarity p q = pathSimilarity q p ∧ pathsRelated p q = pathsRelated q p ∧
      (∀ p' q', SpelledAs p p' → SpelledAs q q' →
        pathSimilarity p' q' = pathSimilarity p q ∧ pathsRelated p' q' = pathsRelated p q) ∧
      (plainPath p = "." → pathSimilarity (p ++ "/") q = 0 ∧ pathsRelated (p ++ "/") q = false) := by
  refine ⟨pathSimilarity_comm p q, pathsRelated_comm p q, fun p' q' hp hq => ?_, fun hdot => ?_⟩
  · exact ⟨pathSimilarity_congr hp.plainPath_eq hq.plainPath_eq,
      pathsRelated_congr hp.plainPath_eq hq.plainPath_eq⟩
  · exact unlike_of_plainPath_empty (by rw [plainPath_slash, if_pos hdot]) q

/-- The current directory and a directory, each in another spelling than before. -/
theorem likeness_of_spelling_modules :
    SpelledAs "." "./." ∧ SpelledAs "Modules//vpc" "Modules//vpc/" ∧ plainPath ".//." = "." ∧
      pathSimilarity "./." "Modules//vpc/" = pathSimilarity "." "Modules//vpc" ∧
      pathsRelated "./." "Modules//vpc/" = pathsRelated "." "Modules//vpc" ∧
      pathSimilarity (".//." ++ "/") "." = 0 := by
  have hhere : SpelledAs "." "./." := .here ⟨by decide, by decide, by decide⟩
  have hslash : SpelledAs "Modules//vpc" "Modules//vpc/" :=
    .slash ⟨by decide, by decide, by decide⟩ (by decide +kernel)
  have hdot : plainPath ".//." = "." := by decide +kernel
  obtain ⟨hsimilar, hrelated⟩ := (likeness_of_spelling "." "Modules//vpc").2.2.1 _ _ hhere hslash
  exact ⟨hhere, hslash, hdot, hsimilar, hrelated, ((likeness_of_spelling ".//." ".").2.2.2 hdot).1⟩

/-- The current directory is not like itself when one of its spellings ends with a slash. -/
theorem here_unlike_itself : ¬ ∀ p q : String, IsRelativePath q →
    pathSimilarity p (q ++ "/") = pathSimilarity p q ∧ pathsRelated p (q ++ "/") = pathsRelated p q := by
  intro same
  have hsame := (same "." "." ⟨by decide, by decide, by decide⟩).1
  exact absurd hsame (by decide +kernel)

end DeployTrace
