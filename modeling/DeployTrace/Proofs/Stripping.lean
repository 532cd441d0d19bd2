/-
  DeployTrace/Proofs/Stripping.lean --- what is left of a text when its ends are stripped.

  A text is stripped of the characters of a set by cutting it in three: a run of such characters, what is
  left, and again such a run.  What is left neither starts nor ends with such a character, and these
  facts determine it (`stripWhile_eq`).
-/
import DeployTrace.Text.Cut
import Mathlib.Data.List.TakeWhile

set_option autoImplicit false

namespace DeployTrace

open Text

/-- A text that neither starts nor ends with a character of a set. -/
structure IsStripped (p : Char → Bool) (text : Chars) : Prop where
  head : ∀ c ∈ text.head?, p c = false
  last : ∀ c ∈ text.getLast?, p c = false

section

variable {p : Char → Bool} {a b before middle after : Chars} {c : Char}

/-! ## One end -/

theorem dropWhile_append_cons (hc : p c = false) : (a ++ c :: b).dropWhile p = a.dropWhile p ++ c :: b := by
  induction a with
  | nil => simp [hc]
  | cons d a ih =>
      cases hd : p d with
      | true => simpa [hd] using ih
      | false => simp [hd]

theorem dropEndWhile_append_cons (hc : p c = false) (hb : ∀ d ∈ b, p d = true) :
    dropEndWhile p (a ++ c :: b) = a ++ [c] := by
  unfold dropEndWhile
  rw [List.reverse_append, List.reverse_cons, List.append_assoc, List.singleton_append,
    List.dropWhile_append_of_pos fun d hd => hb d (List.mem_reverse.mp hd)]
  simp [hc]

/-- A text is what is left of it and a run of characters that are dropped. -/
theorem exists_dropEndWhile (text : Chars) :
    ∃ dropped, text = dropEndWhile p text ++ dropped ∧ ∀ d ∈ dropped, p d = true := by
  refine ⟨(text.reverse.takeWhile p).reverse, ?_, fun d hd => ?_⟩
  · unfold dropEndWhile
    rw [← List.reverse_append, List.takeWhile_append_dropWhile, List.reverse_reverse]
  · exact List.all_eq_true.mp List.all_takeWhile d (List.mem_reverse.mp hd)

theorem getLast?_dropEndWhile {text : Chars} : ∀ d ∈ (dropEndWhile p text).getLast?, p d = false := by
  intro d hd
  unfold dropEndWhile at hd
  rw [List.getLast?_reverse] at hd
  have hnot := List.head?_dropWhile_not p text.reverse
  rw [Option.mem_def.mp hd] at hnot
  exact hnot

/-! ## Both ends -/

theorem stripWhile_eq (h : IsStripped p middle) (hbefore : ∀ d ∈ before, p d = true)
    (hafter : ∀ d ∈ after, p d = true) : stripWhile p (before ++ middle ++ after) = middle := by
  unfold stripWhile
  rw [List.append_assoc, List.dropWhile_append_of_pos hbefore]
  rcases List.eq_nil_or_concat middle with rfl | ⟨init, last, hmiddle⟩
  · have hnone : after.dropWhile p = [] := List.dropWhile_eq_nil_iff.mpr hafter
    rw [List.nil_append, hnone]
    rfl
  · rw [List.concat_eq_append] at hmiddle
    have hend : p last = false := h.last last (by rw [hmiddle, List.getLast?_concat]; rfl)
    have hstart : (middle ++ after).dropWhile p = middle ++ after := by
      obtain ⟨c, rest, rfl⟩ := List.exists_cons_of_ne_nil (l := middle) (by simp [hmiddle])
      rw [List.cons_append, List.dropWhile_cons_of_neg (by simpa using h.head c rfl)]
    rw [hstart, hmiddle, List.append_assoc, List.singleton_append, dropEndWhile_append_cons hend hafter]

theorem isStripped_stripWhile (text : Chars) : IsStripped p (stripWhile p text) := by
  refine ⟨fun c hc => ?_, getLast?_dropEndWhile⟩
  obtain ⟨dropped, hdropped, -⟩ := exists_dropEndWhile (p := p) (text.dropWhile p)
  have hnot := List.head?_dropWhile_not p text
  have hhead : (text.dropWhile p).head? = some c := by
    rw [hdropped, List.head?_append]
    exact Option.or_eq_some_iff.mpr (Or.inl hc)
  rw [hhead] at hnot
  exact hnot

/-- A text is what is left of it between two runs of characters that are dropped. -/
theorem exists_stripWhile (text : Chars) : ∃ before after, text = before ++ stripWhile p text ++ after ∧
    (∀ d ∈ before, p d = true) ∧ ∀ d ∈ after, p d = true := by
  obtain ⟨dropped, hdropped, hall⟩ := exists_dropEndWhile (p := p) (text.dropWhile p)
  refine ⟨text.takeWhile p, dropped, ?_, List.all_eq_true.mp List.all_takeWhile, hall⟩
  unfold stripWhile
  rw [List.append_assoc, ← hdropped, List.takeWhile_append_dropWhile]

/-- Nothing is left exactly of a text that holds only characters of the set. -/
theorem stripWhile_eq_nil_iff {text : Chars} : stripWhile p text = [] ↔ ∀ d ∈ text, p d = true := by
  constructor
  · intro hnil
    obtain ⟨before, after, htext, hbefore, hafter⟩ := exists_stripWhile (p := p) text
    rw [hnil, List.append_nil] at htext
    rw [htext]
    exact List.forall_mem_append.mpr ⟨hbefore, hafter⟩
  · intro hall
    have hempty : IsStripped p [] := ⟨by simp, by simp⟩
    have hnone : stripWhile p (text ++ [] ++ []) = [] := stripWhile_eq hempty hall (by simp)
    rwa [List.append_nil, List.append_nil] at hnone

end

/-- A text is blank exactly if nothing is left without the blanks at its ends. -/
theorem strip_isEmpty_eq (text : String) : (strip text).isEmpty = text.toList.all isBlank := by
  rw [Bool.eq_iff_iff, List.all_eq_true, ← stripWhile_eq_nil_iff]
  simp [strip, stripChars]

end DeployTrace
