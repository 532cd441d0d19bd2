/-
  DeployTrace/Proofs/ShellWords.lean --- words as they are read from a command.

  WHAT THIS FILE IS FOR.  A word is made of parts, and where a part ends is told by its first character: a
  quotation goes on to its second mark, plain text to a blank or to a character that starts another kind
  of part.  So a text between quotation marks is one part whatever it holds, and a plain text is one part
  up to the next blank or mark.
-/
import DeployTrace.Shell.Word
import DeployTrace.Proofs.FirstReadings

set_option autoImplicit false

namespace DeployTrace.Shell

open Text Pattern

variable {text rest : Chars}

/-- Characters of plain text in a word. -/
def isPlain (c : Char) : Bool := !isBlank c && !wordBreaks.contains c

/-- A text does not start with another one whose first character it does not start with. -/
theorem not_prefix_of_head {start : Chars} {d : Char} (hstart : start.head? = some d)
    (h : text.head? ≠ some d) : ¬ start <+: text := by
  rintro ⟨after, rfl⟩
  rw [List.head?_append, hstart] at h
  exact h rfl

/-! ## Parts that are refused -/

theorem refuses_enclosed {opening : String} {closing : Char} (h : ¬ opening.toList <+: text) :
    (enclosed opening closing).Refuses text :=
  (refuses_word h).seq

/-- A mark that has no second one starts no quotation. -/
theorem refuses_enclosed_of_notMem {opening : String} {closing : Char}
    (h : ∀ after, text = opening.toList ++ after → closing ∉ after) :
    (enclosed opening closing).Refuses text := by
  rintro read parts hreads ⟨after, hafter⟩
  obtain ⟨inside, hinside, rfl⟩ := reads_seq_word.mp hreads
  obtain ⟨a, b, _, _, -, ⟨c, hc, rfl, -⟩, rfl, -⟩ := hinside
  obtain rfl : c = closing := by simpa using hc
  exact h (a ++ [c] ++ after) (by rw [← hafter, List.append_assoc]) (by simp)

/-- A text that starts neither with plain text nor with an opening mark has no word. -/
theorem refuses_wordPart (hplain : ∀ c ∈ text.head?, isPlain c = false) (hdollar : text.head? ≠ some '$')
    (hless : text.head? ≠ some '<') (hdouble : (enclosed "\x22" '\x22').Refuses text)
    (hsingle : (enclosed "\x27" '\x27').Refuses text)
    (hgrave : (enclosed (String.singleton graveAccent) graveAccent).Refuses text) :
    wordPart.Refuses text := by
  refine refuses_oneOf fun q hq => ?_
  simp only [List.mem_cons, List.not_mem_nil, or_false] at hq
  rcases hq with rfl | rfl | rfl | rfl | rfl | rfl | rfl | rfl | rfl | rfl
  · exact refuses_enclosed (not_prefix_of_head (by decide) hdollar)
  · exact (refuses_word (not_prefix_of_head (by decide) hdollar)).seq
  · exact refuses_enclosed (not_prefix_of_head (by decide) hdollar)
  · exact hdouble
  · exact hsingle
  · exact hgrave
  · exact refuses_enclosed (not_prefix_of_head (by decide) hless)
  · exact refuses_span1 hplain
  · exact refuses_word (not_prefix_of_head (by decide) hdollar)
  · exact refuses_word (not_prefix_of_head (by decide) hless)

/-- A word does not go on over a blank, nor over the end of the text. -/
theorem refuses_wordPart_of_blank (h : ∀ c ∈ text.head?, isBlank c = true) : wordPart.Refuses text := by
  have apart : ∀ {d : Char}, isBlank d = false → text.head? ≠ some d := by
    intro d hd hhead
    rw [h d hhead] at hd
    cases hd
  refine refuses_wordPart ?_ (apart (by decide)) (apart (by decide)) ?_ ?_ ?_
  · intro c hc
    simp [isPlain, h c hc]
  · exact refuses_enclosed (not_prefix_of_head (d := '\x22') (by decide) (apart (by decide)))
  · exact refuses_enclosed (not_prefix_of_head (d := '\x27') (by decide) (apart (by decide)))
  · exact refuses_enclosed (not_prefix_of_head (d := graveAccent) (by decide) (apart (by decide)))

/-- A word does not go on with a double quotation mark that has no second one. -/
theorem refuses_wordPart_of_mark (h : '\x22' ∉ rest) : wordPart.Refuses ('\x22' :: rest) := by
  refine refuses_wordPart ?_ (by simp) (by simp) ?_ ?_ ?_
  · intro c hc
    cases hc
    decide
  · refine refuses_enclosed_of_notMem fun after hafter => ?_
    have hmark : "\x22".toList = ['\x22'] := by decide
    rw [hmark] at hafter
    obtain ⟨-, rfl⟩ := List.cons.inj hafter
    exact h
  · exact refuses_enclosed (not_prefix_of_head (d := '\x27') (by decide) (by simp))
  · refine refuses_enclosed (not_prefix_of_head (d := graveAccent) (by decide) fun hhead => ?_)
    exact absurd (Option.some.inj hhead) (by decide)

/-! ## Parts that are taken -/

theorem takes_enclosed {opening : String} {closing : Char} (h : closing ∉ text) :
    (enclosed opening closing).Takes (opening.toList ++ (text ++ [closing])) [] rest := by
  refine takes_seq_word (takes_seq_cons (n := []) (m := []) (takes_span ?_ ?_) (takes_char (by simp)))
  · intro c hc
    have hne : c ≠ closing := by
      rintro rfl
      exact h hc
    simpa using hne
  · intro c hc
    obtain rfl : closing = c := by simpa using hc
    simp

/-- Plain text is one part, up to what is not plain. -/
theorem takes_wordPart_plain (hne : text ≠ []) (hplain : ∀ c ∈ text, isPlain c = true)
    (hend : ∀ c ∈ rest.head?, isPlain c = false) : wordPart.Takes text [] rest := by
  have hopening : ∀ {start : Chars} {d : Char}, start.head? = some d → isPlain d = false →
      ¬ start <+: text ++ rest := by
    intro start d hstart hd
    obtain ⟨c, more, rfl⟩ := List.exists_cons_of_ne_nil hne
    refine not_prefix_of_head hstart fun hhead => ?_
    obtain rfl : c = d := by simpa using hhead
    rw [hplain c List.mem_cons_self] at hd
    cases hd
  have hdollar : isPlain '$' = false := by decide
  have hless : isPlain '<' = false := by decide
  refine takes_oneOf_tail (refuses_enclosed (hopening (by decide) hdollar)) ?_
  refine takes_oneOf_tail (refuses_word (hopening (by decide) hdollar)).seq ?_
  refine takes_oneOf_tail (refuses_enclosed (hopening (by decide) hdollar)) ?_
  refine takes_oneOf_tail (refuses_enclosed (hopening (d := '\x22') (by decide) (by decide))) ?_
  refine takes_oneOf_tail (refuses_enclosed (hopening (d := '\x27') (by decide) (by decide))) ?_
  refine takes_oneOf_tail (refuses_enclosed (hopening (d := graveAccent) (by decide) (by decide))) ?_
  refine takes_oneOf_tail (refuses_enclosed (hopening (by decide) hless)) ?_
  exact takes_oneOf_head (takes_span1 hne hplain hend)

/-- What stands between two quotation marks of one kind is one part. -/
theorem takes_wordPart_quoted {mark : Char} (hmark : mark = '\x22' ∨ mark = '\x27') (h : mark ∉ text) :
    wordPart.Takes (mark :: (text ++ [mark])) [] rest := by
  have apart : ∀ {d : Char}, d ≠ mark → (mark :: (text ++ [mark]) ++ rest).head? ≠ some d :=
    fun hne hhead => hne (Option.some.inj hhead).symm
  have hdollar : '$' ≠ mark := by rcases hmark with rfl | rfl <;> decide
  have hquoted : (enclosed (String.singleton mark) mark).Takes
      ((String.singleton mark).toList ++ (text ++ [mark])) [] rest := takes_enclosed h
  rw [String.toList_singleton, List.singleton_append] at hquoted
  refine takes_oneOf_tail (refuses_enclosed (not_prefix_of_head (by decide) (apart hdollar))) ?_
  refine takes_oneOf_tail (refuses_word (not_prefix_of_head (by decide) (apart hdollar))).seq ?_
  refine takes_oneOf_tail (refuses_enclosed (not_prefix_of_head (by decide) (apart hdollar))) ?_
  rcases hmark with rfl | rfl
  · exact takes_oneOf_head hquoted
  · refine takes_oneOf_tail (refuses_enclosed (not_prefix_of_head (d := '\x22') (by decide)
      (apart (by decide)))) ?_
    exact takes_oneOf_head hquoted

/-! ## Words -/

theorem flatten_unmarked (parts : List Chars) :
    ((parts.map fun part => (part, ([] : List (Nat × Chars)))).map (·.1)).flatten = parts.flatten := by
  rw [List.map_map]
  exact congrArg List.flatten (List.map_id parts)

/-- A word is its first part and the parts after it, up to where no further one stands. -/
theorem takes_wordPattern {more : List Chars} (hfirst : wordPart.Takes text [] (more.flatten ++ rest))
    (hmore : wordPart.TakesRounds (more.map fun part => (part, [])) rest) :
    wordPattern.Takes (text ++ more.flatten) [] rest := by
  have hmarks : ((more.map fun part => (part, ([] : List (Nat × Chars)))).reverse.map (·.2)).flatten =
      [] := by
    simp
  have hrounds := takes_many hmore
  rw [flatten_unmarked, hmarks] at hrounds
  exact takes_both hfirst hrounds

/-- A part after which no further one stands is a word. -/
theorem takes_wordPattern_part (h : wordPart.Takes text [] rest) (hend : wordPart.Refuses rest) :
    wordPattern.Takes text [] rest := by
  have hword : wordPattern.Takes (text ++ ([] : List Chars).flatten) [] rest := takes_wordPattern h hend
  simpa using hword

end DeployTrace.Shell
