/-
  DeployTrace/Proofs/EditDistance.lean --- the edit distance counts the fewest edits.

  WHAT THIS FILE IS FOR.  Names are compared by a table of distances that is filled row by row.  What the
  table is about is said here without it: an edit puts in, takes out or replaces one character anywhere in
  a text, and the distance of two texts is the least number of edits that lead from one to the other.

  THE RECURSION.  By first characters the fewest edits follow a plain recursion (`fewestEdits`), for which
  one edit more or less moves the number by at most one (`Edit.distance_le`); so no sequence of edits is
  shorter, and reading both texts backwards changes nothing.  Backwards, the recursion goes by last
  characters, as the table does.

  THE ROWS.  A row that is being filled holds the fewest edits between one beginning of the first text and
  the beginnings of the second one seen so far (`editRow_row`), and the row before is complete.  One more
  place keeps this, one more row keeps it (`editRows_row`), and the last place of the last row is the answer.
-/
import DeployTrace.Proofs.LinkScores
import Mathlib.Data.List.Induction
import Mathlib.Order.Bounds.Defs

set_option autoImplicit false

namespace DeployTrace

open Text

/-! ## Edits -/

/-- One edit: a character is put in, taken out or replaced, at the front or further on. -/
inductive Edit : Chars → Chars → Prop where
  | insert (c : Char) (rest : Chars) : Edit rest (c :: rest)
  | delete (c : Char) (rest : Chars) : Edit (c :: rest) rest
  | replace (c d : Char) (rest : Chars) : Edit (c :: rest) (d :: rest)
  | further (c : Char) {a b : Chars} (edit : Edit a b) : Edit (c :: a) (c :: b)

/-- So many edits, one after the other. -/
inductive Edits : Nat → Chars → Chars → Prop where
  | none (a : Chars) : Edits 0 a a
  | next {n : Nat} {a b c : Chars} (edit : Edit a b) (edits : Edits n b c) : Edits (n + 1) a c

section

variable {a b c : Chars} {m n : Nat}

theorem Edit.symm (h : Edit a b) : Edit b a := by
  induction h with
  | insert c rest => exact .delete c rest
  | delete c rest => exact .insert c rest
  | replace c d rest => exact .replace d c rest
  | further c _ ih => exact .further c ih

theorem Edits.trans (h : Edits m a b) (h' : Edits n b c) : Edits (m + n) a c := by
  induction h with
  | none a => rwa [Nat.zero_add]
  | next edit _ ih =>
      rw [Nat.add_right_comm]
      exact .next edit (ih h')

theorem Edits.last (h : Edits n a b) (edit : Edit b c) : Edits (n + 1) a c :=
  h.trans (.next edit (.none c))

theorem Edits.symm (h : Edits n a b) : Edits n b a := by
  induction h with
  | none a => exact .none a
  | next edit _ ih => exact ih.last edit.symm

theorem Edits.further (x : Char) (h : Edits n a b) : Edits n (x :: a) (x :: b) := by
  induction h with
  | none a => exact .none (x :: a)
  | next edit _ ih => exact .next (.further x edit) ih

theorem edits_zero_iff : Edits 0 a b ↔ a = b := by
  constructor
  · intro h
    cases h
    rfl
  · rintro rfl
    exact .none a

end

/-- Edits may be made further on, behind any beginning. -/
theorem Edit.behind {a b : Chars} (before : Chars) (h : Edit a b) : Edit (before ++ a) (before ++ b) := by
  induction before with
  | nil => exact h
  | cons c before ih => exact .further c ih

/-- What follows an edit does not matter. -/
theorem Edit.before {a b : Chars} (behind : Chars) (h : Edit a b) : Edit (a ++ behind) (b ++ behind) := by
  induction h with
  | insert c rest => exact .insert c (rest ++ behind)
  | delete c rest => exact .delete c (rest ++ behind)
  | replace c d rest => exact .replace c d (rest ++ behind)
  | further c _ ih => exact .further c ih

theorem Edit.reverse {a b : Chars} (h : Edit a b) : Edit a.reverse b.reverse := by
  induction h with
  | insert c rest =>
      have hlast := (Edit.insert c []).behind rest.reverse
      rwa [List.append_nil, ← List.reverse_cons] at hlast
  | delete c rest =>
      have hlast := (Edit.delete c []).behind rest.reverse
      rwa [List.append_nil, ← List.reverse_cons] at hlast
  | replace c d rest =>
      have hlast := (Edit.replace c d []).behind rest.reverse
      rwa [← List.reverse_cons, ← List.reverse_cons] at hlast
  | further c _ ih =>
      rw [List.reverse_cons, List.reverse_cons]
      exact ih.before [c]

theorem Edits.reverse {n : Nat} {a b : Chars} (h : Edits n a b) : Edits n a.reverse b.reverse := by
  induction h with
  | none a => exact .none a.reverse
  | next edit _ ih => exact .next edit.reverse ih

/-! ## The fewest edits, by first characters -/

/-- What the first characters cost when they are left in the same place. -/
def replacement (c d : Char) : Nat := if c == d then 0 else 1

/-- The fewest edits from one text to another: the first character is taken out, put in, or kept in its
place. -/
def fewestEdits : Chars → Chars → Nat
  | [], b => b.length
  | c :: a, [] => (c :: a).length
  | c :: a, d :: b =>
    min (fewestEdits a (d :: b) + 1)
      (min (fewestEdits (c :: a) b + 1) (fewestEdits a b + replacement c d))
termination_by a b => a.length + b.length

theorem fewestEdits_nil_left (b : Chars) : fewestEdits [] b = b.length := by
  rw [fewestEdits]

theorem fewestEdits_nil_right (a : Chars) : fewestEdits a [] = a.length := by
  cases a with
  | nil => rw [fewestEdits_nil_left]
  | cons c a => rw [fewestEdits]

theorem fewestEdits_cons_cons (c : Char) (a : Chars) (d : Char) (b : Chars) :
    fewestEdits (c :: a) (d :: b) =
      min (fewestEdits a (d :: b) + 1)
        (min (fewestEdits (c :: a) b + 1) (fewestEdits a b + replacement c d)) := by
  rw [fewestEdits]

section

variable {a b : Chars}

theorem replacement_le (x y : Char) : replacement x y ≤ 1 := by
  unfold replacement
  split <;> omega

/-! ## One edit moves the number by at most one -/

theorem fewestEdits_delete_le (x : Char) (a b : Chars) : fewestEdits (x :: a) b ≤ fewestEdits a b + 1 := by
  cases b with
  | nil => simp [fewestEdits_nil_right]
  | cons d b =>
      rw [fewestEdits_cons_cons]
      omega

theorem fewestEdits_insert_right_le (a : Chars) (y : Char) (b : Chars) :
    fewestEdits a (y :: b) ≤ fewestEdits a b + 1 := by
  cases a with
  | nil => simp [fewestEdits_nil_left]
  | cons c a =>
      rw [fewestEdits_cons_cons]
      omega

theorem fewestEdits_replace_le (x : Char) (a : Chars) (y : Char) (b : Chars) :
    fewestEdits (x :: a) (y :: b) ≤ fewestEdits a b + 1 := by
  have hcost := replacement_le x y
  rw [fewestEdits_cons_cons]
  omega

theorem fewestEdits_insert_le (x : Char) (a b : Chars) : fewestEdits a b ≤ fewestEdits (x :: a) b + 1 := by
  induction b with
  | nil =>
      rw [fewestEdits_nil_right, fewestEdits_nil_right, List.length_cons]
      omega
  | cons d b ih =>
      have hright := fewestEdits_insert_right_le a d b
      rw [fewestEdits_cons_cons]
      omega

/-- One edit of a text moves the fewest edits to any other text by at most one. -/
theorem Edit.distance_le (h : Edit a b) (c : Chars) : fewestEdits a c ≤ fewestEdits b c + 1 := by
  induction h generalizing c with
  | insert x rest => exact fewestEdits_insert_le x rest c
  | delete x rest => exact fewestEdits_delete_le x rest c
  | replace x y rest =>
      induction c with
      | nil => simp [fewestEdits_nil_right]
      | cons d c ih =>
          have hdelete := fewestEdits_delete_le x rest (d :: c)
          have hright := fewestEdits_insert_right_le (x :: rest) d c
          have hreplace := fewestEdits_replace_le x rest d c
          rw [fewestEdits_cons_cons y]
          omega
  | @further x a b _ ih =>
      induction c with
      | nil =>
          have hend := ih []
          simp only [fewestEdits_nil_right, List.length_cons] at hend ⊢
          omega
      | cons d c ihc =>
          have hwhole := ih (d :: c)
          have hrest := ih c
          rw [fewestEdits_cons_cons x a, fewestEdits_cons_cons x b]
          omega

theorem fewestEdits_self (a : Chars) : fewestEdits a a = 0 := by
  induction a with
  | nil => exact fewestEdits_nil_left []
  | cons c a ih =>
      have hsame : replacement c c = 0 := if_pos (BEq.refl c)
      rw [fewestEdits_cons_cons, hsame, ih]
      omega

/-- No sequence of edits is shorter. -/
theorem Edits.distance_le {n : Nat} (h : Edits n a b) : fewestEdits a b ≤ n := by
  induction h with
  | none a => exact Nat.le_of_eq (fewestEdits_self a)
  | @next n a b c edit _ ih =>
      have hstep := edit.distance_le c
      omega

/-! ## As many edits suffice -/

theorem edits_nil_right (a : Chars) : Edits a.length a [] := by
  induction a with
  | nil => exact .none []
  | cons c a ih => exact .next (.delete c a) ih

theorem edits_fewestEdits (a b : Chars) : Edits (fewestEdits a b) a b := by
  induction a generalizing b with
  | nil =>
      rw [fewestEdits_nil_left]
      exact (edits_nil_right b).symm
  | cons c a iha =>
      induction b with
      | nil =>
          rw [fewestEdits_nil_right]
          exact edits_nil_right (c :: a)
      | cons d b ihb =>
          -- whichever of the three is the least tells the edit at the front
          have hdelete : Edits (fewestEdits a (d :: b) + 1) (c :: a) (d :: b) :=
            .next (.delete c a) (iha (d :: b))
          have hinsert : Edits (fewestEdits (c :: a) b + 1) (c :: a) (d :: b) := ihb.last (.insert d b)
          have hreplace : Edits (fewestEdits a b + replacement c d) (c :: a) (d :: b) := by
            unfold replacement
            split
            · rename_i heq
              obtain rfl := beq_iff_eq.mp heq
              exact (iha b).further c
            · exact .next (.replace c d a) ((iha b).further d)
          rw [fewestEdits_cons_cons]
          rcases Nat.le_total (fewestEdits a (d :: b) + 1)
            (min (fewestEdits (c :: a) b + 1) (fewestEdits a b + replacement c d)) with hle | hle
          · rwa [Nat.min_eq_left hle]
          rw [Nat.min_eq_right hle]
          rcases Nat.le_total (fewestEdits (c :: a) b + 1) (fewestEdits a b + replacement c d) with hle | hle
          · rwa [Nat.min_eq_left hle]
          · rwa [Nat.min_eq_right hle]

/-! ## The fewest edits as a metric -/

theorem fewestEdits_comm (a b : Chars) : fewestEdits a b = fewestEdits b a :=
  Nat.le_antisymm (edits_fewestEdits b a).symm.distance_le (edits_fewestEdits a b).symm.distance_le

theorem fewestEdits_eq_zero_iff : fewestEdits a b = 0 ↔ a = b := by
  constructor
  · intro h
    have hedits := edits_fewestEdits a b
    rw [h] at hedits
    exact edits_zero_iff.mp hedits
  · rintro rfl
    exact fewestEdits_self a

theorem fewestEdits_triangle (a b c : Chars) : fewestEdits a c ≤ fewestEdits a b + fewestEdits b c :=
  ((edits_fewestEdits a b).trans (edits_fewestEdits b c)).distance_le

/-- Texts read backwards are as far from each other as before. -/
theorem fewestEdits_reverse (a b : Chars) : fewestEdits a.reverse b.reverse = fewestEdits a b := by
  have hle := (edits_fewestEdits a b).reverse.distance_le
  have hge := (edits_fewestEdits a.reverse b.reverse).reverse.distance_le
  rw [List.reverse_reverse, List.reverse_reverse] at hge
  omega

/-- The recursion by last characters. -/
theorem fewestEdits_concat_concat (a : Chars) (c : Char) (b : Chars) (d : Char) :
    fewestEdits (a ++ [c]) (b ++ [d]) =
      min (fewestEdits a (b ++ [d]) + 1)
        (min (fewestEdits (a ++ [c]) b + 1) (fewestEdits a b + replacement c d)) := by
  simp only [← fewestEdits_reverse (a ++ [c]), ← fewestEdits_reverse a, List.reverse_append,
    List.reverse_singleton, List.singleton_append, fewestEdits_cons_cons]

/-- Never more edits are needed than the longer text has characters. -/
theorem fewestEdits_le_length (a b : Chars) : fewestEdits a b ≤ max a.length b.length := by
  induction a generalizing b with
  | nil =>
      rw [fewestEdits_nil_left]
      omega
  | cons c a ih =>
      cases b with
      | nil =>
          rw [fewestEdits_nil_right]
          omega
      | cons d b =>
          have hrest := ih b
          have hreplace := fewestEdits_replace_le c a d b
          simp only [List.length_cons]
          omega

end

/-! ## The rows -/

/-- The complete row for a text: the fewest edits from it to each beginning of another one. -/
def rowFor (a b : Chars) : List Nat := (List.range (b.length + 1)).map fun j => fewestEdits a (b.take j)

theorem rowFor_nil_left (b : Chars) : rowFor [] b = List.range (b.length + 1) := by
  have hplace : ∀ j ∈ List.range (b.length + 1), fewestEdits [] (b.take j) = id j := by
    intro j hj
    have hlt := List.mem_range.mp hj
    rw [fewestEdits_nil_left, List.length_take, id_eq]
    omega
  rw [rowFor, List.map_congr_left hplace, List.map_id]

theorem rowFor_nil_right (a : Chars) : rowFor a [] = [a.length] := by
  simp [rowFor, fewestEdits_nil_right]

theorem rowFor_concat (a b : Chars) (d : Char) :
    rowFor a (b ++ [d]) = rowFor a b ++ [fewestEdits a (b ++ [d])] := by
  have hplace : ∀ j ∈ List.range (b.length + 1),
      fewestEdits a ((b ++ [d]).take j) = fewestEdits a (b.take j) := by
    intro j hj
    have hlt := List.mem_range.mp hj
    rw [List.take_append_of_le_length (by omega)]
  rw [rowFor, rowFor, List.length_append, List.length_singleton, List.range_succ, List.map_append,
    List.map_congr_left hplace, List.map_singleton, List.take_of_length_le (by simp)]

/-- The places of a row, by the beginning of the other text they stand for. -/
theorem rowFor_getD (a begun rest : Chars) :
    (rowFor a (begun ++ rest)).getD begun.length 0 = fewestEdits a begun := by
  have hin : begun.length < (begun ++ rest).length + 1 := by
    rw [List.length_append]
    omega
  rw [rowFor, List.getD_eq_getElem?_getD, List.getElem?_map, List.getElem?_range hin, Option.map_some,
    Option.getD_some, List.take_left]

theorem rowFor_getLastD (a b : Chars) : (rowFor a b).getLastD 0 = fewestEdits a b := by
  simp [rowFor, List.range_succ]

/-- One place: out of the complete row above and the row as far as it is filled comes the next place. -/
theorem editPlace_row (a : Chars) (c : Char) (begun : Chars) (d : Char) (rest : Chars) :
    editPlace (rowFor a (begun ++ d :: rest)) (rowFor (a ++ [c]) begun) c d (begun.length + 1) =
      fewestEdits (a ++ [c]) (begun ++ [d]) := by
  have habove := rowFor_getD a (begun ++ [d]) rest
  have hcorner := rowFor_getD a begun (d :: rest)
  have hleft := rowFor_getD (a ++ [c]) begun []
  rw [List.append_assoc, List.singleton_append, List.length_append, List.length_singleton] at habove
  rw [List.append_nil] at hleft
  rw [editPlace, Nat.add_sub_cancel, habove, hcorner, hleft, fewestEdits_concat_concat, min_assoc,
    replacement]

/-- One row: as far as the second text has been gone through, the row for one character more is filled. -/
theorem editRow_row (a : Chars) (c : Char) (begun rest : Chars) :
    (begun.zipIdx 1).foldl
        (fun current place => current ++ [editPlace (rowFor a (begun ++ rest)) current c place.1 place.2])
        [a.length + 1] =
      rowFor (a ++ [c]) begun := by
  induction begun using List.reverseRecOn generalizing rest with
  | nil => simp [rowFor_nil_right]
  | append_singleton begun d ih =>
      rw [List.append_assoc, List.singleton_append, List.zipIdx_append, List.foldl_append, ih,
        List.zipIdx_singleton, List.foldl_cons, List.foldl_nil, Nat.add_comm 1, editPlace_row,
        rowFor_concat]

/-- All rows: as far as the first text has been gone through, the row is that of the beginning seen. -/
theorem editRows_row (a b : Chars) : editRows a b = rowFor a b := by
  induction a using List.reverseRecOn with
  | nil => exact (rowFor_nil_left b).symm
  | append_singleton a c ih =>
      have hrow := editRow_row a c b []
      rw [List.append_nil] at hrow
      rw [editRows] at ih ⊢
      rw [List.zipIdx_append, List.foldl_append, ih, List.zipIdx_singleton, List.foldl_cons, List.foldl_nil,
        Nat.add_comm 1]
      exact hrow

/-- The table, read at the last place of its last row, gives the fewest edits, whichever text is longer. -/
theorem editDistance_eq (a b : Chars) : editDistance a b = fewestEdits a b := by
  unfold editDistance
  split
  · rw [editRows_row, rowFor_getLastD, fewestEdits_comm]
  · rw [editRows_row, rowFor_getLastD]

/-! ## Names -/

theorem nameSimilarity_comm (a b : String) : nameSimilarity a b = nameSimilarity b a := by
  unfold nameSimilarity
  simp only [Bool.or_comm (plainName a).isEmpty, Bool.or_comm (hasPart (plainName a) (plainName b)),
    Bool.beq_comm (a := plainName a), Nat.max_comm (plainName a).length,
    editDistance_eq, fewestEdits_comm (plainName a)]

/-- The edit distance of two texts is the least number of edits that lead from one to the other.  So it is
symmetric, zero for equal texts only, and no detour is shorter; and the likeness of names is symmetric and
on the scale. -/
theorem editDistance_isLeast (a b : Chars) :
    IsLeast {n | Edits n a b} (editDistance a b) ∧ editDistance a b = editDistance b a ∧
      (editDistance a b = 0 ↔ a = b) ∧ (∀ c, editDistance a c ≤ editDistance a b + editDistance b c) ∧
      editDistance a b ≤ max a.length b.length ∧
      ∀ s t : String, nameSimilarity s t = nameSimilarity t s ∧ IsScore (nameSimilarity s t) := by
  simp only [editDistance_eq]
  have hleast : IsLeast {n | Edits n a b} (fewestEdits a b) :=
    ⟨edits_fewestEdits a b, fun _ hedits => hedits.distance_le⟩
  exact ⟨hleast, fewestEdits_comm a b, fewestEdits_eq_zero_iff, fewestEdits_triangle a b,
    fewestEdits_le_length a b, fun s t => ⟨nameSimilarity_comm s t, isScore_nameSimilarity s t⟩⟩

example : editDistance "kitten".toList "sitting".toList = 3 := by decide

end DeployTrace
