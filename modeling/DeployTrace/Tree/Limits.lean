/-
  DeployTrace/Tree/Limits.lean --- what a machine can write.

  WHAT THIS FILE IS FOR.  Two things that a program writes may be refused by the machine that runs it.  A text
  is encoded before it is digested, and half of a surrogate pair has no encoding.  A value is turned into
  text, and an integer with too many digits is not.  Which characters are halves and how many digits are too
  many is a parameter, so that what is said of limits is said of every machine; where there are none,
  everything is written.

  WRITINGS.  What a part of the program writes is a list of writings, in the order in which they are made.
  The part goes on if all of them are admitted, and otherwise it fails with the first refusal.  The
  functions elsewhere give the texts; here is only asked whether they come about.
-/
import DeployTrace.Entries
import DeployTrace.Text.Half
import DeployTrace.Tree.Written

set_option autoImplicit false

namespace DeployTrace

open Text

/-! ## Limits -/

/-- What a machine refuses to write. -/
structure Limits where
  /-- the half of a surrogate pair that a character stands for -/
  half? : Char → Option Nat
  /-- no character of ASCII stands for one -/
  ascii : ∀ c, c.toNat < 128 → half? c = none
  /-- the most digits of an integer, if there is a most -/
  mostDigits : Option Nat

/-- The limits of the machines in use. -/
def Limits.standard : Limits where
  half? := halfOf?
  ascii _ h := if_neg fun hhalf => absurd (Nat.lt_of_le_of_lt hhalf h) (by decide)
  mostDigits := some digitLimit

/-- No limits. -/
def Limits.unbounded : Limits where
  half? _ := none
  ascii _ _ := rfl
  mostDigits := none

/-- Why something is not written. -/
inductive WriteFault where
  /-- at a place of a text there is half of a pair, and so many more follow it at once -/
  | noEncoding (place half more : Nat)
  /-- an integer has more digits than the most -/
  | tooManyDigits (most : Nat)
  deriving DecidableEq, Repr

/-- The wording of a fault. -/
def WriteFault.message : WriteFault → String
  | noEncoding place half 0 =>
    "'utf-8' codec can't encode character '\\u" ++ String.ofList (hexDigits 4 half) ++ "' in position " ++
      Nat.repr place ++ ": surrogates not allowed"
  | noEncoding place _ more =>
    "'utf-8' codec can't encode characters in position " ++ Nat.repr place ++ "-" ++ Nat.repr (place + more) ++
      ": surrogates not allowed"
  | tooManyDigits most =>
    "Exceeds the limit (" ++ Nat.repr most ++
      " digits) for integer string conversion; use sys.set_int_max_str_digits() to increase the limit"

/-! ## Encoding a text -/

/-- The fault of the first halves in a text that begins at a place. -/
def Limits.encodingFault? (l : Limits) : Nat → Chars → Option WriteFault
  | _, [] => none
  | place, c :: rest =>
    match l.half? c with
    | none => encodingFault? l (place + 1) rest
    | some half => some (.noEncoding place half (rest.takeWhile fun d => (l.half? d).isSome).length)

/-! ## Large integers -/

/-- Whether a scalar is an integer of at least some size. -/
def Scalar.reaches (size : Nat) : Scalar → Bool
  | .number (.int i) => size ≤ i.natAbs
  | _ => false

mutual

/-- Whether some integer in a tree, as a key or a value, is at least of some size. -/
def Tree.reaches (size : Nat) : Tree → Bool
  | .leaf s => s.reaches size
  | .list items => itemsReach size items
  | .table entries => entriesReach size entries

/-- Whether this holds of some item of a list. -/
def itemsReach (size : Nat) : List Tree → Bool
  | [] => false
  | t :: rest => t.reaches size || itemsReach size rest

/-- Whether this holds of some key or value of a table. -/
def entriesReach (size : Nat) : List (Scalar × Tree) → Bool
  | [] => false
  | (key, value) :: rest => key.reaches size || value.reaches size || entriesReach size rest

end

mutual

/-- Whether some key in a tree is an integer of at least some size. -/
def Tree.keysReach (size : Nat) : Tree → Bool
  | .leaf _ => false
  | .list items => itemKeysReach size items
  | .table entries => entryKeysReach size entries

/-- Whether this holds of a key in some item of a list. -/
def itemKeysReach (size : Nat) : List Tree → Bool
  | [] => false
  | t :: rest => t.keysReach size || itemKeysReach size rest

/-- Whether this holds of some key of a table or of a key in one of its values. -/
def entryKeysReach (size : Nat) : List (Scalar × Tree) → Bool
  | [] => false
  | (key, value) :: rest => key.reaches size || value.keysReach size || entryKeysReach size rest

end

mutual

/-- Whether some integer that stands in the canonical text as a value is at least of some size.  Of
entries whose keys have one text only the last stands there. -/
def Tree.valuesReach (size : Nat) : Tree → Bool
  | .leaf s => s.reaches size
  | .list items => itemValuesReach size items
  | .table entries => (Entries.ofList (entryValuesReach size entries)).any (·.2)

/-- Whether this holds of some item of a list. -/
def itemValuesReach (size : Nat) : List Tree → Bool
  | [] => false
  | t :: rest => t.valuesReach size || itemValuesReach size rest

/-- The keys of a table as texts, each with the answer for its value. -/
def entryValuesReach (size : Nat) : List (Scalar × Tree) → List (String × Bool)
  | [] => []
  | (key, value) :: rest => (key.written, value.valuesReach size) :: entryValuesReach size rest

end

/-! ## Writings -/

/-- Something that is written. -/
inductive Writing where
  /-- a text is encoded -/
  | encoded (text : String)
  /-- a value is turned into text -/
  | written (t : Tree)
  /-- a value is turned into its canonical text, all keys first -/
  | canonical (t : Tree)
  deriving Repr

/-- A key is turned into text. -/
abbrev Writing.key (k : Scalar) : Writing := .written (.leaf k)

/-- Why a writing is refused, if it is. -/
def Limits.refusal? (l : Limits) : Writing → Option WriteFault
  | .encoded text => l.encodingFault? 0 text.toList
  | .written t =>
    (l.mostDigits.filter fun most => t.reaches (Nat.pow 10 most)).map .tooManyDigits
  | .canonical t =>
    (l.mostDigits.filter fun most =>
      t.keysReach (Nat.pow 10 most) || t.valuesReach (Nat.pow 10 most)).map .tooManyDigits

/-- A writing is made. -/
def Limits.Admits (l : Limits) (w : Writing) : Prop := l.refusal? w = none

instance (l : Limits) (w : Writing) : Decidable (l.Admits w) :=
  inferInstanceAs (Decidable (l.refusal? w = none))

/-- All of some writings are made. -/
def Limits.AdmitsAll (l : Limits) (writings : List Writing) : Prop := ∀ w ∈ writings, l.Admits w

instance (l : Limits) (writings : List Writing) : Decidable (l.AdmitsAll writings) :=
  inferInstanceAs (Decidable (∀ w ∈ writings, l.Admits w))

/-- The first refusal of some writings, if there is one. -/
def Limits.writeAll (l : Limits) (writings : List Writing) : Except WriteFault Unit :=
  match writings.findSome? l.refusal? with
  | none => .ok ()
  | some fault => .error fault

/-! ## Admitted writings -/

namespace Limits

variable {l : Limits}

theorem writeAll_eq_ok_iff {writings : List Writing} :
    l.writeAll writings = .ok () ↔ l.AdmitsAll writings := by
  unfold writeAll
  split
  · rename_i hnone
    exact iff_of_true rfl (List.findSome?_eq_none_iff.mp hnone)
  · rename_i fault hfault
    refine iff_of_false (by simp) fun hall => ?_
    rw [List.findSome?_eq_none_iff.mpr hall] at hfault
    cases hfault

theorem exists_fault_of_not_admitsAll {writings : List Writing} (h : ¬ l.AdmitsAll writings) :
    ∃ fault, l.writeAll writings = .error fault := by
  cases hresult : l.writeAll writings with
  | ok _ => exact absurd (writeAll_eq_ok_iff.mp hresult) h
  | error fault => exact ⟨fault, rfl⟩

theorem encodingFault?_eq_none_iff {place : Nat} {text : Chars} :
    l.encodingFault? place text = none ↔ ∀ c ∈ text, l.half? c = none := by
  induction text generalizing place with
  | nil => simp [encodingFault?]
  | cons c rest ih =>
      unfold encodingFault?
      cases hhalf : l.half? c with
      | none => simp [hhalf, ih]
      | some half => simp [hhalf]

/-- A text is encoded exactly if there is no half in it. -/
theorem admits_encoded_iff {text : String} :
    l.Admits (.encoded text) ↔ ∀ c ∈ text.toList, l.half? c = none :=
  encodingFault?_eq_none_iff

/-- Two texts next to each other are encoded exactly if both are. -/
theorem admits_encoded_append {a b : String} :
    l.Admits (.encoded (a ++ b)) ↔ l.Admits (.encoded a) ∧ l.Admits (.encoded b) := by
  simp only [admits_encoded_iff, String.toList_append, List.forall_mem_append]

theorem admits_unbounded (w : Writing) : unbounded.Admits w := by
  cases w with
  | encoded text => exact admits_encoded_iff.mpr fun _ _ => rfl
  | written t => rfl
  | canonical t => rfl

end Limits

end DeployTrace
