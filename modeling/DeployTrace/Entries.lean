/-
  DeployTrace/Entries.lean --- named entries in the order in which they were first put.

  Jobs, environment variables and `--set` values are maps in which order counts: which binding wins and
  in which order flows are reported follow it.  A name keeps its first place when its value is put again.
-/

set_option autoImplicit false

namespace DeployTrace

/-- Values under names, in order. -/
abbrev Entries (α : Type) : Type := List (String × α)

namespace Entries

variable {α : Type}

/-- The value under a name. -/
def get? (entries : Entries α) (name : String) : Option α := entries.lookup name

/-- The names in order. -/
def names (entries : Entries α) : List String := entries.map (·.1)

/-- Whether there is a value under a name. -/
def has (entries : Entries α) (name : String) : Bool := entries.any (·.1 == name)

/-- A value under a name, in the place the name has or else at the end. -/
def put : Entries α → String → α → Entries α
  | [], name, value => [(name, value)]
  | (other, old) :: rest, name, value =>
    if other == name then (name, value) :: rest else (other, old) :: put rest name value

/-- The entries put one after the other; of values under one name the last stays. -/
def ofList (pairs : List (String × α)) : Entries α :=
  pairs.foldl (fun entries pair => put entries pair.1 pair.2) []

/-- Putting gives the value back under its name and changes no other. -/
theorem get?_put (entries : Entries α) (name other : String) (value : α) :
    (put entries name value).get? other =
      if other = name then some value else entries.get? other := by
  have apart {a b : String} (h : ¬ a = b) : (a == b) = false := beq_false_of_ne h
  induction entries with
  | nil => by_cases h : other = name <;> simp [put, get?, List.lookup_cons, h, apart]
  | cons pair rest ih =>
    obtain ⟨key, old⟩ := pair
    simp only [get?] at ih ⊢
    by_cases hk : key = name
    · subst hk
      by_cases h : other = key <;> simp [put, h, List.lookup_cons, apart]
    · by_cases h : other = key
      · subst h
        simp [put, hk]
      · simp [put, hk, List.lookup_cons, apart h, ih]

/-- A name is new or has its place: putting adds at most its own name, at the end. -/
theorem names_put (entries : Entries α) (name : String) (value : α) :
    (put entries name value).names =
      if name ∈ entries.names then entries.names else entries.names ++ [name] := by
  induction entries with
  | nil => simp [put, names]
  | cons pair rest ih =>
    obtain ⟨key, old⟩ := pair
    by_cases hk : key = name
    · subst hk
      simp [put, names]
    · have hne : ¬ name = key := fun e => hk e.symm
      simp only [names] at ih
      by_cases hm : name ∈ rest.map (·.1) <;> simp [put, names, hk, hne, ih, hm]

end Entries

/-- The first elements of a list as a limit counts them: a negative limit leaves that many out at the
end. -/
def keepFirst {α : Type} (limit : Int) (xs : List α) : List α :=
  if 0 ≤ limit then xs.take limit.toNat else xs.take (xs.length - limit.natAbs)

/-- Elements added to a list unless they are there already, in order. -/
def addNew {α : Type} [BEq α] (known more : List α) : List α :=
  more.foldl (fun seen x => if seen.contains x then seen else seen ++ [x]) known

/-- The elements of a list without repetition, each in the place where it first stands. -/
def distinct {α : Type} [BEq α] (xs : List α) : List α := addNew [] xs

/-- An element put before the first one it precedes; elements that precede neither way keep their
order. -/
def insertBy {α : Type} (precedes : α → α → Bool) (x : α) : List α → List α
  | [] => [x]
  | y :: rest => if precedes y x then y :: insertBy precedes x rest else x :: y :: rest

/-- A list sorted so that no element strictly precedes one before it; elements of the same rank keep
their order. -/
def sortBy {α : Type} (precedes : α → α → Bool) : List α → List α
  | [] => []
  | x :: rest => insertBy precedes x (sortBy precedes rest)

/-- Inserting adds the element and nothing else. -/
theorem insertBy_perm {α : Type} (precedes : α → α → Bool) (x : α) (xs : List α) :
    (insertBy precedes x xs).Perm (x :: xs) := by
  induction xs with
  | nil => exact List.Perm.refl _
  | cons y rest ih =>
    simp only [insertBy]
    split
    · exact (ih.cons y).trans (List.Perm.swap x y rest)
    · exact List.Perm.refl _

/-- Sorting only reorders. -/
theorem sortBy_perm {α : Type} (precedes : α → α → Bool) (xs : List α) :
    (sortBy precedes xs).Perm xs := by
  induction xs with
  | nil => exact List.Perm.refl _
  | cons x rest ih => exact (insertBy_perm precedes x _).trans (ih.cons x)

end DeployTrace
