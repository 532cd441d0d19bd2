/-
  DeployTrace/Tree/Basic.lean --- workflow and settings data.

  WHAT THIS FILE IS FOR.  A workflow is what a YAML or JSON file holds: nothing, truth values, numbers,
  texts, lists, and tables whose entries have an order.  Nothing about its shape is given, so every
  reader of a workflow asks for a shape and has an answer for all others.

  A key is a scalar rather than a text, because YAML reads some keys as numbers or truth values.
-/
import DeployTrace.Number.Basic

set_option autoImplicit false

namespace DeployTrace

/-- A value without parts. -/
inductive Scalar where
  | null
  | bool (b : Bool)
  | number (n : Number)
  | text (s : String)
  deriving DecidableEq, Repr

/-- Data as a file holds it. -/
inductive Tree where
  | leaf (s : Scalar)
  | list (items : List Tree)
  | table (entries : List (Scalar × Tree))
  deriving Repr

/-- The entries of a table in order. -/
abbrev Table : Type := List (Scalar × Tree)

/-! ## Scalars -/

namespace Scalar

/-- The number a scalar counts as: truth values count as 1 and 0. -/
def number? : Scalar → Option Number
  | .bool b => some (.int (if b then 1 else 0))
  | .number n => some n
  | _ => none

/-- Equality as keys and comparisons see it: numbers by value, across integers, fractions and truth
values. -/
def same (a b : Scalar) : Bool :=
  match a, b with
  | .null, .null => true
  | .text s, .text t => s == t
  | a, b =>
    match a.number?, b.number? with
    | some m, some n => m.same n
    | _, _ => false

@[simp] theorem same_text (s t : String) : same (.text s) (.text t) = (s == t) := rfl

/-- Only a text is the same as a text. -/
theorem eq_text_of_same {a : Scalar} {t : String} (h : a.same (.text t) = true) : a = .text t := by
  cases a with
  | text s => rw [same_text, beq_iff_eq] at h; rw [h]
  | null => cases h
  | bool b => cases h
  | number n => cases h

/-- Whether a scalar counts as present: not null, not false, not zero, not empty. -/
def isTruthy : Scalar → Bool
  | .null => false
  | .bool b => b
  | .number n => !n.same 0
  | .text s => !s.isEmpty

end Scalar

/-! ## Trees -/

namespace Tree

/-- Nothing. -/
@[match_pattern] abbrev null : Tree := .leaf .null

/-- A truth value. -/
@[match_pattern] abbrev bool (b : Bool) : Tree := .leaf (.bool b)

/-- A number. -/
@[match_pattern] abbrev number (n : Number) : Tree := .leaf (.number n)

/-- An integer. -/
@[match_pattern] abbrev int (i : Int) : Tree := .leaf (.number (.int i))

/-- A text. -/
@[match_pattern] abbrev text (s : String) : Tree := .leaf (.text s)

instance : Inhabited Tree := ⟨null⟩

/-- The text, if the tree is one. -/
def text? : Tree → Option String
  | .text s => some s
  | _ => none

/-- The items, if the tree is a list. -/
def list? : Tree → Option (List Tree)
  | .list items => some items
  | _ => none

/-- The entries, if the tree is a table. -/
def table? : Tree → Option Table
  | .table entries => some entries
  | _ => none

/-- The number a tree counts as. -/
def number? : Tree → Option Number
  | .leaf s => s.number?
  | _ => none

/-- Whether the tree is a table. -/
def isTable (t : Tree) : Bool := t.table?.isSome

/-- Whether a tree counts as present: an empty list or table does not. -/
def isTruthy : Tree → Bool
  | .leaf s => s.isTruthy
  | .list items => !items.isEmpty
  | .table entries => !entries.isEmpty

/-- The tree if it counts as present, and otherwise the other. -/
def orElse (t other : Tree) : Tree := if t.isTruthy then t else other

/-- The kind of a tree as error messages name it. -/
def kindName : Tree → String
  | .leaf .null => "NoneType"
  | .leaf (.bool _) => "bool"
  | .leaf (.number (.int _)) => "int"
  | .leaf (.number (.fraction _)) => "float"
  | .leaf (.text _) => "str"
  | .list _ => "list"
  | .table _ => "dict"

/-- A table with texts as keys. -/
def ofFields (fields : List (String × Tree)) : Tree :=
  .table (fields.map fun (name, value) => (.text name, value))

/-- A list of texts. -/
def ofTexts (texts : List String) : Tree := .list (texts.map .text)

/-- Counts under names. -/
def ofCounts (counts : List (String × Int)) : Tree := ofFields (counts.map fun (name, n) => (name, int n))

/-- A text, or nothing. -/
def ofText? : Option String → Tree
  | some s => .text s
  | none => .null

end Tree

/-! ## Tables -/

namespace Table

/-- The value under a key. -/
def get? (entries : Table) (key : Scalar) : Option Tree :=
  (entries.find? fun entry => entry.1.same key).map (·.2)

/-- The value under a text key. -/
def field? (entries : Table) (name : String) : Option Tree := entries.get? (.text name)

/-- The value under a text key, null when there is none. -/
def field (entries : Table) (name : String) : Tree := (entries.field? name).getD .null

/-- Whether there is a value under a text key. -/
def has (entries : Table) (name : String) : Bool := (entries.field? name).isSome

/-- A value under a key, in the place the key has or else at the end. -/
def put : Table → Scalar → Tree → Table
  | [], key, value => [(key, value)]
  | (other, old) :: rest, key, value =>
    if other.same key then (other, value) :: rest else (other, old) :: put rest key value

/-- The text under a text key, if there is one and it is a text. -/
def text? (entries : Table) (name : String) : Option String := (entries.field? name).bind Tree.text?

end Table

/-- The value under a text key of a table; null for anything else. -/
def Tree.field (t : Tree) (name : String) : Tree :=
  match t with
  | .table entries => Table.field entries name
  | _ => .null

/-- The text under a text key, if there is one and it is a text. -/
def Tree.fieldText? (t : Tree) (name : String) : Option String := (t.field name).text?

end DeployTrace
