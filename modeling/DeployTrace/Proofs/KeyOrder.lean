/-
  DeployTrace/Proofs/KeyOrder.lean --- the canonical text forgets the order of keys and nothing else.

  WHAT THIS FILE IS FOR.  A workflow is remembered under the digest of a text.  Two workflows must share
  that text when one writes the keys of its tables in another order, or an analysis is made twice; and
  they must share it ONLY then, or the flows of one workflow are given out as those of another.

  ORDER IS FORGOTTEN because entries are sorted by their keys before they are written, and keys of one
  table differ, so there is one way to sort them.

  NOTHING ELSE IS, because the text can be read: a scalar shows where it ends, either by its closing quote
  or by the first character that stands in no number, and the parts of a list or a table are separated by
  commas and end at a bracket that no part begins with.

  WHICH DATA.  Fractions are left out: their written form is rounded.  So are keys that are no texts: a
  key `1` is written as the key `"1"` is.
-/
import DeployTrace.Proofs.Canonical
import DeployTrace.Proofs.WrittenStrings
import Mathlib

set_option autoImplicit false

namespace DeployTrace

open Text

/-! ## Plain data, and the same data in another order -/

/-- Nothing, a truth value, an integer or a text. -/
def Scalar.IsWhole : Scalar → Prop
  | .number (.fraction _) => False
  | _ => True

/-- Data made of whole scalars, lists, and tables with texts as keys, no key twice. -/
inductive Tree.IsPlain : Tree → Prop
  | leaf {s : Scalar} (whole : s.IsWhole) : IsPlain (.leaf s)
  | list {items : List Tree} (plain : ∀ t ∈ items, IsPlain t) : IsPlain (.list items)
  | table {entries : Table} (texts : ∀ e ∈ entries, ∃ name, e.1 = .text name)
      (nodup : (entries.map (·.1)).Nodup) (plain : ∀ e ∈ entries, IsPlain e.2) :
      IsPlain (.table entries)

/-- Equality up to the order of the entries of tables: the same keys, and the same data under each. -/
inductive Tree.SameData : Tree → Tree → Prop
  | leaf (s : Scalar) : SameData (.leaf s) (.leaf s)
  | list {items others : List Tree} (same : List.Forall₂ SameData items others) :
      SameData (.list items) (.list others)
  | table {entries others : Table} (keys : (entries.map (·.1)).Perm (others.map (·.1)))
      (values : ∀ key v w, (key, v) ∈ entries → (key, w) ∈ others → SameData v w) :
      SameData (.table entries) (.table others)

/-! ## Sorted keys -/

theorem weakOrder_textPrecedes : WeakOrder Json.textPrecedes where
  asymm a b h := by
    have hlt : a < b := of_decide_eq_true h
    exact decide_eq_false (String.lt_asymm hlt)
  between a b c h := by
    have hac : a < c := of_decide_eq_true h
    rcases lt_trichotomy a b with hab | rfl | hba
    · exact Or.inl (decide_eq_true hab)
    · exact Or.inr h
    · exact Or.inr (decide_eq_true (String.lt_trans hba hac))

theorem eq_of_not_textPrecedes {a b : String} (hab : Json.textPrecedes a b = false)
    (hba : Json.textPrecedes b a = false) : a = b := by
  rcases lt_trichotomy a b with h | h | h
  · exact absurd h (of_decide_eq_false hab)
  · exact h
  · exact absurd h (of_decide_eq_false hba)

theorem canonicalItems_eq_map (items : List Tree) : Json.canonicalItems items = items.map Json.canonical := by
  induction items with
  | nil => rfl
  | cons t rest ih => rw [Json.canonicalItems, ih, List.map_cons]

/-- One entry with its key as a text and its value as a canonical text. -/
def canonicalEntry (e : Scalar × Tree) : String × String := (e.1.written, Json.canonical e.2)

theorem canonicalEntries_eq_map (entries : Table) :
    Json.canonicalEntries entries = entries.map canonicalEntry := by
  induction entries with
  | nil => rfl
  | cons e rest ih => rw [Json.canonicalEntries, ih, List.map_cons, canonicalEntry]

/-- Entries in the order in which they are written. -/
def sortedEntries (entries : Table) : Table :=
  sortBy (fun a b => Json.textPrecedes a.1.written b.1.written) entries

/-- One entry as it is written. -/
def entryText (e : Scalar × Tree) : String := Json.string e.1.written ++ ": " ++ Json.canonical e.2

section Entries

variable {entries : Table} (texts : ∀ e ∈ entries, ∃ name, e.1 = .text name)
  (nodup : (entries.map (·.1)).Nodup)

include texts nodup

/-- Keys that are texts stay apart when they are turned into texts. -/
theorem nodup_written : (Entries.names (Json.canonicalEntries entries)).Nodup := by
  have hnames : Entries.names (Json.canonicalEntries entries) = (entries.map (·.1)).map Scalar.written := by
    rw [canonicalEntries_eq_map]
    simp [Entries.names, canonicalEntry, Function.comp_def]
  rw [hnames]
  refine List.Nodup.map_on ?_ nodup
  intro a ha b hb hab
  obtain ⟨e, he, rfl⟩ := List.mem_map.mp ha
  obtain ⟨e', he', rfl⟩ := List.mem_map.mp hb
  obtain ⟨name, hname⟩ := texts e he
  obtain ⟨name', hname'⟩ := texts e' he'
  rw [hname, hname'] at hab ⊢
  exact congrArg Scalar.text hab

/-- No entry of a table is lost when its keys are turned into texts, so all are written. -/
theorem canonical_table :
    Json.canonical (.table entries) =
      "\x7b" ++ ", ".intercalate ((sortedEntries entries).map entryText) ++ "\x7d" := by
  have hsorted := map_sortBy canonicalEntry (fun a b => Json.textPrecedes a.1 b.1) entries
  unfold Json.canonical
  rw [Entries.ofList_of_nodup (nodup_written texts nodup), canonicalEntries_eq_map]
  unfold Json.canonicalTable
  simp only
  rw [← hsorted, List.map_map]
  rfl

/-- Tables with the same keys, and the same canonical text under each, have the same canonical entries. -/
theorem canonicalEntries_perm {others : Table} (keys : (entries.map (·.1)).Perm (others.map (·.1)))
    (values : ∀ key v w, (key, v) ∈ entries → (key, w) ∈ others → Json.canonical v = Json.canonical w) :
    (Json.canonicalEntries entries).Perm (Json.canonicalEntries others) := by
  have hsubset : Json.canonicalEntries entries ⊆ Json.canonicalEntries others := by
    rw [canonicalEntries_eq_map, canonicalEntries_eq_map]
    intro pair hpair
    obtain ⟨⟨key, v⟩, hmem, rfl⟩ := List.mem_map.mp hpair
    obtain ⟨⟨key', w⟩, hmem', rfl⟩ := List.mem_map.mp (keys.mem_iff.mp (List.mem_map_of_mem hmem))
    refine List.mem_map.mpr ⟨_, hmem', ?_⟩
    rw [canonicalEntry, canonicalEntry, values _ _ _ hmem hmem']
  have hlength : (Json.canonicalEntries others).length ≤ (Json.canonicalEntries entries).length := by
    rw [canonicalEntries_eq_map, canonicalEntries_eq_map, List.length_map, List.length_map]
    simpa using keys.length_eq.ge
  exact (List.subperm_of_subset (.of_map _ (nodup_written texts nodup)) hsubset).perm_of_length_le hlength

/-- The canonical text of a table is that of its entries in any order. -/
theorem canonicalTable_eq_of_perm {pairs : Entries String}
    (h : (Json.canonicalEntries entries).Perm pairs) :
    Json.canonicalTable (Json.canonicalEntries entries) = Json.canonicalTable pairs := by
  have hnodup := nodup_written texts nodup
  have hsorted := sortBy_eq_of_perm (weakOrder_textPrecedes.comap Prod.fst) h ?_
  · unfold Json.canonicalTable
    rw [hsorted]
  · intro a ha b hb hab hba
    exact List.inj_on_of_nodup_map hnodup ha hb (eq_of_not_textPrecedes hab hba)

end Entries

/-- Order is forgotten at every depth. -/
theorem canonical_eq_of_sameData {v : Tree} (hv : v.IsPlain) :
    ∀ {w : Tree}, w.IsPlain → v.SameData w → Json.canonical v = Json.canonical w := by
  induction hv with
  | leaf _ =>
      intro w _ h
      cases h
      rfl
  | @list items _ ih =>
      intro w hw h
      cases h with
      | @list _ others same =>
      cases hw with
      | list plain =>
      have hitems : items.map Json.canonical = others.map Json.canonical := by
        clear * - same ih plain
        induction same with
        | nil => rfl
        | cons first rest step =>
            rw [List.map_cons, List.map_cons,
              ih _ List.mem_cons_self (plain _ List.mem_cons_self) first,
              step (fun t ht => ih t (List.mem_cons_of_mem _ ht))
                (fun t ht => plain t (List.mem_cons_of_mem _ ht))]
      unfold Json.canonical
      rw [canonicalItems_eq_map, canonicalItems_eq_map, hitems]
  | @table entries texts nodup _ ih =>
      intro w hw h
      cases h with
      | @table _ others keys values =>
      cases hw with
      | table texts' nodup' plain' =>
      have hnodup := nodup_written texts nodup
      have hnodup' := nodup_written texts' nodup'
      have hperm := canonicalEntries_perm texts nodup keys fun _ _ _ hmem hmem' =>
        ih _ hmem (plain' _ hmem') (values _ _ _ hmem hmem')
      unfold Json.canonical
      rw [Entries.ofList_of_nodup hnodup, Entries.ofList_of_nodup hnodup']
      exact canonicalTable_eq_of_perm texts nodup hperm

/-! ## Where a written value ends -/

/-- A text that does not go on with a character of a number. -/
def Ends (rest : Chars) : Prop := ∀ c ∈ rest.head?, isNumberChar c = false

theorem ends_cons {c : Char} (hc : isNumberChar c = false) (rest : Chars) : Ends (c :: rest) := by
  intro d hd
  obtain rfl := Option.some.inj hd
  exact hc

/-- A numeral shows where it ends. -/
theorem IsNumeral.append_inj {a b rest more : Chars} (ha : IsNumeral a) (hb : IsNumeral b)
    (hrest : Ends rest) (hmore : Ends more) (h : a ++ rest = b ++ more) : a = b ∧ rest = more := by
  have hcut {numeral after : Chars} (hnumeral : IsNumeral numeral) (hafter : Ends after) :
      (numeral ++ after).takeWhile isNumberChar = numeral := by
    rw [List.takeWhile_append_of_pos hnumeral]
    cases after with
    | nil => simp
    | cons c after =>
        rw [List.takeWhile_cons_of_neg (by simp [hafter c rfl]), List.append_nil]
  have hab : a = b := by
    have hfirst := hcut ha hrest
    rw [h, hcut hb hmore] at hfirst
    exact hfirst.symm
  subst hab
  exact ⟨rfl, List.append_cancel_left h⟩

/-- `text` shows what was written and where it ends: two values, whatever follows them, have texts that
go on alike only when the values are related and what follows is the same. -/
def Shows {α : Type} (text : α → String) (R : α → α → Prop) (a b : α) : Prop :=
  ∀ rest more, Ends rest → Ends more → (text a).toList ++ rest = (text b).toList ++ more →
    R a b ∧ rest = more

/-! ## Scalars -/

/-- Every whole scalar but a text is written with characters of numbers. -/
theorem isNumeral_scalar {s : Scalar} (h : ∀ t, s ≠ .text t) : IsNumeral (Json.scalar s).toList := by
  cases s with
  | null => exact isNumeral_of_all (by decide)
  | bool b => cases b <;> exact isNumeral_of_all (by decide)
  | number n => exact isNumeral_number n
  | text t => exact absurd rfl (h t)

theorem mem_intRepr {i : Int} {c : Char} (h : c ∈ (Int.repr i).toList) : c.isDigit = true ∨ c = '-' := by
  have hdigit {n : Nat} (hc : c ∈ (Nat.repr n).toList) : c.isDigit = true := by
    rw [Nat.toList_repr] at hc
    exact Nat.isDigit_of_mem_toDigits (by decide) (by decide) hc
  rw [Int.repr_eq_if] at h
  split at h
  · exact Or.inl (hdigit h)
  · rw [String.toList_append, List.mem_append] at h
    rcases h with h | h
    · exact Or.inr (by simpa using h)
    · exact Or.inl (hdigit h)

/-- No integer is written as a word is. -/
theorem intRepr_ne {i : Int} {word : String} (c : Char) (hc : c ∈ word.toList)
    (hletter : ¬ (c.isDigit = true ∨ c = '-')) : Int.repr i ≠ word := by
  rintro rfl
  exact hletter (mem_intRepr hc)

theorem scalar_inj {s t : Scalar} (hs : s.IsWhole) (ht : t.IsWhole) (hs' : ∀ u, s ≠ .text u)
    (ht' : ∀ u, t ≠ .text u) (h : Json.scalar s = Json.scalar t) : s = t := by
  have hnull (i : Int) : Int.repr i ≠ "null" := intRepr_ne 'n' (by decide) (by decide)
  have hbool (i : Int) (b : Bool) : Int.repr i ≠ if b then "true" else "false" := by
    cases b
    · exact intRepr_ne 'f' (by decide) (by decide)
    · exact intRepr_ne 't' (by decide) (by decide)
  have hword (b : Bool) : (if b then "true" else "false") ≠ "null" := by cases b <;> decide
  match s, t, hs, ht with
  | .text u, _, _, _ => exact absurd rfl (hs' u)
  | _, .text u, _, _ => exact absurd rfl (ht' u)
  | .null, .null, _, _ => rfl
  | .null, .bool b, _, _ => exact absurd h.symm (hword b)
  | .null, .number (.int i), _, _ => exact absurd h.symm (hnull i)
  | .bool b, .null, _, _ => exact absurd h (hword b)
  | .bool b, .bool c, _, _ =>
      revert h
      cases b <;> cases c <;> decide
  | .bool b, .number (.int i), _, _ => exact absurd h.symm (hbool i b)
  | .number (.int i), .null, _, _ => exact absurd h (hnull i)
  | .number (.int i), .bool b, _, _ => exact absurd h (hbool i b)
  | .number (.int i), .number (.int j), _, _ => rw [Int.repr_injective h]

theorem isNumberChar_quote : isNumberChar '\x22' = false := by decide

/-- A whole scalar is written with a quote or a character of a number first. -/
theorem scalar_start {s : Scalar} (hs : s.IsWhole) :
    ∃ c rest, (Json.scalar s).toList = c :: rest ∧ (c = '\x22' ∨ isNumberChar c = true) := by
  match s, hs with
  | .text u, _ => exact ⟨_, _, Json.toList_string u, Or.inl rfl⟩
  | .null, _ => exact ⟨'n', "ull".toList, by decide, Or.inr (by decide)⟩
  | .bool true, _ => exact ⟨'t', "rue".toList, by decide, Or.inr (by decide)⟩
  | .bool false, _ => exact ⟨'f', "alse".toList, by decide, Or.inr (by decide)⟩
  | .number (.int i), _ =>
      have hne : (Int.repr i).toList ≠ [] := by
        rw [Int.repr_eq_if]
        split <;> simp
      obtain ⟨c, rest, hlist⟩ := List.exists_cons_of_ne_nil hne
      exact ⟨c, rest, hlist, Or.inr (isNumeral_intRepr i c (hlist ▸ List.mem_cons_self))⟩

/-- A whole scalar shows itself and where it ends. -/
theorem shows_scalar {s t : Scalar} (hs : s.IsWhole) (ht : t.IsWhole) :
    Shows Json.scalar Eq s t := by
  intro rest more hrest hmore h
  -- A text begins with a quote, which stands in no number.
  have quoteFirst {u : Scalar} (hu : ∀ x, u ≠ .text x) (hwhole : u.IsWhole) {x : String}
      {after before : Chars} (heq : (Json.string x).toList ++ after = (Json.scalar u).toList ++ before) :
      False := by
    obtain ⟨c, tail, hlist, hc⟩ := scalar_start hwhole
    rw [Json.toList_string, hlist] at heq
    obtain rfl : '\x22' = c := (List.cons.inj heq).1
    have hchar := isNumeral_scalar hu '\x22' (by rw [hlist]; exact List.mem_cons_self)
    rw [isNumberChar_quote] at hchar
    exact Bool.false_ne_true hchar
  by_cases hs' : ∃ x, s = .text x
  · obtain ⟨x, rfl⟩ := hs'
    by_cases ht' : ∃ y, t = .text y
    · obtain ⟨y, rfl⟩ := ht'
      obtain ⟨rfl, hafter⟩ := Json.string_append_inj h
      exact ⟨rfl, hafter⟩
    · exact (quoteFirst (not_exists.mp ht') ht h).elim
  · by_cases ht' : ∃ y, t = .text y
    · obtain ⟨y, rfl⟩ := ht'
      exact (quoteFirst (not_exists.mp hs') hs h.symm).elim
    · obtain ⟨htext, hafter⟩ := IsNumeral.append_inj (isNumeral_scalar (not_exists.mp hs'))
        (isNumeral_scalar (not_exists.mp ht')) hrest hmore h
      exact ⟨scalar_inj hs ht (not_exists.mp hs') (not_exists.mp ht') (String.toList_inj.mp htext), hafter⟩

/-! ## Parts between brackets -/

/-- Parts separated by commas, a bracket that ends them, and what follows. -/
theorem toList_intercalate_cons (first : String) (others : List String) :
    (", ".intercalate (first :: others)).toList =
      first.toList ++ others.flatMap fun part => ',' :: ' ' :: part.toList := by
  induction others generalizing first with
  | nil => simp
  | cons second others ih =>
      rw [String.intercalate_cons_cons, String.toList_append, String.toList_append, ih, List.append_assoc]
      rfl

section Parts

variable {α : Type} {text : α → String} {R : α → α → Prop} {close : Char}

/-- What follows a part is a comma or the bracket, and neither stands in a number. -/
theorem ends_further (hclose : isNumberChar close = false) (text : α → String) (xs : List α)
    (rest : Chars) : Ends ((xs.flatMap fun a => ',' :: ' ' :: (text a).toList) ++ close :: rest) := by
  cases xs with
  | nil => exact ends_cons hclose rest
  | cons x xs => exact ends_cons (by decide) _

/-- After the first part, every further part begins with a comma and the bracket is none. -/
theorem forall₂_of_further (hclose : isNumberChar close = false) (hcomma : close ≠ ',') {xs ys : List α}
    (shows : ∀ a ∈ xs, ∀ b ∈ ys, Shows text R a b) {rest more : Chars}
    (h : (xs.flatMap fun a => ',' :: ' ' :: (text a).toList) ++ close :: rest =
      (ys.flatMap fun b => ',' :: ' ' :: (text b).toList) ++ close :: more) :
    List.Forall₂ R xs ys ∧ rest = more := by
  induction xs generalizing ys with
  | nil =>
      cases ys with
      | nil => exact ⟨.nil, (List.cons.inj h).2⟩
      | cons b ys => exact absurd (List.cons.inj h).1 hcomma
  | cons a xs ih =>
      cases ys with
      | nil => exact absurd (List.cons.inj h).1.symm hcomma
      | cons b ys =>
          simp only [List.flatMap_cons, List.cons_append, List.append_assoc, List.cons.injEq, true_and] at h
          obtain ⟨hab, hfurther⟩ :=
            shows a List.mem_cons_self b List.mem_cons_self _ _
              (ends_further hclose text xs rest) (ends_further hclose text ys more) h
          obtain ⟨hrest, hafter⟩ := ih (fun x hx y hy =>
            shows x (List.mem_cons_of_mem a hx) y (List.mem_cons_of_mem b hy)) hfurther
          exact ⟨.cons hab hrest, hafter⟩

/-- Parts that show what they are and do not begin with the closing bracket are shown, all of them and in
their order, by what stands between the brackets. -/
theorem forall₂_of_parts (hclose : isNumberChar close = false) (hcomma : close ≠ ',') {xs ys : List α}
    (start : ∀ a ∈ xs ++ ys, ∃ c tail, (text a).toList = c :: tail ∧ c ≠ close)
    (shows : ∀ a ∈ xs, ∀ b ∈ ys, Shows text R a b) {rest more : Chars}
    (h : (", ".intercalate (xs.map text)).toList ++ close :: rest =
      (", ".intercalate (ys.map text)).toList ++ close :: more) :
    List.Forall₂ R xs ys ∧ rest = more := by
  have further (zs : List α) : (zs.map text).flatMap (fun part => ',' :: ' ' :: part.toList) =
      zs.flatMap fun a => ',' :: ' ' :: (text a).toList := List.flatMap_map ..
  cases xs with
  | nil =>
      cases ys with
      | nil => exact ⟨.nil, (List.cons.inj h).2⟩
      | cons b ys =>
          obtain ⟨c, tail, hlist, hc⟩ := start b (by simp)
          rw [List.map_cons, toList_intercalate_cons, hlist] at h
          exact absurd (List.cons.inj h).1.symm hc
  | cons a xs =>
      cases ys with
      | nil =>
          obtain ⟨c, tail, hlist, hc⟩ := start a (by simp)
          rw [List.map_cons, toList_intercalate_cons, hlist] at h
          exact absurd (List.cons.inj h).1 hc
      | cons b ys =>
          rw [List.map_cons, List.map_cons, toList_intercalate_cons, toList_intercalate_cons, further,
            further, List.append_assoc, List.append_assoc] at h
          obtain ⟨hab, hfurther⟩ :=
            shows a List.mem_cons_self b List.mem_cons_self _ _
              (ends_further hclose text xs rest) (ends_further hclose text ys more) h
          obtain ⟨hrest, hafter⟩ := forall₂_of_further hclose hcomma (fun x hx y hy =>
            shows x (List.mem_cons_of_mem a hx) y (List.mem_cons_of_mem b hy)) hfurther
          exact ⟨.cons hab hrest, hafter⟩

end Parts

/-! ## Trees -/

theorem toList_canonical_list (items : List Tree) :
    (Json.canonical (.list items)).toList =
      '[' :: ((", ".intercalate (items.map Json.canonical)).toList ++ [']']) := by
  unfold Json.canonical
  rw [canonicalItems_eq_map, String.toList_append, String.toList_append]
  rfl

theorem toList_canonical_table {entries : Table} (texts : ∀ e ∈ entries, ∃ name, e.1 = .text name)
    (nodup : (entries.map (·.1)).Nodup) :
    (Json.canonical (.table entries)).toList =
      '\x7b' :: ((", ".intercalate ((sortedEntries entries).map entryText)).toList ++ ['\x7d']) := by
  rw [canonical_table texts nodup, String.toList_append, String.toList_append]
  rfl

/-- No value begins with a closing bracket. -/
theorem canonical_start {v : Tree} (hv : v.IsPlain) :
    ∃ c tail, (Json.canonical v).toList = c :: tail ∧ c ≠ ']' := by
  cases hv with
  | leaf whole =>
      obtain ⟨c, tail, hlist, hc⟩ := scalar_start whole
      refine ⟨c, tail, hlist, ?_⟩
      rintro rfl
      revert hc
      decide
  | list _ => exact ⟨'[', _, toList_canonical_list _, by decide⟩
  | table texts nodup _ => exact ⟨'\x7b', _, toList_canonical_table texts nodup, by decide⟩

/-- No entry begins with a closing brace: it begins with the quote of its key. -/
theorem entryText_start (e : Scalar × Tree) :
    ∃ c tail, (entryText e).toList = c :: tail ∧ c ≠ '\x7d' := by
  have hstring := Json.toList_string e.1.written
  unfold entryText
  rw [String.toList_append, String.toList_append, hstring]
  exact ⟨'\x22', _, rfl, by decide⟩

/-- An entry with a text as its key shows its key by the closing quote, and its value after it. -/
theorem shows_entryText {e e' : Scalar × Tree} (hkey : ∃ name, e.1 = .text name)
    (hkey' : ∃ name, e'.1 = .text name)
    (hvalue : Shows Json.canonical Tree.SameData e.2 e'.2) :
    Shows entryText (fun e e' => e.1 = e'.1 ∧ e.2.SameData e'.2) e e' := by
  intro rest more hrest hmore h
  obtain ⟨key, value⟩ := e
  obtain ⟨key', value'⟩ := e'
  obtain ⟨name, rfl⟩ := hkey
  obtain ⟨name', rfl⟩ := hkey'
  simp only [entryText, String.toList_append, List.append_assoc] at h
  obtain ⟨hname, hafter⟩ := Json.string_append_inj h
  obtain ⟨hsame, hend⟩ := hvalue rest more hrest hmore (List.append_cancel_left hafter)
  exact ⟨⟨congrArg Scalar.text hname, hsame⟩, hend⟩

/-- What stands in one of two lists has its fellow in the other. -/
theorem exists_of_mem_forall₂ {α : Type} {R : α → α → Prop} {xs ys : List α} (h : List.Forall₂ R xs ys)
    {a : α} (ha : a ∈ xs) : ∃ b ∈ ys, R a b := by
  induction h with
  | nil => exact absurd ha List.not_mem_nil
  | cons first _ ih =>
      rcases List.mem_cons.mp ha with rfl | ha
      · exact ⟨_, List.mem_cons_self, first⟩
      · obtain ⟨b, hb, hab⟩ := ih ha
        exact ⟨b, List.mem_cons_of_mem _ hb, hab⟩

/-- Entries that belong together one by one, in some order of either table, are the same data. -/
theorem sameData_table {entries others sorted sorted' : Table} (hperm : sorted.Perm entries)
    (hperm' : sorted'.Perm others) (nodup : (others.map (·.1)).Nodup)
    (h : List.Forall₂ (fun e e' => e.1 = e'.1 ∧ e.2.SameData e'.2) sorted sorted') :
    Tree.SameData (.table entries) (.table others) := by
  have hkeys : sorted.map (·.1) = sorted'.map (·.1) := by
    clear hperm hperm'
    induction h with
    | nil => rfl
    | cons first _ ih => rw [List.map_cons, List.map_cons, first.1, ih]
  refine .table ?_ ?_
  · exact ((hperm.map _).symm.trans (.of_eq hkeys)).trans (hperm'.map _)
  · intro key v w hv hw
    obtain ⟨⟨key', w'⟩, hw', hkey, hsame⟩ := exists_of_mem_forall₂ h (hperm.mem_iff.mpr hv)
    obtain rfl : key = key' := hkey
    have heq : (key, w) = (key, w') :=
      List.inj_on_of_nodup_map nodup hw (hperm'.mem_iff.mp hw') rfl
    rw [(Prod.mk.inj heq).2]
    exact hsame

/-- The kind of a value shows in the first character of its text. -/
theorem canonical_leaf_ne {s : Scalar} (hs : s.IsWhole) {c : Char}
    (hc : ¬ (c = '\x22' ∨ isNumberChar c = true)) {tail rest : Chars} :
    (Json.canonical (.leaf s)).toList ++ rest ≠ c :: tail := by
  intro h
  obtain ⟨d, tail', hlist, hd⟩ := scalar_start hs
  have hleaf : (Json.canonical (.leaf s)).toList = d :: tail' := by
    unfold Json.canonical
    exact hlist
  rw [hleaf] at h
  exact hc ((List.cons.inj h).1 ▸ hd)

/-- Plain data shows what it is, up to the order of keys, and where it ends. -/
theorem shows_canonical {v : Tree} (hv : v.IsPlain) :
    ∀ {w : Tree}, w.IsPlain → Shows Json.canonical Tree.SameData v w := by
  have hbracket : ¬ ('[' = '\x22' ∨ isNumberChar '[' = true) := by decide
  have hbrace : ¬ ('\x7b' = '\x22' ∨ isNumberChar '\x7b' = true) := by decide
  induction hv with
  | leaf whole =>
      intro w hw rest more hrest hmore h
      cases hw with
      | leaf whole' =>
          unfold Json.canonical at h
          obtain ⟨rfl, hend⟩ := shows_scalar whole whole' rest more hrest hmore h
          exact ⟨.leaf _, hend⟩
      | list _ =>
          rw [toList_canonical_list] at h
          exact absurd h (canonical_leaf_ne whole hbracket)
      | table texts nodup _ =>
          rw [toList_canonical_table texts nodup] at h
          exact absurd h (canonical_leaf_ne whole hbrace)
  | list plain ih =>
      intro w hw rest more hrest hmore h
      rw [toList_canonical_list] at h
      cases hw with
      | leaf whole' => exact absurd h.symm (canonical_leaf_ne whole' hbracket)
      | table texts nodup _ =>
          rw [toList_canonical_table texts nodup] at h
          exact absurd (List.cons.inj h).1 (by decide)
      | list plain' =>
          rw [toList_canonical_list] at h
          simp only [List.cons_append, List.append_assoc, List.nil_append] at h
          obtain ⟨hsame, hend⟩ := forall₂_of_parts (by decide) (by decide)
            (fun t ht => canonical_start ((List.mem_append.mp ht).elim (plain t) (plain' t)))
            (fun t ht u hu => ih t ht (plain' u hu)) (List.cons.inj h).2
          exact ⟨.list hsame, hend⟩
  | table texts nodup plain ih =>
      intro w hw rest more hrest hmore h
      rw [toList_canonical_table texts nodup] at h
      cases hw with
      | leaf whole' => exact absurd h.symm (canonical_leaf_ne whole' hbrace)
      | list _ =>
          rw [toList_canonical_list] at h
          exact absurd (List.cons.inj h).1 (by decide)
      | table texts' nodup' plain' =>
          rw [toList_canonical_table texts' nodup'] at h
          simp only [List.cons_append, List.append_assoc, List.nil_append] at h
          obtain ⟨hsame, hend⟩ := forall₂_of_parts (by decide) (by decide) (fun e _ => entryText_start e)
            (fun e he e' he' => shows_entryText (texts e (mem_sortBy.mp he)) (texts' e' (mem_sortBy.mp he'))
              (ih e (mem_sortBy.mp he) (plain' e' (mem_sortBy.mp he')))) (List.cons.inj h).2
          exact ⟨sameData_table (sortBy_perm _ _) (sortBy_perm _ _) nodup' hsame, hend⟩

/-! ## The text of a workflow -/

/-- Two pieces of plain data are remembered under the same text exactly when their files have the same
name and they are the same data up to the order of keys. -/
theorem fingerprintText_eq_iff {v w : Tree} (hv : v.IsPlain) (hw : w.IsPlain) (g f : String) :
    fingerprintText v g = fingerprintText w f ↔ g = f ∧ v.SameData w := by
  constructor
  · intro h
    obtain ⟨hfile, hcanonical⟩ := fingerprintText_inj h
    have hnothing : Ends [] := fun c hc => absurd hc (by simp)
    exact ⟨hfile, (shows_canonical hv hw [] [] hnothing hnothing (by rw [hcanonical])).1⟩
  · rintro ⟨rfl, hsame⟩
    unfold fingerprintText
    rw [canonical_eq_of_sameData hv hw hsame]

theorem isPlain_ofFields {fields : List (String × Tree)} (nodup : (fields.map (·.1)).Nodup)
    (plain : ∀ field ∈ fields, field.2.IsPlain) : (Tree.ofFields fields).IsPlain := by
  unfold Tree.ofFields
  refine .table ?_ ?_ ?_
  · intro e he
    obtain ⟨field, -, rfl⟩ := List.mem_map.mp he
    exact ⟨field.1, rfl⟩
  · have hkeys := nodup.map (f := Scalar.text) fun _ _ h => Scalar.text.inj h
    simpa [Function.comp_def] using hkeys
  · intro e he
    obtain ⟨field, hfield, rfl⟩ := List.mem_map.mp he
    exact plain field hfield

/-- Keys in another order, below another key and beside a text that needs an escape, change nothing; a
truth value in the place of a number does. -/
theorem fingerprintText_reordered :
    fingerprintText (.ofFields [("jobs", .ofFields [("a", .int (-1)), ("b", .list [.null, .bool true])]),
        ("name", .text "é\n")]) "ci.yml" =
      fingerprintText (.ofFields [("name", .text "é\n"),
        ("jobs", .ofFields [("b", .list [.null, .bool true]), ("a", .int (-1))])]) "ci.yml" ∧
    fingerprintText (.list [.bool true]) "ci.yml" ≠ fingerprintText (.list [.int 1]) "ci.yml" := by
  have hitems : Tree.IsPlain (.list [.null, .bool true]) :=
    .list (List.forall_mem_cons.mpr ⟨.leaf trivial, List.forall_mem_singleton.mpr (.leaf trivial)⟩)
  have hname : Tree.IsPlain (.text "é\n") := .leaf trivial
  have hnumber : Tree.IsPlain (.int (-1)) := .leaf trivial
  have hjobs : Tree.SameData (.ofFields [("a", .int (-1)), ("b", .list [.null, .bool true])])
      (.ofFields [("b", .list [.null, .bool true]), ("a", .int (-1))]) :=
    sameData_table (.refl _) (.swap _ _ _) (by decide)
      (.cons ⟨rfl, .leaf _⟩ (.cons ⟨rfl, .list (.cons (.leaf _) (.cons (.leaf _) .nil))⟩ .nil))
  constructor
  · refine (fingerprintText_eq_iff (isPlain_ofFields (by decide) ?_) (isPlain_ofFields (by decide) ?_)
      _ _).mpr ⟨rfl, ?_⟩
    · refine List.forall_mem_cons.mpr ⟨isPlain_ofFields (by decide) ?_, List.forall_mem_singleton.mpr hname⟩
      exact List.forall_mem_cons.mpr ⟨hnumber, List.forall_mem_singleton.mpr hitems⟩
    · refine List.forall_mem_cons.mpr ⟨hname, List.forall_mem_singleton.mpr ?_⟩
      refine isPlain_ofFields (by decide) ?_
      exact List.forall_mem_cons.mpr ⟨hitems, List.forall_mem_singleton.mpr hnumber⟩
    · exact sameData_table (.refl _) (.swap _ _ _) (by decide)
        (.cons ⟨rfl, hjobs⟩ (.cons ⟨rfl, .leaf _⟩ .nil))
  · intro h
    have htruth : Tree.IsPlain (.list [.bool true]) := .list (List.forall_mem_singleton.mpr (.leaf trivial))
    have hone : Tree.IsPlain (.list [.int 1]) := .list (List.forall_mem_singleton.mpr (.leaf trivial))
    obtain ⟨-, hsame⟩ := (fingerprintText_eq_iff htruth hone _ _).mp h
    cases hsame with
    | list same =>
        obtain ⟨hfirst, -⟩ := List.forall₂_cons.mp same
        nomatch hfirst

end DeployTrace
