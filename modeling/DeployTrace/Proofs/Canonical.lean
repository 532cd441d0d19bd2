/-
  DeployTrace/Proofs/Canonical.lean --- what a canonical text shows.

  WHAT THIS FILE IS FOR.  A workflow is remembered under the digest of a text that is made of its file
  name, a line end, and its canonical text.  Two things about the canonical text make that text say
  which file and which canonical text it was made of, and whether the workflow is a table: the canonical
  text has only characters that are printed in one column of one line, and it starts with an opening brace
  only when the tree is a table.
-/
import DeployTrace.Detection.Session
import DeployTrace.Proofs.Entries
import DeployTrace.Proofs.Sorting

set_option autoImplicit false

namespace DeployTrace

open Text

/-! ## Characters of numbers -/

/-- Characters that stand in the written form of a number. -/
def isNumberChar (c : Char) : Bool := c.isAlphanum || c == '+' || c == '-' || c == '.'

/-- A text that has no other characters. -/
def IsNumeral (text : Chars) : Prop := ∀ c ∈ text, isNumberChar c = true

theorem IsNumeral.append {a b : Chars} (ha : IsNumeral a) (hb : IsNumeral b) : IsNumeral (a ++ b) := by
  intro c hc
  rcases List.mem_append.mp hc with hc | hc
  · exact ha c hc
  · exact hb c hc

/-- Of a text that is given, having no other characters can be computed. -/
theorem isNumeral_of_all {text : Chars} (h : text.all isNumberChar = true) : IsNumeral text :=
  List.all_eq_true.mp h

theorem IsNumeral.cons {c : Char} {rest : Chars} (hc : isNumberChar c = true) (hrest : IsNumeral rest) :
    IsNumeral (c :: rest) :=
  List.forall_mem_cons.mpr ⟨hc, hrest⟩

theorem isNumeral_nil : IsNumeral [] := fun _ hc => absurd hc List.not_mem_nil

theorem isNumeral_repr (n : Nat) : IsNumeral (Nat.repr n).toList := by
  intro c hc
  rw [Nat.toList_repr] at hc
  have hdigit : c.isDigit = true := Nat.isDigit_of_mem_toDigits (by decide) (by decide) hc
  simp [isNumberChar, Char.isAlphanum, hdigit]

theorem isNumeral_intRepr (i : Int) : IsNumeral (Int.repr i).toList := by
  rw [Int.repr_eq_if]
  split
  · exact isNumeral_repr _
  · rw [String.toList_append]
    exact IsNumeral.append (isNumeral_of_all (by decide)) (isNumeral_repr _)

theorem isNumeral_zeros (n : Nat) : IsNumeral (List.replicate n '0') := by
  intro c hc
  rw [List.eq_of_mem_replicate hc]
  decide

theorem isNumeral_decimal (format : FractionFormat) (d : Decimal) :
    IsNumeral (d.render format).toList := by
  unfold Decimal.render
  simp only
  generalize d.trim 20 = d
  generalize (if (d.digits == 0) = true then (0 : Int)
    else d.exponent + ((Nat.repr d.digits).length : Int) - 1) = leading
  have hdigits : IsNumeral (Nat.repr d.digits).toList := isNumeral_repr d.digits
  split
  · split
    · simp only [String.toList_append, String.toList_ofList]
      refine IsNumeral.append (hdigits.append (isNumeral_zeros _)) ?_
      exact isNumeral_of_all (by decide)
    · rw [String.toList_ofList]
      have hpadded := (isNumeral_zeros ((-d.exponent).toNat + 1 - (Nat.repr d.digits).length)).append hdigits
      refine IsNumeral.append (fun c hc => hpadded c (List.mem_of_mem_take hc)) (.cons (by decide) ?_)
      exact fun c hc => hpadded c (List.mem_of_mem_drop hc)
  · have hfraction : IsNumeral ((Nat.repr d.digits).toList.drop 1) :=
      fun c hc => hdigits c (List.mem_of_mem_drop hc)
    have hsign : IsNumeral (if leading < 0 then "-" else "+").toList := by
      split <;> exact isNumeral_of_all (by decide)
    simp only [String.toList_append, String.toList_ofList]
    refine IsNumeral.append (IsNumeral.append (IsNumeral.append (IsNumeral.append ?_ ?_) ?_) hsign)
      ((isNumeral_zeros _).append (isNumeral_repr _))
    · exact fun c hc => hdigits c (List.mem_of_mem_take hc)
    · split
      · exact isNumeral_nil
      · exact .cons (by decide) hfraction
    · exact isNumeral_of_all (by decide)

/-- The written form of a number is a numeral, also when the number is not finite. -/
theorem isNumeral_number (n : Number) : IsNumeral (Json.number n).toList := by
  cases n with
  | int i => exact isNumeral_intRepr i
  | fraction x =>
      cases x with
      | nan => exact isNumeral_of_all (by decide)
      | infinite negative => cases negative <;> exact isNumeral_of_all (by decide)
      | finite negative size =>
          show IsNumeral (Binary64.render (.finite negative size)).toList
          unfold Binary64.render
          rw [String.toList_append]
          refine IsNumeral.append ?_ (isNumeral_decimal _ _)
          split
          · exact isNumeral_of_all (by decide)
          · exact isNumeral_nil

/-! ## Printed characters -/

/-- Characters from the blank to the tilde. -/
def IsPrintedChar (c : Char) : Prop := 32 ≤ c.toNat ∧ c.toNat < 127

instance (c : Char) : Decidable (IsPrintedChar c) := inferInstanceAs (Decidable (_ ∧ _))

/-- A text of such characters, which is on one line. -/
def IsPrinted (s : String) : Prop := ∀ c ∈ s.toList, IsPrintedChar c

theorem printed_of_all {text : Chars} (h : text.all (fun c => decide (IsPrintedChar c)) = true) :
    ∀ c ∈ text, IsPrintedChar c :=
  fun c hc => of_decide_eq_true (List.all_eq_true.mp h c hc)

-- The test goes along the text: the condition in words could as well be tried at every character there is.
instance (s : String) : Decidable (IsPrinted s) := List.decidableBAll IsPrintedChar s.toList

theorem IsPrinted.newline_notMem {s : String} (h : IsPrinted s) : '\n' ∉ s.toList :=
  fun hmem => absurd (h _ hmem) (by decide)

theorem isPrintedChar_of_isNumberChar {c : Char} (h : isNumberChar c = true) : IsPrintedChar c := by
  simp only [isNumberChar, Bool.or_eq_true, beq_iff_eq, isAlphanum_iff, or_assoc] at h
  unfold IsPrintedChar
  rcases h with h | h | h | rfl | rfl | rfl
  · omega
  · omega
  · omega
  all_goals decide

theorem IsNumeral.isPrinted {text : Chars} (h : IsNumeral text) : ∀ c ∈ text, IsPrintedChar c :=
  fun c hc => isPrintedChar_of_isNumberChar (h c hc)

theorem IsPrinted.append {a b : String} (ha : IsPrinted a) (hb : IsPrinted b) : IsPrinted (a ++ b) := by
  unfold IsPrinted at *
  rw [String.toList_append]
  exact List.forall_mem_append.mpr ⟨ha, hb⟩

theorem isPrinted_intercalate {separator : String} (hseparator : IsPrinted separator)
    {parts : List String} (hparts : ∀ part ∈ parts, IsPrinted part) :
    IsPrinted (separator.intercalate parts) := by
  induction parts with
  | nil =>
      rw [String.intercalate_nil]
      decide
  | cons first rest ih =>
      obtain ⟨hfirst, hrest⟩ := List.forall_mem_cons.mp hparts
      cases rest with
      | nil =>
          rw [String.intercalate_singleton]
          exact hfirst
      | cons second rest =>
          rw [String.intercalate_cons_cons]
          exact (hfirst.append hseparator).append (ih hrest)

/-- Hexadecimal digits are letters and decimal digits. -/
theorem isNumeral_hexDigits (width n : Nat) : IsNumeral (hexDigits width n) := by
  have hdigit : ∀ m < 16, isNumberChar (Nat.digitChar m) = true := by decide
  have hdigits : IsNumeral (Nat.toDigits 16 n) := by
    induction n using Nat.strongRecOn with
    | ind n ih =>
        rw [Nat.toDigits_eq_if (by decide)]
        split
        · rename_i hlt
          exact .cons (hdigit n hlt) isNumeral_nil
        · refine IsNumeral.append (ih (n / 16) (by omega)) (.cons (hdigit (n % 16) ?_) isNumeral_nil)
          exact Nat.mod_lt n (by decide)
  exact (isNumeral_zeros _).append hdigits

theorem isPrinted_unitEscape (n : Nat) : ∀ c ∈ Json.unitEscape n, IsPrintedChar c :=
  List.forall_mem_cons.mpr ⟨by decide, List.forall_mem_cons.mpr ⟨by decide, (isNumeral_hexDigits 4 n).isPrinted⟩⟩

/-- Inside a string every character that is not printed is written as an escape. -/
theorem isPrinted_stringChar (c : Char) : ∀ d ∈ Json.stringChar c, IsPrintedChar d := by
  unfold Json.stringChar
  split
  · rename_i hc
    simp only [Bool.or_eq_true, beq_iff_eq] at hc
    rcases hc with rfl | rfl <;> exact printed_of_all (by decide)
  · iterate 5 (split; · exact printed_of_all (by decide))
    split
    · rename_i hprinted
      intro d hd
      rw [List.mem_singleton.mp hd]
      simpa [IsPrintedChar] using hprinted
    · split
      · exact isPrinted_unitEscape _
      · exact List.forall_mem_append.mpr ⟨isPrinted_unitEscape _, isPrinted_unitEscape _⟩

theorem isPrinted_string (s : String) : IsPrinted (Json.string s) := by
  unfold IsPrinted Json.string
  rw [String.toList_ofList]
  refine List.forall_mem_append.mpr ⟨List.forall_mem_cons.mpr ⟨by decide, ?_⟩, printed_of_all (by decide)⟩
  intro d hd
  obtain ⟨c, -, hd⟩ := List.mem_flatMap.mp hd
  exact isPrinted_stringChar c d hd

theorem isPrinted_scalar (s : Scalar) : IsPrinted (Json.scalar s) := by
  cases s with
  | null => decide
  | bool b => cases b <;> decide
  | number n => exact (isNumeral_number n).isPrinted
  | text s => exact isPrinted_string s

theorem isPrinted_canonicalTable {entries : Entries String}
    (hentries : ∀ entry ∈ entries, IsPrinted entry.2) : IsPrinted (Json.canonicalTable entries) := by
  refine (IsPrinted.append (by decide) (isPrinted_intercalate (by decide) ?_)).append (by decide)
  intro part hpart
  obtain ⟨entry, hentry, rfl⟩ := List.mem_map.mp hpart
  exact ((isPrinted_string entry.1).append (by decide)).append (hentries entry (mem_sortBy.mp hentry))

mutual

/-- A canonical text is printed. -/
theorem isPrinted_canonical : ∀ t : Tree, IsPrinted (Json.canonical t)
  | .leaf s => isPrinted_scalar s
  | .list items => by
      have hparts := isPrinted_canonicalItems items
      unfold Json.canonical
      exact (IsPrinted.append (by decide) (isPrinted_intercalate (by decide) hparts)).append (by decide)
  | .table entries => by
      have hvalues := isPrinted_canonicalEntries entries
      unfold Json.canonical
      exact isPrinted_canonicalTable fun entry hentry =>
        hvalues entry (Entries.mem_of_mem_ofList hentry)

theorem isPrinted_canonicalItems : ∀ items : List Tree, ∀ part ∈ Json.canonicalItems items, IsPrinted part
  | [], _, hpart => absurd hpart (by simp [Json.canonicalItems])
  | t :: rest, part, hpart => by
      unfold Json.canonicalItems at hpart
      rcases List.mem_cons.mp hpart with rfl | hpart
      · exact isPrinted_canonical t
      · exact isPrinted_canonicalItems rest part hpart

theorem isPrinted_canonicalEntries : ∀ entries : List (Scalar × Tree),
    ∀ entry ∈ Json.canonicalEntries entries, IsPrinted entry.2
  | [], _, hentry => absurd hentry (by simp [Json.canonicalEntries])
  | (key, value) :: rest, entry, hentry => by
      unfold Json.canonicalEntries at hentry
      rcases List.mem_cons.mp hentry with rfl | hentry
      · exact isPrinted_canonical value
      · exact isPrinted_canonicalEntries rest entry hentry

end

/-! ## Tables -/

theorem head?_canonical_table (entries : Table) :
    (Json.canonical (.table entries)).toList.head? = some '\x7b' := by
  unfold Json.canonical Json.canonicalTable
  simp [String.toList_append]

theorem head?_scalar_ne_brace (s : Scalar) : (Json.scalar s).toList.head? ≠ some '\x7b' := by
  intro hhead
  have hmem : '\x7b' ∈ (Json.scalar s).toList := List.mem_of_mem_head? hhead
  cases s with
  | null => revert hmem; decide
  | bool b => revert hmem; cases b <;> decide
  | number n => exact absurd (isNumeral_number n _ hmem) (by decide)
  | text s =>
      unfold Json.scalar Json.string at hhead
      simp at hhead

/-- A canonical text that starts with an opening brace is that of a table. -/
theorem isTable_of_canonical_eq {t : Tree} {entries : Table}
    (h : Json.canonical t = Json.canonical (.table entries)) : ∃ own, t = .table own := by
  have hhead : (Json.canonical t).toList.head? = some '\x7b' := by
    rw [h]
    exact head?_canonical_table entries
  cases t with
  | table own => exact ⟨own, rfl⟩
  | leaf s => exact absurd hhead (head?_scalar_ne_brace s)
  | list items =>
      unfold Json.canonical at hhead
      simp [String.toList_append] at hhead

/-! ## The text of a workflow -/

/-- The text of a workflow says which file and which canonical text it was made of: it can be cut only
at its last line end. -/
theorem fingerprintText_inj {v w : Tree} {g f : String} (h : fingerprintText v g = fingerprintText w f) :
    g = f ∧ Json.canonical v = Json.canonical w := by
  have hlists : g.toList ++ '\n' :: (Json.canonical v).toList =
      f.toList ++ '\n' :: (Json.canonical w).toList := by
    have htext := congrArg String.toList h
    simpa [fingerprintText, String.toList_append] using htext
  have hv : '\n' ∉ (Json.canonical v).toList := (isPrinted_canonical v).newline_notMem
  have hw : '\n' ∉ (Json.canonical w).toList := (isPrinted_canonical w).newline_notMem
  rcases List.append_eq_append_iff.mp hlists with ⟨middle, hf, hrest⟩ | ⟨middle, hg, hrest⟩
  · cases middle with
    | nil =>
        simp only [List.append_nil, List.nil_append, List.cons.injEq, true_and] at hf hrest
        exact ⟨String.toList_inj.mp hf.symm, String.toList_inj.mp hrest⟩
    | cons c middle =>
        refine absurd ?_ hv
        simp only [List.cons_append, List.cons.injEq] at hrest
        rw [hrest.2]
        simp
  · cases middle with
    | nil =>
        simp only [List.append_nil, List.nil_append, List.cons.injEq, true_and] at hg hrest
        exact ⟨String.toList_inj.mp hg, String.toList_inj.mp hrest.symm⟩
    | cons c middle =>
        refine absurd ?_ hw
        simp only [List.cons_append, List.cons.injEq] at hrest
        rw [hrest.2]
        simp

end DeployTrace
