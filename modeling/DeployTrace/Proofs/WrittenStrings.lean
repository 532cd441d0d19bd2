/-
  DeployTrace/Proofs/WrittenStrings.lean --- strings are read back.

  WHAT THIS FILE IS FOR.  A string is written in ASCII: some characters have an escape of two characters,
  all others outside ASCII one of their 16-bit units, and those above U+FFFF have two units.  The reader
  undoes this character by character.  It is shown here that whatever text is written, and whatever
  follows its closing quote, reading gives that text and leaves what follows.

  From this a written string shows its text and where it ends (`string_append_inj`), which needs no
  argument about escapes of its own.
-/
import DeployTrace.Format.Json

set_option autoImplicit false

namespace DeployTrace.Json

open Text

/-! ## Hexadecimal digits -/

theorem hexNumber?_append_singleton {digits : Chars} {c : Char} {n d : Nat}
    (hdigits : hexNumber? digits = some n) (hc : hexValue? c = some d) :
    hexNumber? (digits ++ [c]) = some (16 * n + d) := by
  unfold hexNumber? at hdigits ⊢
  rw [List.foldl_append, hdigits]
  simp [hc]

theorem hexValue?_digitChar : ∀ d < 16, hexValue? (Nat.digitChar d) = some d := by decide

theorem hexNumber?_toDigits (n : Nat) : hexNumber? (Nat.toDigits 16 n) = some n := by
  induction n using Nat.strongRecOn with
  | ind n ih =>
      rw [Nat.toDigits_eq_if (by decide)]
      split
      · rename_i hlt
        have hlast : hexNumber? ([] ++ [Nat.digitChar n]) = some (16 * 0 + n) :=
          hexNumber?_append_singleton rfl (hexValue?_digitChar n hlt)
        simpa using hlast
      · have hlast := hexNumber?_append_singleton (ih (n / 16) (by omega))
          (hexValue?_digitChar (n % 16) (Nat.mod_lt n (by decide)))
        rwa [Nat.div_add_mod] at hlast

/-- Zeros in front change nothing. -/
theorem hexNumber?_hexDigits (width n : Nat) : hexNumber? (hexDigits width n) = some n := by
  have zeros : ∀ count, hexNumber? (List.replicate count '0') = some 0 := by
    intro count
    induction count with
    | zero => rfl
    | succ count ih =>
        rw [List.replicate_succ']
        exact hexNumber?_append_singleton ih (d := 0) (by decide)
  have hdigits := hexNumber?_toDigits n
  unfold hexDigits
  unfold hexNumber? at zeros hdigits ⊢
  rw [List.foldl_append, zeros, hdigits]

theorem length_hexDigits {n : Nat} (h : n < 0x10000) : (hexDigits 4 n).length = 4 := by
  have hlength : (Nat.toDigits 16 n).length ≤ 4 :=
    (Nat.length_toDigits_le_iff (by decide) (by decide)).mpr h
  unfold hexDigits
  simp only [List.length_append, List.length_replicate]
  omega

/-! ## One character -/

/-- A unit that is half of no pair stands for its character. -/
theorem readEscapedUnit_single {n : Nat} (hlow : ¬ (0xD800 ≤ n ∧ n < 0xDC00)) (hunit : n < 0x10000)
    (rest : Chars) : readEscapedUnit (hexDigits 4 n ++ rest) = some (Char.ofNat n, rest) := by
  have hlength := length_hexDigits hunit
  unfold readEscapedUnit
  rw [List.take_left' hlength, List.drop_left' hlength, hexNumber?_hexDigits]
  simp only [bind, Option.bind, hlength]
  simp [hlow]

/-- Two units that belong together stand for one character. -/
theorem readEscapedUnit_pair {high low : Nat} (hhigh : high < 0x400) (hlow : low < 0x400)
    (rest : Chars) :
    readEscapedUnit (hexDigits 4 (0xD800 + high) ++ (unitEscape (0xDC00 + low) ++ rest)) =
      some (Char.ofNat (0x10000 + high * 0x400 + low), rest) := by
  have hfirst : (hexDigits 4 (0xD800 + high)).length = 4 := length_hexDigits (by omega)
  have hsecond : (hexDigits 4 (0xDC00 + low)).length = 4 := length_hexDigits (by omega)
  have hpair : 0xD800 + high < 0xDC00 ∧ 0xDC00 + low < 0xE000 := by omega
  unfold readEscapedUnit unitEscape
  rw [List.take_left' hfirst, List.drop_left' hfirst, hexNumber?_hexDigits]
  simp only [bind, Option.bind, hfirst, List.cons_append]
  rw [List.take_left' hsecond, List.drop_left' hsecond, hexNumber?_hexDigits]
  simp [hpair]

/-- Reading passes over an escape in one step. -/
theorem readString_unitEscape {n : Nat} {unit : Char} {more after : Chars}
    (h : readEscapedUnit (hexDigits 4 n ++ more) = some (unit, after)) (steps : Nat) (sofar : Chars) :
    readString (steps + 1) sofar (unitEscape n ++ more) = readString steps (unit :: sofar) after := by
  simp [unitEscape, readString, h]

/-- Reading passes over one written character in one step. -/
theorem readString_stringChar (steps : Nat) (sofar : Chars) (c : Char) (rest : Chars) :
    readString (steps + 1) sofar (stringChar c ++ rest) = readString steps (c :: sofar) rest := by
  have ofCode : ∀ {n : Nat}, c.toNat = n → Char.ofNat n = c := by
    rintro n rfl
    exact Char.ofNat_toNat c
  unfold stringChar
  split
  · rename_i hc
    simp only [Bool.or_eq_true, beq_iff_eq] at hc
    rcases hc with rfl | rfl <;> rfl
  rename_i hplain
  simp only [Bool.or_eq_true, beq_iff_eq, not_or] at hplain
  obtain ⟨hquote, hslash⟩ := hplain
  split
  · rename_i hc
    obtain rfl := eq_of_beq hc
    rfl
  split
  · rename_i hc
    obtain rfl := eq_of_beq hc
    rfl
  split
  · rename_i hc
    obtain rfl := eq_of_beq hc
    rfl
  split
  · rename_i hc
    obtain rfl := ofCode (eq_of_beq hc)
    rfl
  split
  · rename_i hc
    obtain rfl := ofCode (eq_of_beq hc)
    rfl
  split
  · simp [readString, hquote, hslash]
  -- What is left is written by its units.
  have hvalid : c.toNat < 0xD800 ∨ (0xDFFF < c.toNat ∧ c.toNat < 0x110000) := c.valid
  split
  · rename_i hunit
    have hread := readEscapedUnit_single (by omega) hunit rest
    rw [Char.ofNat_toNat] at hread
    exact readString_unitEscape hread steps sofar
  · rename_i hunit
    generalize hn : c.toNat - 0x10000 = n
    have hhigh : n / 0x400 < 0x400 := by omega
    have hread := readEscapedUnit_pair hhigh (Nat.mod_lt n (by decide)) rest
    rw [ofCode (n := 0x10000 + n / 0x400 * 0x400 + n % 0x400) (by omega)] at hread
    rw [List.append_assoc]
    exact readString_unitEscape hread steps sofar

/-! ## A whole string -/

/-- Reading a written text and a closing quote gives the text, in as many steps as it has characters and
one more. -/
theorem readString_flatMap (text : Chars) {steps : Nat} (hsteps : text.length < steps) (sofar rest : Chars) :
    readString steps sofar (text.flatMap stringChar ++ '\x22' :: rest) =
      some (String.ofList (sofar.reverse ++ text), rest) := by
  induction text generalizing steps sofar with
  | nil =>
      obtain ⟨steps, rfl⟩ := Nat.exists_eq_succ_of_ne_zero (Nat.ne_of_gt hsteps)
      simp [readString]
  | cons c text ih =>
      obtain ⟨steps, rfl⟩ := Nat.exists_eq_succ_of_ne_zero (Nat.ne_of_gt (Nat.zero_lt_of_lt hsteps))
      rw [List.length_cons] at hsteps
      rw [List.flatMap_cons, List.append_assoc, readString_stringChar, ih (by omega)]
      simp

theorem toList_string (s : String) :
    (string s).toList = '\x22' :: (s.toList.flatMap stringChar ++ ['\x22']) := by
  unfold string
  rw [String.toList_ofList, List.cons_append]

/-- A written string shows its text and where it ends. -/
theorem string_append_inj {s t : String} {rest more : Chars}
    (h : (string s).toList ++ rest = (string t).toList ++ more) : s = t ∧ rest = more := by
  rw [toList_string, toList_string] at h
  simp only [List.cons_append, List.append_assoc, List.nil_append, List.cons.injEq, true_and] at h
  have hslength : s.toList.length < s.toList.length + t.toList.length + 1 := by omega
  have htlength : t.toList.length < s.toList.length + t.toList.length + 1 := by omega
  have hs := readString_flatMap s.toList hslength [] rest
  have ht := readString_flatMap t.toList htlength [] more
  rw [h, ht] at hs
  simpa [eq_comm] using hs

end DeployTrace.Json
