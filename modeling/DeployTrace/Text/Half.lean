/-
  DeployTrace/Text/Half.lean --- halves of surrogate pairs.

  WHAT THIS FILE IS FOR.  An escape in a file may name one half of a surrogate pair, a unit from U+D800 to
  U+DFFF.  A half is no character and has no encoding; a text may hold it all the same, and only when
  the text is to be encoded does it show.  Texts here are made of characters, so the last 2048 private
  characters are given up for the halves: each of them stands for one half and never for itself.
-/

set_option autoImplicit false

namespace DeployTrace.Text

/-- The first half of a pair, as a unit. -/
def firstHalf : Nat := 0xD800

/-- The character that stands for the first half. -/
def firstStandIn : Nat := 0x10F800

/-- The character for a unit that an escape names. -/
def unitChar (unit : Nat) : Char :=
  if firstHalf ≤ unit && unit < 0xE000 then Char.ofNat (firstStandIn + (unit - firstHalf))
  else Char.ofNat unit

/-- The half that a character stands for. -/
def halfOf? (c : Char) : Option Nat :=
  if firstStandIn ≤ c.toNat then some (firstHalf + (c.toNat - firstStandIn)) else none

/-- A half that an escape names is one in the text. -/
theorem halfOf?_unitChar {unit : Nat} (low : firstHalf ≤ unit) (high : unit < 0xE000) :
    halfOf? (unitChar unit) = some unit := by
  have hvalid : (firstStandIn + (unit - firstHalf)).isValidChar := by
    simp only [firstStandIn, firstHalf, Nat.isValidChar] at low ⊢
    omega
  have hnat : (Char.ofNat (firstStandIn + (unit - firstHalf))).toNat = firstStandIn + (unit - firstHalf) := by
    rw [Char.ofNat, dif_pos hvalid]
    rfl
  have hhalf : (firstHalf ≤ unit && unit < 0xE000) = true := by
    simp [low, high]
  unfold unitChar halfOf?
  rw [if_pos hhalf, hnat, if_pos (Nat.le_add_right _ _), Nat.add_sub_cancel_left,
    Nat.add_sub_cancel' low]

end DeployTrace.Text
