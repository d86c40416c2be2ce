import CallFolding.Text.Units
import Mathlib.Algebra.Group.Nat.Defs

/-!
The units of a string determine the string.

A character is read back from its units whatever follows them: a unit that stands for a character
is no surrogate, and of the two units of a pair the first is high and the second low
(`charsOfUnits_charUnits_append`). So reading goes character by character along the string.
-/

set_option autoImplicit false

namespace CallFolding.Text

/-- The high surrogates, as a range of numbers. -/
theorem isHigh_iff {u : UInt16} : isHigh u ↔ 0xD800 ≤ u.toNat ∧ u.toNat < 0xDC00 := by
  simp only [isHigh, Bool.and_eq_true, decide_eq_true_eq, UInt16.le_iff_toNat_le,
    UInt16.lt_iff_toNat_lt]
  rfl

/-- The low surrogates, as the range right above the high ones. -/
theorem isLow_iff {u : UInt16} : isLow u ↔ 0xDC00 ≤ u.toNat ∧ u.toNat < 0xE000 := by
  simp only [isLow, Bool.and_eq_true, decide_eq_true_eq, UInt16.le_iff_toNat_le,
    UInt16.lt_iff_toNat_lt]
  rfl

/-- No character is a surrogate, and none is beyond `U+10FFFF`. -/
theorem toNat_cases (c : Char) :
    c.toNat < 0xD800 ∨ 0xDFFF < c.toNat ∧ c.toNat < 0x110000 :=
  c.valid

/-- A number of at most 16 bits is what its unit holds. -/
theorem toNat_ofNat {n : Nat} (h : n < 0x10000) : (UInt16.ofNat n).toNat = n :=
  UInt16.toNat_ofNat_of_lt' h

/-- A unit that is no high surrogate is read alone, whatever follows it. -/
theorem charsOfUnits_cons {u : UInt16} (h : isHigh u = false) (us : List UInt16) :
    charsOfUnits (u :: us) = ofUnit u :: charsOfUnits us := by
  cases us with
  | nil => rfl
  | cons v us => simp [charsOfUnits, h]

/-- A high surrogate before a low one is read with it, as one character. -/
theorem charsOfUnits_pair {u v : UInt16} (hu : isHigh u) (hv : isLow v) (us : List UInt16) :
    charsOfUnits (u :: v :: us) = ofPair u v :: charsOfUnits us := by
  simp [charsOfUnits, hu, hv]

/-- Reading the units of a character gives the character, and goes on with what follows. -/
theorem charsOfUnits_charUnits_append (c : Char) (us : List UInt16) :
    charsOfUnits (charUnits c ++ us) = c :: charsOfUnits us := by
  have hvalid := toNat_cases c
  by_cases hbasic : c.toNat < 0x10000
  -- Outside the range of surrogates one unit is the character, and is read alone.
  · have hunit := toNat_ofNat hbasic
    have hhigh : isHigh (UInt16.ofNat c.toNat) = false := by
      rw [Bool.eq_false_iff, Ne, isHigh_iff, hunit]
      omega
    have hlow : isLow (UInt16.ofNat c.toNat) = false := by
      rw [Bool.eq_false_iff, Ne, isLow_iff, hunit]
      omega
    rw [charUnits, if_pos hbasic, List.singleton_append, charsOfUnits_cons hhigh, ofUnit, hhigh,
      hlow, hunit, Char.ofNat_toNat]
    rfl
  · have hhigh := toNat_ofNat (n := 0xD800 + (c.toNat - 0x10000) / 0x400) (by omega)
    have hlow := toNat_ofNat (n := 0xDC00 + (c.toNat - 0x10000) % 0x400) (by omega)
    rw [charUnits, if_neg hbasic, List.cons_append, List.singleton_append, charsOfUnits_pair]
    · rw [ofPair, hhigh, hlow]
      -- What was taken apart at `U+10000` and at ten bits is put together again.
      have hsum : 0x10000 + (0xD800 + (c.toNat - 0x10000) / 0x400 - 0xD800) * 0x400 +
          (0xDC00 + (c.toNat - 0x10000) % 0x400 - 0xDC00) = c.toNat := by omega
      rw [hsum, Char.ofNat_toNat]
    · rw [isHigh_iff, hhigh]
      omega
    · rw [isLow_iff, hlow]
      omega

/-- Reading goes character by character along a list of them. -/
theorem charsOfUnits_flatMap (cs : List Char) : charsOfUnits (cs.flatMap charUnits) = cs := by
  induction cs with
  | nil => rfl
  | cons c cs ih => rw [List.flatMap_cons, charsOfUnits_charUnits_append, ih]

/-- A string is read back from its units. -/
theorem ofUnits_units (s : String) : ofUnits (units s) = s := by
  rw [ofUnits, units, charsOfUnits_flatMap, String.ofList_toList]

theorem units_inj {s t : String} : units s = units t ↔ s = t := by
  constructor
  · intro h
    rw [← ofUnits_units s, h, ofUnits_units]
  · rintro rfl
    rfl

end CallFolding.Text
