import CallFolding.Proofs.Faults
import Mathlib.Data.Int.ModEq

/-!
Integers of a fixed width as residues.

A type of integers is a window of `2 ^ width` neighbouring integers, signed or not. Every integer
has exactly one residue modulo `2 ^ width` in it, so "the value in the range of the type that is
congruent to `n`" names a value (`Window.reduce_eq_iff`).

`Literal.IsResidue` says this of literals. It knows the values of characters and integers and the
windows of their kinds, and nothing of how a literal is written; there is one such literal
(`Literal.IsResidue.unique`). The last section shows that what is written for an integer is its
residue. After that nothing has to look at a width or a sign again.
-/

set_option autoImplicit false

namespace CallFolding

/-! ## Windows -/

/-- A range of `2 ^ width` integers, from the least one on. -/
structure Window where
  width : Nat
  least : Int
deriving DecidableEq

namespace Window

/-- The integers of two's complement. -/
def signed (width : Nat) : Window :=
  ⟨width, -2 ^ (width - 1)⟩

/-- The integers from zero on. -/
def unsigned (width : Nat) : Window :=
  ⟨width, 0⟩

variable {window : Window} {m n : Int}

/-- An integer is in the window. -/
def Holds (window : Window) (n : Int) : Prop :=
  window.least ≤ n ∧ n < window.least + 2 ^ window.width

instance (window : Window) (n : Int) : Decidable (window.Holds n) :=
  inferInstanceAs (Decidable (_ ∧ _))

/-- The integer of the window that is congruent to `n`. -/
def reduce (window : Window) (n : Int) : Int :=
  window.least + (n - window.least) % 2 ^ window.width

theorem holds_reduce (window : Window) (n : Int) : window.Holds (window.reduce n) := by
  have hpos : (0 : Int) < 2 ^ window.width := Int.pow_pos (by decide)
  have hnonneg := Int.emod_nonneg (n - window.least) (Int.ne_of_gt hpos)
  have hlt := Int.emod_lt_of_pos (n - window.least) hpos
  unfold Holds reduce
  omega

theorem reduce_modEq (window : Window) (n : Int) :
    window.reduce n ≡ n [ZMOD 2 ^ window.width] := by
  have hshifted : (n - window.least) % 2 ^ window.width ≡ n - window.least
      [ZMOD 2 ^ window.width] := Int.mod_modEq _ _
  have h := hshifted.add_left window.least
  rw [add_sub_cancel] at h
  exact h

/-- A window is too small for two congruent integers. -/
theorem eq_of_modEq (hm : window.Holds m) (hn : window.Holds n)
    (h : m ≡ n [ZMOD 2 ^ window.width]) : m = n := by
  obtain ⟨hm, hm'⟩ := hm
  obtain ⟨hn, hn'⟩ := hn
  -- The difference is a multiple of the size of the window, and smaller than it.
  have hzero : n - m = 0 := by
    apply Int.eq_zero_of_abs_lt_dvd (Int.modEq_iff_dvd.mp h)
    rw [abs_lt]
    omega
  omega

/-- The reduced integer is the only one in the window with its residue. -/
theorem reduce_eq_iff : window.reduce n = m ↔
    window.Holds m ∧ m ≡ n [ZMOD 2 ^ window.width] := by
  constructor
  · rintro rfl
    exact ⟨window.holds_reduce n, window.reduce_modEq n⟩
  · rintro ⟨hholds, hmod⟩
    exact eq_of_modEq (window.holds_reduce n) hholds ((window.reduce_modEq n).trans hmod.symm)

/-- Without a sign, reducing takes the remainder. -/
theorem reduce_unsigned (width : Nat) (n : Int) : (unsigned width).reduce n = n % 2 ^ width := by
  simp only [reduce, unsigned, sub_zero, zero_add]

/-- With one, it takes the balanced remainder. -/
theorem reduce_signed {width : Nat} (h : width ≠ 0) (n : Int) :
    (signed width).reduce n = n.bmod (2 ^ width) := by
  have hpow : (2 : Int) ^ width = 2 * 2 ^ (width - 1) := by
    rw [← pow_succ', Nat.sub_add_cancel (Nat.one_le_iff_ne_zero.mpr h)]
  have hcast : ((2 ^ width : Nat) : Int) = 2 ^ width := by
    push_cast
    rfl
  have hpos : 0 < 2 ^ width := Nat.two_pow_pos width
  have hle := Int.le_bmod (x := n) hpos
  have hlt := Int.bmod_lt (x := n) hpos
  rw [hcast] at hle hlt
  rw [reduce_eq_iff]
  constructor
  · simp only [Holds, signed]
    omega
  · rw [Int.ModEq, signed, ← hcast]
    exact Int.bmod_emod

/-- What a wider window keeps of an integer is all that a narrower one looks at. -/
theorem modEq_of_le {width width' : Nat} (hle : width ≤ width') (h : m ≡ n [ZMOD 2 ^ width']) :
    m ≡ n [ZMOD 2 ^ width] :=
  h.of_dvd (pow_dvd_pow 2 hle)

end Window

/-! ## Characters and integers -/

/-- The range of a kind of characters or integers. -/
def Kind.window? : Kind → Option Window
  | char => some (.unsigned 16)
  | byte => some (.signed 8)
  | short => some (.signed 16)
  | int => some (.signed 32)
  | long => some (.signed 64)
  | uByte => some (.unsigned 8)
  | uShort => some (.unsigned 16)
  | uInt => some (.unsigned 32)
  | uLong => some (.unsigned 64)
  | _ => none

namespace Literal

/-- The number that a character or an integer stands for. -/
def whole? : Literal → Option Int
  | char u => some u.toNat
  | a => a.integral?.map Prod.snd

/-- The literal of this kind whose value is `n`, reduced into the range of the kind. -/
def IsResidue (value : Literal) (kind : Kind) (n : Int) : Prop :=
  value.kind = kind ∧ ∃ window m, kind.window? = some window ∧ value.whole? = some m ∧
    window.Holds m ∧ m ≡ n [ZMOD 2 ^ window.width]

variable {a b : Literal} {kind : Kind} {m n : Int}

/-- The value of an integer literal is the number it stands for. -/
theorem whole?_of_integral? {k : IntegralKind} (h : a.integral? = some (k, n)) :
    a.whole? = some n := by
  cases a <;> cases h <;> rfl

/-- The values of a kind are all in its range. -/
theorem exists_window_of_whole? (h : a.whole? = some n) :
    ∃ window, a.kind.window? = some window ∧ window.Holds n := by
  cases a with
  | unit | boolean | float | double | string => cases h
  | char v | uByte v | uShort v | uInt v | uLong v =>
    cases h
    refine ⟨_, rfl, ?_⟩
    have hlt := v.toNat_lt
    simp only [Window.Holds, Window.unsigned]
    omega
  | byte v | short v | int v | long v =>
    cases h
    refine ⟨_, rfl, ?_⟩
    have hle := v.le_toInt
    have hlt := v.toInt_lt
    simp only [Window.Holds, Window.signed]
    omega

/-- Within a kind, a literal is known by its value. -/
theorem eq_of_whole? (hkind : a.kind = b.kind) (ha : a.whole? = some n) (hb : b.whole? = some n) :
    a = b := by
  cases a with
  | unit | boolean | float | double | string => cases ha
  | _ v =>
    -- The kinds agree, so both are written by the same constructor, which is injective.
    cases b <;> cases hkind
    have hvalue := Option.some.inj (ha.trans hb.symm)
    congr 1
    simpa [← UInt8.toNat_inj, ← UInt16.toNat_inj, ← UInt32.toNat_inj, ← UInt64.toNat_inj,
      Int8.toInt_inj, Int16.toInt_inj, Int32.toInt_inj, Int64.toInt_inj] using hvalue

namespace IsResidue

/-- Every literal is the residue of its own value. -/
theorem of_whole? (h : a.whole? = some n) : a.IsResidue a.kind n := by
  obtain ⟨window, hwindow, hholds⟩ := exists_window_of_whole? h
  exact ⟨rfl, window, n, hwindow, h, hholds, Int.ModEq.refl n⟩

/-- The value of a residue, in the window of the kind. -/
theorem exists_whole? {window : Window} (hwindow : kind.window? = some window)
    (h : a.IsResidue kind n) :
    ∃ m, a.whole? = some m ∧ window.Holds m ∧ m ≡ n [ZMOD 2 ^ window.width] := by
  obtain ⟨-, window', m, hwindow', hm⟩ := h
  obtain rfl : window = window' := Option.some.inj (hwindow.symm.trans hwindow')
  exact ⟨m, hm⟩

/-- An integer in the range of the kind is its own residue. -/
theorem whole?_eq {window : Window} (hwindow : kind.window? = some window) (hn : window.Holds n)
    (h : a.IsResidue kind n) : a.whole? = some n := by
  obtain ⟨m, hm, hholds, hmod⟩ := h.exists_whole? hwindow
  rw [hm, Window.eq_of_modEq hholds hn hmod]

theorem unique (ha : a.IsResidue kind n) (hb : b.IsResidue kind n) : a = b := by
  obtain ⟨hkind, window, x, hwindow, hx, hxholds, hxmod⟩ := ha
  obtain ⟨y, hy, hyholds, hymod⟩ := hb.exists_whole? hwindow
  obtain rfl : x = y := Window.eq_of_modEq hxholds hyholds (hxmod.trans hymod.symm)
  exact eq_of_whole? (hkind.trans hb.1.symm) hx hy

/-- Congruent integers have the same residue. -/
theorem congr {window : Window} (hwindow : kind.window? = some window)
    (hmod : m ≡ n [ZMOD 2 ^ window.width]) (h : a.IsResidue kind m) : a.IsResidue kind n := by
  obtain ⟨x, hx, hholds, hxmod⟩ := h.exists_whole? hwindow
  exact ⟨h.1, window, x, hwindow, hx, hholds, hxmod.trans hmod⟩

end IsResidue

end Literal

/-! ## Writing residues -/

/-- The literal written for an integer is its residue. -/
theorem IntegralKind.isResidue_literal (kind : IntegralKind) (n : Int) :
    (kind.literal n).IsResidue kind.kind n := by
  cases kind with
  | byte | short | int | long =>
    refine ⟨rfl, _, _, rfl, rfl, ?_⟩
    -- Both sides of the conversion are balanced remainders.
    rw [← Window.reduce_eq_iff, Window.reduce_signed (by decide)]
    simp only [Int8.toInt_ofInt, Int16.toInt_ofInt, Int32.toInt_ofInt, Int64.toInt_ofInt]
    rfl
  | uByte | uShort | uInt | uLong =>
    refine ⟨rfl, _, _, rfl, rfl, ?_⟩
    rw [← Window.reduce_eq_iff, Window.reduce_unsigned]
    simp only [UInt8.ofInt, UInt16.ofInt, UInt32.ofInt, UInt64.ofInt, UInt8.toNat_ofNat',
      UInt16.toNat_ofNat', UInt32.toNat_ofNat', UInt64.toNat_ofNat']
    omega

theorem Literal.isResidue_char (n : Int) : (char (UInt16.ofInt n)).IsResidue .char n := by
  refine ⟨rfl, _, _, rfl, rfl, ?_⟩
  rw [← Window.reduce_eq_iff, Window.reduce_unsigned, UInt16.ofInt, UInt16.toNat_ofNat']
  omega

end CallFolding
