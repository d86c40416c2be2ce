import CallFolding.Proofs.Ordering
import Mathlib.Algebra.Order.Field.Power
import Mathlib.Tactic.Linarith

/-!
Rounding to nearest.

What rounding should do is said without bit patterns: among all numbers with a significand of
`precision` bits, `BinaryFormat.IsNearest` picks the one next to a rational, and of two the one with
an even significand.

Magnitudes list the same numbers in increasing order, so what rounds to one of them is an interval
between two halfway points: its `Cell`. The ends belong to the cell exactly when the magnitude is
even. Cells are convex and follow each other in order; everything later needs only this, and that
`roundMagnitude` finds the cell of its argument.
-/

set_option autoImplicit false

namespace CallFolding

namespace BinaryFormat

variable (f : BinaryFormat)

/-- The numbers that a significand of `precision` bits can hold. Exponents have no upper bound:
a number beyond the largest finite one still counts when the nearest one is looked for. -/
def Represents (q : ℚ) : Prop :=
  ∃ (significand : Nat) (exponent : Int), significand < 2 ^ f.precision ∧
    f.minExponent ≤ exponent ∧ q = significand * 2 ^ exponent

/-- The number `significand * 2 ^ exponent` is the one nearest to `q`; of two as near, it is the one
with an even significand. -/
structure IsNearest (q : ℚ) (significand : Nat) (exponent : Int) : Prop where
  represents : f.Represents (significand * 2 ^ exponent)
  nearest : ∀ r, f.Represents r → |q - significand * 2 ^ exponent| ≤ |q - r|
  even_of_tie : ∀ r, f.Represents r → r ≠ significand * 2 ^ exponent →
    |q - r| = |q - significand * 2 ^ exponent| → significand % 2 = 0

/-! ## Magnitudes

A magnitude is a significand added to a multiple of `leadingOne`. The significand is below twice
`leadingOne`, and at least `leadingOne` unless the multiple is zero. -/

/-- The least significand with its leading one. -/
def leadingOne : Nat :=
  2 ^ (f.precision - 1)

/-- How far the exponent of a magnitude is above the least one. -/
def binade (m : Nat) : Nat :=
  m / f.leadingOne - 1

/-- What is left of a magnitude below its binade, with the leading one. -/
def significand (m : Nat) : Nat :=
  m - f.binade m * f.leadingOne

/-- The weight of the last bit in the binade of a magnitude. -/
def exponent (m : Nat) : Int :=
  f.minExponent + f.binade m

/-- The number with a magnitude, as if the exponent field had no upper bound. -/
def value (m : Nat) : ℚ :=
  f.significand m * 2 ^ f.exponent m

variable {f} {m k : Nat} {q r : ℚ}

theorem leadingOne_pos : 0 < f.leadingOne :=
  Nat.two_pow_pos _

theorem two_mul_leadingOne (hp : 2 ≤ f.precision) : 2 * f.leadingOne = 2 ^ f.precision := by
  rw [leadingOne, ← Nat.pow_succ']
  congr 1
  omega

theorem leadingOne_even (hp : 2 ≤ f.precision) : f.leadingOne % 2 = 0 := by
  have hexp : f.precision - 1 = (f.precision - 2) + 1 := by omega
  rw [leadingOne, hexp, Nat.pow_succ, Nat.mul_mod_left]

theorem binade_mul_le (m : Nat) : f.binade m * f.leadingOne ≤ m := by
  calc f.binade m * f.leadingOne
      ≤ m / f.leadingOne * f.leadingOne := Nat.mul_le_mul_right _ (Nat.sub_le _ _)
    _ ≤ m := Nat.div_mul_le_self _ _

/-- A magnitude is made up of its binade and its significand. -/
theorem binade_mul_add_significand (m : Nat) :
    f.binade m * f.leadingOne + f.significand m = m :=
  Nat.add_sub_of_le (binade_mul_le m)

/-- Above the first binade every significand has the leading one. -/
theorem binade_eq_zero_or (m : Nat) : f.binade m = 0 ∨ f.leadingOne ≤ f.significand m := by
  rcases Nat.eq_zero_or_pos (f.binade m) with hzero | hpos
  · exact .inl hzero
  · have hdiv : f.binade m + 1 = m / f.leadingOne := by
      rw [binade] at hpos ⊢
      omega
    have hle : (f.binade m + 1) * f.leadingOne ≤ m := by
      rw [hdiv]
      exact Nat.div_mul_le_self _ _
    rw [Nat.add_mul, Nat.one_mul] at hle
    exact .inr (Nat.le_sub_of_add_le' hle)

/-- A significand has no more than the bits of the format. -/
theorem significand_lt (m : Nat) : f.significand m < 2 * f.leadingOne := by
  have hdiv : m / f.leadingOne < f.binade m + 2 := by
    rw [binade]
    omega
  have hlt : m < (f.binade m + 2) * f.leadingOne := (Nat.div_lt_iff_lt_mul leadingOne_pos).mp hdiv
  have hsum := f.binade_mul_add_significand m
  rw [Nat.add_mul] at hlt
  omega

theorem significand_pos (hm : m ≠ 0) : 0 < f.significand m := by
  have hpos : 0 < f.leadingOne := leadingOne_pos
  have hsum := f.binade_mul_add_significand m
  rcases f.binade_eq_zero_or m with hzero | hle
  · rw [hzero] at hsum
    omega
  · omega

/-- A significand in its binade has the magnitude that the two add up to. The bound is not strict:
twice `leadingOne` is the first significand of the next binade. -/
theorem value_mul_add {b s : Nat} (hb : b = 0 ∨ f.leadingOne ≤ s) (hs : s ≤ 2 * f.leadingOne) :
    f.value (b * f.leadingOne + s) = s * 2 ^ (f.minExponent + b) := by
  have hpos : 0 < f.leadingOne := leadingOne_pos
  have hdiv : (b * f.leadingOne + s) / f.leadingOne = b + s / f.leadingOne := by
    rw [Nat.add_comm, Nat.add_mul_div_right _ _ hpos, Nat.add_comm]
  rcases Nat.lt_or_eq_of_le hs with hlt | rfl
  · have hbinade : f.binade (b * f.leadingOne + s) = b := by
      have hless : s / f.leadingOne < 2 := (Nat.div_lt_iff_lt_mul hpos).mpr hlt
      have hmore : b = 0 ∨ 1 ≤ s / f.leadingOne :=
        hb.imp_right fun h => (Nat.one_le_div_iff hpos).mpr h
      rw [binade, hdiv]
      omega
    rw [value, exponent, significand, hbinade, Nat.add_sub_cancel_left]
  · have hbinade : f.binade (b * f.leadingOne + 2 * f.leadingOne) = b + 1 := by
      rw [binade, hdiv, Nat.mul_div_cancel _ hpos]
      omega
    have hsignificand : f.significand (b * f.leadingOne + 2 * f.leadingOne) = f.leadingOne := by
      rw [significand, hbinade, Nat.add_mul]
      omega
    rw [value, exponent, hsignificand, hbinade]
    push_cast
    rw [← add_assoc, zpow_add_one₀ two_ne_zero]
    ring

/-- The next number is one unit of the last bit away. -/
theorem value_succ (m : Nat) : f.value (m + 1) = f.value m + 2 ^ f.exponent m := by
  have hs := f.significand_lt m
  have hsum : m + 1 = f.binade m * f.leadingOne + (f.significand m + 1) := by
    rw [← Nat.add_assoc, binade_mul_add_significand]
  rw [hsum, value_mul_add ((f.binade_eq_zero_or m).imp_right Nat.le_succ_of_le) hs, value, exponent]
  push_cast
  ring

/-- The larger magnitude is the larger number. -/
theorem value_strictMono : StrictMono f.value := by
  refine strictMono_nat_of_lt_succ fun m => ?_
  rw [value_succ]
  exact lt_add_of_pos_right _ (zpow_pos two_pos _)

theorem value_zero : f.value 0 = 0 := by
  simp [value, significand]

theorem value_pos (hm : m ≠ 0) : 0 < f.value m := by
  rw [← f.value_zero]
  exact value_strictMono (Nat.pos_of_ne_zero hm)

/-- Every magnitude is a number of the format. -/
theorem represents_value (hp : 2 ≤ f.precision) (m : Nat) : f.Represents (f.value m) := by
  refine ⟨f.significand m, f.exponent m, ?_, ?_, rfl⟩
  · rw [← two_mul_leadingOne hp]
    exact f.significand_lt m
  · exact Int.le_add_of_nonneg_right (Int.natCast_nonneg _)

/-- Every number of the format has a magnitude. A significand without its leading one is shifted up
as long as the exponent allows it, by induction on how far that is. -/
theorem exists_eq_value (hp : 2 ≤ f.precision) (h : f.Represents q) : ∃ m, q = f.value m := by
  obtain ⟨s, e, hs, he, rfl⟩ := h
  obtain ⟨b, rfl⟩ := Int.le.dest he
  rw [← two_mul_leadingOne hp] at hs
  induction b generalizing s with
  | zero => exact ⟨0 * f.leadingOne + s, (value_mul_add (.inl rfl) hs.le).symm⟩
  | succ b ih =>
    by_cases hlead : f.leadingOne ≤ s
    · exact ⟨(b + 1) * f.leadingOne + s, (value_mul_add (.inr hlead) hs.le).symm⟩
    · obtain ⟨m, hm⟩ := ih (2 * s) (by omega) (Int.le_add_of_nonneg_right (Int.natCast_nonneg _))
      refine ⟨m, ?_⟩
      rw [← hm]
      push_cast
      rw [← add_assoc, zpow_add_one₀ two_ne_zero]
      ring

/-- A magnitude and its significand are even together. -/
theorem significand_mod_two (hp : 2 ≤ f.precision) (m : Nat) : f.significand m % 2 = m % 2 := by
  have heven : f.binade m * f.leadingOne % 2 = 0 := by
    rw [Nat.mul_mod, leadingOne_even hp, Nat.mul_zero, Nat.zero_mod]
  have hsum := f.binade_mul_add_significand m
  omega

/-! ## Cells -/

/-- Halfway from a number to the next. -/
def boundary (f : BinaryFormat) (m : Nat) : ℚ :=
  (f.value m + f.value (m + 1)) / 2

/-- The rationals that round to a magnitude: those from the boundary below it to its own. A
boundary goes to the even one of its two neighbours. -/
structure Cell (f : BinaryFormat) (m : Nat) (q : ℚ) : Prop where
  above : ∀ k < m, f.boundary k ≤ q
  below : q ≤ f.boundary m
  even : ∀ k, q = f.boundary k → m % 2 = 0

/-- A number is below the boundary above it. -/
theorem value_lt_boundary (m : Nat) : f.value m < f.boundary m := by
  have hlt : f.value m < f.value (m + 1) := value_strictMono (Nat.lt_succ_self m)
  rw [boundary]
  linarith

/-- It is above all the boundaries below it. -/
theorem boundary_lt_value (hk : k < m) : f.boundary k < f.value m := by
  have hlt : f.value k < f.value (k + 1) := value_strictMono (Nat.lt_succ_self k)
  have hle : f.value (k + 1) ≤ f.value m := value_strictMono.monotone hk
  rw [boundary]
  linarith

/-- Halfway to a number further down is not above the boundary. -/
theorem value_add_value_le (hk : k ≤ m) : f.value k + f.value (m + 1) ≤ 2 * f.boundary m := by
  have hle : f.value k ≤ f.value m := value_strictMono.monotone hk
  rw [boundary]
  linarith

/-- Halfway to a number further up is not below it. -/
theorem le_value_add_value (hk : m < k) : 2 * f.boundary m ≤ f.value m + f.value k := by
  have hle : f.value (m + 1) ≤ f.value k := value_strictMono.monotone hk
  rw [boundary]
  linarith

/-- The boundaries lie in the order of the numbers between them. -/
theorem boundary_strictMono : StrictMono f.boundary :=
  fun _ _ h => (boundary_lt_value h).trans (value_lt_boundary _)

/-- A boundary is half a unit above its number. -/
theorem boundary_eq (m : Nat) : f.boundary m = f.value m + 2 ^ f.exponent m / 2 := by
  rw [boundary, value_succ]
  ring

/-- A boundary in a binade and a significand of it. -/
theorem boundary_mul_add {b s : Nat} (hb : b = 0 ∨ f.leadingOne ≤ s) (hs : s < 2 * f.leadingOne) :
    f.boundary (b * f.leadingOne + s) = (s + 1 / 2) * 2 ^ (f.minExponent + b) := by
  rw [boundary, Nat.add_assoc, value_mul_add hb hs.le,
    value_mul_add (hb.imp_right Nat.le_succ_of_le) hs]
  push_cast
  ring

/-- The magnitude below is in the same binade, unless `s` is the first significand of one. -/
theorem eq_succ_or_first {b s j : Nat} (hb : b = 0 ∨ f.leadingOne ≤ s)
    (hj : j + 1 = b * f.leadingOne + s) :
    (∃ t, s = t + 1 ∧ (b = 0 ∨ f.leadingOne ≤ t)) ∨ (s = f.leadingOne ∧ b ≠ 0) := by
  have hpos : 0 < f.leadingOne := leadingOne_pos
  by_cases hzero : b = 0
  · subst hzero
    exact .inl ⟨j, by omega, .inl rfl⟩
  · have hle := hb.resolve_left hzero
    rcases Nat.eq_or_lt_of_le hle with heq | hless
    · exact .inr ⟨heq.symm, hzero⟩
    · exact .inl ⟨s - 1, by omega, .inr (by omega)⟩

/-- The boundary below a number is half a unit away, or a quarter of one if a binade begins with
the number. -/
theorem boundary_pred (hm : m ≠ 0) :
    f.boundary (m - 1) = (f.significand m -
      if f.significand m = f.leadingOne ∧ f.minExponent < f.exponent m then 1 / 4 else 1 / 2) *
      2 ^ f.exponent m := by
  have hsum : (m - 1) + 1 = f.binade m * f.leadingOne + f.significand m := by
    rw [f.binade_mul_add_significand]
    omega
  have hs := f.significand_lt m
  have hpos : 0 < f.leadingOne := leadingOne_pos
  rw [exponent]
  rcases eq_succ_or_first (f.binade_eq_zero_or m) hsum with ⟨t, ht, hb⟩ | ⟨hfirst, hb⟩
  · have hpred : m - 1 = f.binade m * f.leadingOne + t := by omega
    rw [if_neg (by omega), hpred, boundary_mul_add hb (by omega), ht]
    push_cast
    ring
  · obtain ⟨b, hbinade⟩ := Nat.exists_eq_succ_of_ne_zero hb
    -- The number below is the last one of the binade before.
    have hpred : m - 1 = b * f.leadingOne + (2 * f.leadingOne - 1) := by
      rw [hbinade, Nat.succ_mul] at hsum
      omega
    have hlast : ((2 * f.leadingOne - 1 : Nat) : ℚ) = 2 * f.leadingOne - 1 := by
      rw [Nat.cast_sub (by omega)]
      push_cast
      ring
    rw [if_pos ⟨hfirst, by omega⟩, hpred, boundary_mul_add (.inr (by omega)) (by omega),
      hfirst, hbinade, hlast, Nat.cast_succ, ← add_assoc, zpow_add_one₀ two_ne_zero]
    ring

theorem boundary_pos (m : Nat) : 0 < f.boundary m := by
  have hzero : (0 : ℚ) < f.boundary 0 := by
    rw [boundary_eq, value_zero, zero_add]
    exact half_pos (zpow_pos two_pos _)
  exact hzero.trans_le (boundary_strictMono.monotone (Nat.zero_le m))

/-- A number is in its own cell. -/
theorem cell_value (m : Nat) : f.Cell m (f.value m) where
  above _ hk := (boundary_lt_value hk).le
  below := (value_lt_boundary m).le
  even k hk := by
    -- No number is a boundary.
    rcases Nat.lt_or_ge k m with hlt | hge
    · exact absurd hk (boundary_lt_value hlt).ne'
    · have hlt : f.value m < f.boundary k :=
        (value_lt_boundary m).trans_le (boundary_strictMono.monotone hge)
      exact absurd hk hlt.ne

namespace Cell

/-- What rounds to a smaller number is smaller. -/
theorem lt (hq : f.Cell m q) (hr : f.Cell k r) (h : m < k) : q < r := by
  have hle : q ≤ r := hq.below.trans (hr.above m h)
  refine hle.lt_of_ne fun heq => ?_
  -- Otherwise both are the boundary between the two cells, and so are both magnitudes even.
  have hbound : q = f.boundary m := hq.below.antisymm ((hr.above m h).trans_eq heq.symm)
  have hm := hq.even m hbound
  have hk := hr.even m (heq ▸ hbound)
  have hnext : f.boundary (m + 1) ≤ f.boundary m := by
    rw [← hbound, heq]
    exact hr.above (m + 1) (by omega)
  exact absurd hnext (not_le.mpr (boundary_strictMono (Nat.lt_succ_self m)))

/-- A rational rounds to one number only. -/
theorem unique (hm : f.Cell m q) (hk : f.Cell k q) : m = k := by
  rcases Nat.lt_trichotomy m k with h | h | h
  · exact absurd (hm.lt hk h) (lt_irrefl q)
  · exact h
  · exact absurd (hk.lt hm h) (lt_irrefl q)

theorem convex {s : ℚ} (hq : f.Cell m q) (hr : f.Cell m r) (hqs : q ≤ s) (hsr : s ≤ r) :
    f.Cell m s where
  above k hk := (hq.above k hk).trans hqs
  below := hsr.trans hr.below
  even k hk := by
    rcases Nat.lt_or_ge k m with hlt | hge
    · exact hq.even k ((hqs.trans_eq hk).antisymm (hq.above k hlt))
    · have hle : r ≤ f.boundary k := hr.below.trans (boundary_strictMono.monotone hge)
      exact hr.even k (hle.antisymm (hk.symm.trans_le hsr))

theorem pos (hq : f.Cell m q) (hm : m ≠ 0) : 0 < q :=
  (boundary_pos 0).trans_le (hq.above 0 (Nat.pos_of_ne_zero hm))

/-- A rational that is rounded up is at most a number exactly if its rounding is. -/
theorem le_value_iff (hq : f.Cell m q) (hup : q ≤ f.value m) : q ≤ f.value k ↔ m ≤ k := by
  constructor
  · intro h
    by_contra hlt
    have hless : f.value k < q := (value_lt_boundary k).trans_le (hq.above k (not_le.mp hlt))
    exact absurd h (not_le.mpr hless)
  · intro h
    exact hup.trans (value_strictMono.monotone h)

/-- What is in a cell is not nearer to a number below, nor to one above. -/
theorem value_add_le (hq : f.Cell m q) (hk : k < m) : f.value k + f.value m ≤ 2 * q := by
  obtain ⟨j, rfl⟩ : ∃ j, m = j + 1 := ⟨m - 1, by omega⟩
  have hbound := hq.above j (Nat.lt_succ_self j)
  linarith [f.value_add_value_le (Nat.le_of_lt_succ hk)]

theorem le_value_add (hq : f.Cell m q) (hk : m < k) : 2 * q ≤ f.value m + f.value k := by
  have hbound := hq.below
  linarith [f.le_value_add_value hk]

/-- If it is as near to one of them, it is a boundary. -/
theorem exists_boundary (hq : f.Cell m q) (hk : k ≠ m) (htie : 2 * q = f.value k + f.value m) :
    ∃ j, q = f.boundary j := by
  rcases Nat.lt_or_gt_of_ne hk with hlt | hgt
  · obtain ⟨j, rfl⟩ : ∃ j, m = j + 1 := ⟨m - 1, by omega⟩
    refine ⟨j, le_antisymm ?_ (hq.above j (Nat.lt_succ_self j))⟩
    linarith [f.value_add_value_le (Nat.le_of_lt_succ hlt)]
  · refine ⟨m, le_antisymm hq.below ?_⟩
    linarith [f.le_value_add_value hgt]

/-- **What is in a cell is nearest to the number of the cell.** -/
theorem isNearest (hp : 2 ≤ f.precision) (hq : f.Cell m q) :
    f.IsNearest q (f.significand m) (f.exponent m) where
  represents := represents_value hp m
  nearest r hr := by
    obtain ⟨k, rfl⟩ := exists_eq_value hp hr
    change |q - f.value m| ≤ |q - f.value k|
    rcases Nat.lt_trichotomy k m with hlt | rfl | hgt
    · have hsum := hq.value_add_le hlt
      have hless : f.value k < f.value m := value_strictMono hlt
      rw [abs_of_nonneg (by linarith : 0 ≤ q - f.value k), abs_le]
      constructor <;> linarith
    · exact le_refl _
    · have hsum := hq.le_value_add hgt
      have hless : f.value m < f.value k := value_strictMono hgt
      rw [abs_of_nonpos (by linarith : q - f.value k ≤ 0), abs_le]
      constructor <;> linarith
  even_of_tie r hr hne htie := by
    obtain ⟨k, rfl⟩ := exists_eq_value hp hr
    change f.value k ≠ f.value m at hne
    change |q - f.value k| = |q - f.value m| at htie
    rw [significand_mod_two hp]
    -- At the same distance on the same side it would be the same number.
    rcases abs_eq_abs.mp htie with hsame | hother
    · exact absurd (sub_right_injective hsame) hne
    · obtain ⟨j, hj⟩ := hq.exists_boundary (fun h => hne (congrArg f.value h)) (by linarith)
      exact hq.even j hj

end Cell

/-- A cell is known by its own boundary and the one below it. -/
theorem cell_of_boundaries
    (hlow : ∀ j, j + 1 = m → f.boundary j ≤ q ∧ (q = f.boundary j → m % 2 = 0))
    (hhigh : q ≤ f.boundary m) (heven : q = f.boundary m → m % 2 = 0) : f.Cell m q where
  above k hk := by
    obtain ⟨j, rfl⟩ : ∃ j, m = j + 1 := ⟨m - 1, by omega⟩
    exact (boundary_strictMono.monotone (Nat.le_of_lt_succ hk)).trans (hlow j rfl).1
  below := hhigh
  even k hk := by
    rcases Nat.lt_or_ge k m with hlt | hge
    · obtain ⟨j, rfl⟩ : ∃ j, m = j + 1 := ⟨m - 1, by omega⟩
      have hle : j ≤ k := boundary_strictMono.le_iff_le.mp ((hlow j rfl).1.trans_eq hk)
      obtain rfl : k = j := by omega
      exact (hlow k rfl).2 hk
    · have hle : k ≤ m := boundary_strictMono.le_iff_le.mp (hk.symm.trans_le hhigh)
      obtain rfl : k = m := by omega
      exact heven hk

/-- The cell of an even magnitude has both its ends. -/
theorem cell_iff_of_even (hm : m ≠ 0) (heven : m % 2 = 0) :
    f.Cell m q ↔ f.boundary (m - 1) ≤ q ∧ q ≤ f.boundary m := by
  constructor
  · intro h
    exact ⟨h.above _ (Nat.sub_one_lt hm), h.below⟩
  · rintro ⟨hlow, hhigh⟩
    refine cell_of_boundaries ?_ hhigh fun _ => heven
    rintro j rfl
    exact ⟨hlow, fun _ => heven⟩

/-- The cell of an odd magnitude has neither of its ends. -/
theorem cell_iff_of_odd (hm : m ≠ 0) (hodd : ¬ m % 2 = 0) :
    f.Cell m q ↔ f.boundary (m - 1) < q ∧ q < f.boundary m := by
  constructor
  · intro h
    refine ⟨(h.above _ (Nat.sub_one_lt hm)).lt_of_ne ?_, h.below.lt_of_ne ?_⟩
    · intro heq
      exact hodd (h.even _ heq.symm)
    · intro heq
      exact hodd (h.even _ heq)
  · rintro ⟨hlow, hhigh⟩
    refine cell_of_boundaries ?_ hhigh.le fun heq => absurd heq hhigh.ne
    rintro j rfl
    exact ⟨hlow.le, fun heq => absurd heq hlow.ne'⟩

/-! ## Rounding in a binade

A rational is counted in units of the last bit, and `s` is an integer next to it. Together with the
binade this integer gives the cell. It may be one more than the largest significand, and then the
cell is the first one of the next binade. -/

section Units

variable {b s : Nat} {units : ℚ}

/-- An integer at least half a unit below gives a boundary that is not below, and a tie on one side
is a tie on the other. -/
theorem units_le_boundary (hb : b = 0 ∨ f.leadingOne ≤ s) (hlt : units < 2 * f.leadingOne)
    (hs : s ≤ 2 * f.leadingOne) (hhigh : units ≤ s + 1 / 2) :
    units * 2 ^ (f.minExponent + b) ≤ f.boundary (b * f.leadingOne + s) ∧
      (units * 2 ^ (f.minExponent + b) = f.boundary (b * f.leadingOne + s) →
        units = s + 1 / 2) := by
  have hunit : (0 : ℚ) < 2 ^ (f.minExponent + b) := zpow_pos two_pos _
  rcases Nat.lt_or_eq_of_le hs with hinner | hlast
  · rw [boundary_mul_add hb hinner]
    exact ⟨mul_le_mul_of_nonneg_right hhigh hunit.le, fun h => mul_right_cancel₀ hunit.ne' h⟩
  -- At the end of the binade the boundary belongs to the next one, but the rational stays below
  -- even the number.
  · have hless : units * 2 ^ (f.minExponent + b) < f.value (b * f.leadingOne + s) := by
      rw [value_mul_add hb hs, hlast]
      push_cast
      exact mul_lt_mul_of_pos_right hlt hunit
    have hbound := hless.trans (value_lt_boundary _)
    exact ⟨hbound.le, fun h => absurd h hbound.ne⟩

/-- The same from below, where the boundary is that of the magnitude before. -/
theorem boundary_le_units {j : Nat} (hb : b = 0 ∨ (f.leadingOne : ℚ) ≤ units)
    (hbs : b = 0 ∨ f.leadingOne ≤ s) (hs : s ≤ 2 * f.leadingOne) (hlow : (s : ℚ) - 1 / 2 ≤ units)
    (hj : j + 1 = b * f.leadingOne + s) :
    f.boundary j ≤ units * 2 ^ (f.minExponent + b) ∧
      (units * 2 ^ (f.minExponent + b) = f.boundary j → units = s - 1 / 2) := by
  have hunit : (0 : ℚ) < 2 ^ (f.minExponent + b) := zpow_pos two_pos _
  rcases eq_succ_or_first hbs hj with ⟨t, rfl, ht⟩ | ⟨hfirst, hb'⟩
  · obtain rfl : j = b * f.leadingOne + t := by omega
    have hboundary : f.boundary (b * f.leadingOne + t) =
        ((t + 1 : Nat) - 1 / 2) * 2 ^ (f.minExponent + b) := by
      rw [boundary_mul_add ht hs]
      push_cast
      ring
    rw [hboundary]
    exact ⟨mul_le_mul_of_nonneg_right hlow hunit.le, fun h => mul_right_cancel₀ hunit.ne' h⟩
  · -- Below the first number of a binade the boundary is nearer, but the rational is above both.
    have hle : f.value (b * f.leadingOne + s) ≤ units * 2 ^ (f.minExponent + b) := by
      rw [value_mul_add hbs hs, hfirst]
      exact mul_le_mul_of_nonneg_right (hb.resolve_left hb') hunit.le
    have hless := (boundary_lt_value ((Nat.lt_succ_self j).trans_eq hj)).trans_le hle
    exact ⟨hless.le, fun h => absurd h hless.ne'⟩

/-- An integer within half a unit, even if it is a tie, gives the cell. -/
theorem cell_of_units (hp : 2 ≤ f.precision) (hb : b = 0 ∨ (f.leadingOne : ℚ) ≤ units)
    (hlt : units < 2 * f.leadingOne) (hlow : (s : ℚ) - 1 / 2 ≤ units) (hhigh : units ≤ s + 1 / 2)
    (heven : units = s - 1 / 2 ∨ units = s + 1 / 2 → s % 2 = 0) :
    f.Cell (b * f.leadingOne + s) (units * 2 ^ (f.minExponent + b)) := by
  have hs : s ≤ 2 * f.leadingOne := by
    have hcast : (s : ℚ) < (2 * f.leadingOne + 1 : Nat) := by
      push_cast
      linarith
    exact Nat.le_of_lt_succ (Nat.cast_lt.mp hcast)
  have hbs : b = 0 ∨ f.leadingOne ≤ s := by
    refine hb.imp_right fun hle => ?_
    have hcast : (f.leadingOne : ℚ) < (s + 1 : Nat) := by
      push_cast
      linarith
    exact Nat.le_of_lt_succ (Nat.cast_lt.mp hcast)
  -- Binades start with even magnitudes, so the magnitude is even where the integer is.
  have hmod : (b * f.leadingOne + s) % 2 = s % 2 := by
    rw [Nat.add_mod, Nat.mul_mod, leadingOne_even hp, Nat.mul_zero, Nat.zero_mod, Nat.zero_add,
      Nat.mod_mod]
  rw [← hmod] at heven
  obtain ⟨hbelow, htop⟩ := units_le_boundary hbs hlt hs hhigh
  refine cell_of_boundaries (fun j hj => ?_) hbelow fun h => heven (.inr (htop h))
  obtain ⟨habove, hbottom⟩ := boundary_le_units hb hbs hs hlow hj
  exact ⟨habove, fun h => heven (.inl (hbottom h))⟩

end Units

end BinaryFormat

/-! ## The rounding of a fraction -/

namespace Binary

variable {f : BinaryFormat} {x : Binary f} {n d m : Nat}

/-- Shifting one side of a fraction multiplies it by a power of two. -/
theorem shiftLeft_div_shiftLeft (n d : Nat) (e : Int) :
    ((n <<< (-e).toNat : Nat) : ℚ) / (d <<< e.toNat : Nat) = n / d / 2 ^ e := by
  obtain ⟨k, rfl | rfl⟩ := Int.eq_nat_or_neg e
  · simp [Nat.shiftLeft_eq, div_div]
  · simp [Nat.shiftLeft_eq, div_eq_mul_inv, mul_right_comm]

/-- Shifting compares a fraction with a power of two. -/
theorem shiftLeft_le_shiftLeft_iff (hd : d ≠ 0) (e : Int) :
    d <<< e.toNat ≤ n <<< (-e).toNat ↔ (2 : ℚ) ^ e ≤ n / d := by
  have hpos : (0 : ℚ) < (d <<< e.toNat : Nat) := by
    rw [Nat.cast_pos, Nat.shiftLeft_eq]
    exact Nat.mul_pos (Nat.pos_of_ne_zero hd) (Nat.two_pow_pos _)
  rw [← Nat.cast_le (α := ℚ), ← one_le_div hpos, shiftLeft_div_shiftLeft,
    one_le_div (zpow_pos two_pos e)]

/-- The logarithms of the two sides leave two exponents, and the comparison tells which it is. -/
theorem leadingExponent_spec (hn : n ≠ 0) (hd : d ≠ 0) :
    (2 : ℚ) ^ leadingExponent n d ≤ n / d ∧ (n / d : ℚ) < 2 ^ (leadingExponent n d + 1) := by
  have hdpos : (0 : ℚ) < d := Nat.cast_pos.mpr (Nat.pos_of_ne_zero hd)
  have hnlow : (2 : ℚ) ^ (n.log2 : Int) ≤ n := by exact_mod_cast Nat.log2_self_le hn
  have hnhigh : (n : ℚ) < 2 ^ (n.log2 + 1 : Int) := by exact_mod_cast Nat.lt_log2_self
  have hdlow : (2 : ℚ) ^ (d.log2 : Int) ≤ d := by exact_mod_cast Nat.log2_self_le hd
  have hdhigh : (d : ℚ) < 2 ^ (d.log2 + 1 : Int) := by exact_mod_cast Nat.lt_log2_self
  have hless : (n / d : ℚ) < 2 ^ ((n.log2 : Int) - d.log2 + 1) := by
    rw [div_lt_iff₀ hdpos]
    calc (n : ℚ) < 2 ^ (n.log2 + 1 : Int) := hnhigh
      _ = 2 ^ ((n.log2 : Int) - d.log2 + 1) * 2 ^ (d.log2 : Int) := by
        rw [← zpow_add₀ two_ne_zero]
        congr 1
        omega
      _ ≤ 2 ^ ((n.log2 : Int) - d.log2 + 1) * d :=
        mul_le_mul_of_nonneg_left hdlow (zpow_pos two_pos _).le
  have hmore : (2 : ℚ) ^ ((n.log2 : Int) - d.log2 - 1) ≤ n / d := by
    rw [le_div_iff₀ hdpos]
    calc (2 : ℚ) ^ ((n.log2 : Int) - d.log2 - 1) * d
        ≤ 2 ^ ((n.log2 : Int) - d.log2 - 1) * 2 ^ (d.log2 + 1 : Int) :=
          mul_le_mul_of_nonneg_left hdhigh.le (zpow_pos two_pos _).le
      _ = 2 ^ (n.log2 : Int) := by
        rw [← zpow_add₀ two_ne_zero]
        congr 1
        omega
      _ ≤ n := hnlow
  -- The fraction is within one power of two of the first guess on both sides.
  rw [leadingExponent]
  split
  · rename_i hle
    exact ⟨(shiftLeft_le_shiftLeft_iff hd _).mp hle, hless⟩
  · rename_i hlt
    rw [shiftLeft_le_shiftLeft_iff hd, not_le] at hlt
    exact ⟨hmore, by rwa [Int.sub_add_cancel]⟩

/-- The rounded quotient is within a half, and even if it is a half away. -/
theorem roundQuotient_spec (n : Nat) (hd : d ≠ 0) :
    (roundQuotient n d : ℚ) - 1 / 2 ≤ n / d ∧ (n / d : ℚ) ≤ roundQuotient n d + 1 / 2 ∧
      ((n / d : ℚ) = roundQuotient n d - 1 / 2 ∨ (n / d : ℚ) = roundQuotient n d + 1 / 2 →
        roundQuotient n d % 2 = 0) := by
  have hdpos : (0 : ℚ) < d := Nat.cast_pos.mpr (Nat.pos_of_ne_zero hd)
  -- The part of the quotient after the point, and how it compares with a half.
  obtain ⟨part, hpart⟩ : ∃ part : ℚ, part = (n % d : Nat) / d := ⟨_, rfl⟩
  have hquotient : (n / d : ℚ) = (n / d : Nat) + part := by
    rw [hpart, div_eq_iff hdpos.ne', add_mul, div_mul_cancel₀ _ hdpos.ne']
    exact_mod_cast (Nat.div_add_mod' n d).symm
  have hnonneg : 0 ≤ part := hpart ▸ by positivity
  have hless : part < 1 := by
    rw [hpart, div_lt_one hdpos]
    exact_mod_cast Nat.mod_lt n (Nat.pos_of_ne_zero hd)
  have hhalf : d < 2 * (n % d) ↔ 1 / 2 < part := by
    rw [hpart, div_lt_div_iff₀ two_pos hdpos, ← Nat.cast_lt (α := ℚ)]
    push_cast
    rw [one_mul, mul_comm]
  have htie : 2 * (n % d) = d ↔ part = 1 / 2 := by
    rw [hpart, div_eq_div_iff hdpos.ne' two_ne_zero, ← Nat.cast_inj (R := ℚ)]
    push_cast
    rw [one_mul, mul_comm]
  -- Rounding up leaves a tie to an odd quotient, rounding down to an even one.
  rw [roundQuotient, hquotient]
  split
  · rename_i hup
    rw [hhalf, htie] at hup
    push_cast
    refine ⟨by rcases hup with h | h <;> linarith, by linarith, fun h => ?_⟩
    rcases h with h | h
    · rcases hup with hmore | ⟨-, hodd⟩
      · linarith
      · omega
    · linarith
  · rename_i hdown
    rw [hhalf, htie, not_or, not_and] at hdown
    refine ⟨by linarith, by linarith [not_lt.mp hdown.1], fun h => ?_⟩
    rcases h with h | h
    · linarith
    · have hodd := hdown.2 (by linarith)
      omega

/-- In units of the chosen exponent a fraction fits the significand, and it has a leading one unless
the exponent is the least. -/
theorem units_bounds (hp : 2 ≤ f.precision) (hn : n ≠ 0) (hd : d ≠ 0) {b : Nat}
    (he : max (leadingExponent n d - (f.precision - 1)) f.minExponent = f.minExponent + b) :
    (b = 0 ∨ (f.leadingOne : ℚ) ≤ n / d / 2 ^ (f.minExponent + b)) ∧
      (n / d / 2 ^ (f.minExponent + b) : ℚ) < 2 * f.leadingOne := by
  obtain ⟨hlow, hhigh⟩ := leadingExponent_spec hn hd
  have hunit : (0 : ℚ) < 2 ^ (f.minExponent + b) := zpow_pos two_pos _
  have hlead : (f.leadingOne : ℚ) = 2 ^ ((f.precision : Int) - 1) := by
    rw [BinaryFormat.leadingOne, Nat.cast_pow, Nat.cast_ofNat, ← zpow_natCast]
    congr 1
    omega
  constructor
  · rcases Nat.eq_zero_or_pos b with hzero | hpos
    · exact .inl hzero
    · right
      rw [le_div_iff₀ hunit, hlead, ← zpow_add₀ two_ne_zero]
      refine le_trans (zpow_le_zpow_right₀ one_le_two ?_) hlow
      omega
  · rw [div_lt_iff₀ hunit, hlead, ← zpow_one_add₀ two_ne_zero, ← zpow_add₀ two_ne_zero]
    refine lt_of_lt_of_le hhigh (zpow_le_zpow_right₀ one_le_two ?_)
    omega

/-- **Rounding finds the cell of a fraction**, except that nothing is larger than infinity. -/
theorem exists_cell_roundMagnitude (hp : 2 ≤ f.precision) (n : Nat) (hd : d ≠ 0) :
    ∃ m, f.Cell m (n / d) ∧ roundMagnitude f n d = min m f.infinity := by
  by_cases hn : n = 0
  · refine ⟨0, ?_, by simp [roundMagnitude, hn]⟩
    rw [hn, Nat.cast_zero, zero_div, ← f.value_zero]
    exact BinaryFormat.cell_value 0
  obtain ⟨b, hb⟩ :=
    Int.le.dest (le_max_right (leadingExponent n d - (f.precision - 1)) f.minExponent)
  obtain ⟨hlead, hlt⟩ := units_bounds hp hn hd hb.symm
  rw [roundMagnitude, if_neg hn, ← hb]
  set e := f.minExponent + (b : Int) with he
  have hshift : d <<< e.toNat ≠ 0 := by
    rw [Nat.shiftLeft_eq]
    exact Nat.mul_ne_zero hd (Nat.two_pow_pos _).ne'
  obtain ⟨hlow, hhigh, heven⟩ := roundQuotient_spec (n <<< (-e).toNat) hshift
  rw [shiftLeft_div_shiftLeft] at hlow hhigh heven
  have hcell := BinaryFormat.cell_of_units hp hlead hlt hlow hhigh heven
  rw [div_mul_cancel₀ _ (zpow_pos two_pos e).ne'] at hcell
  refine ⟨_, hcell, ?_⟩
  have hbinade : (e - f.minExponent).toNat = b := by omega
  dsimp only
  rw [hbinade, Nat.shiftLeft_eq b, BinaryFormat.leadingOne]

/-- Whatever is in a cell is rounded to its magnitude. -/
theorem roundMagnitude_of_cell (hp : 2 ≤ f.precision) (hd : d ≠ 0) (h : f.Cell m (n / d)) :
    roundMagnitude f n d = min m f.infinity := by
  obtain ⟨k, hk, hround⟩ := exists_cell_roundMagnitude hp n hd
  rw [hround, hk.unique h]

/-- What is rounded to a finite magnitude was in its cell. -/
theorem cell_of_roundMagnitude (hp : 2 ≤ f.precision) (hd : d ≠ 0) (h : roundMagnitude f n d = m)
    (hm : m < f.infinity) : f.Cell m (n / d) := by
  obtain ⟨k, hk, hround⟩ := exists_cell_roundMagnitude hp n hd
  obtain rfl : m = k := by omega
  exact hk

/-! ## Patterns -/

/-- Unpacking in terms of significands and exponents of magnitudes. -/
theorem unpack_eq (x : Binary f) :
    x.unpack = if x.isNaN then .nan
      else if x.magnitude = f.infinity then .infinite x.isNegative
      else .finite x.isNegative (f.significand x.magnitude) (f.exponent x.magnitude) := by
  have hdiv := Nat.div_add_mod' x.magnitude f.leadingOne
  rw [unpack, Nat.one_shiftLeft]
  change (if x.isNaN then _ else if x.magnitude = f.infinity then _
    else if x.magnitude / f.leadingOne = 0 then
      Unpacked.finite x.isNegative (x.magnitude % f.leadingOne) f.minExponent
    else Unpacked.finite x.isNegative (f.leadingOne + x.magnitude % f.leadingOne)
      (f.minExponent + (x.magnitude / f.leadingOne : Nat) - 1)) = _
  rw [BinaryFormat.significand, BinaryFormat.exponent, BinaryFormat.binade]
  congr 2
  -- An exponent field of zero means no leading one and the least exponent, as in the first binade.
  rcases hfield : x.magnitude / f.leadingOne with _ | b
  · rw [hfield] at hdiv
    rw [if_pos rfl]
    congr 1 <;> omega
  · rw [hfield, Nat.add_mul] at hdiv
    rw [if_neg (Nat.succ_ne_zero b), Nat.add_sub_cancel]
    congr 1 <;> omega

/-- A pattern is packed again from its sign and its magnitude. -/
theorem pack_isNegative_magnitude (x : Binary f) : pack x.isNegative x.magnitude = x := by
  have hbits : (x.isNegative.toNat <<< (f.width - 1)) + x.magnitude = x.bits.toNat := by
    rw [x.toNat_bits, Nat.shiftLeft_eq]
    cases x.isNegative <;> simp
  rw [pack, hbits, BitVec.ofNat_toNat, BitVec.setWidth_eq]

/-- A number is the rounding of everything in its cell. -/
theorem round_of_cell (hp : 2 ≤ f.precision) (hx : x.isNaN = false) (hd : d ≠ 0)
    (h : f.Cell x.magnitude (n / d)) : round x.isNegative n d = x := by
  have hle : x.magnitude ≤ f.infinity := by simpa [isNaN] using hx
  rw [round, roundMagnitude_of_cell hp hd h, min_eq_left hle, pack_isNegative_magnitude]

end Binary

end CallFolding
