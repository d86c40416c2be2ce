import CallFolding.Decimal.Shortest
import CallFolding.Proofs.Nearest
import Mathlib.Tactic.FieldSimp

/-!
The shortest decimal of a number.

A rounding interval is the cell of a magnitude, written with integers (`Frames`). The two multiples
of a power of ten next to the number tell whether there is any multiple in its cell, because a cell
is convex. Going down the powers of ten, the search meets one that is at most half a unit of the
last bit before it has used up its tries, and there the multiple above the number is in the cell.
So the search ends in the cell, and no coarser decimal is there.

A consequence decides how a number is written: a power of ten is at most the shortest decimal of a
number exactly if it is rounded to at most that number.
-/

set_option autoImplicit false

namespace CallFolding

/-- The number that a decimal denotes. -/
def Decimal.value (d : Decimal) : ℚ :=
  d.digits * 10 ^ d.exponent

/-- The digits of a quotient, rounded down, tell the powers of ten around it. -/
theorem length_toDigits_div_bounds {a b : Nat} (hb : 0 < b) (hle : b ≤ a) :
    (10 : ℚ) ^ ((Nat.toDigits 10 (a / b)).length - 1 : Int) ≤ a / b ∧
      (a / b : ℚ) < 10 ^ ((Nat.toDigits 10 (a / b)).length : Int) := by
  have hpos : 0 < (Nat.toDigits 10 (a / b)).length := Nat.length_toDigits_pos
  have hlt := (Nat.length_toDigits_le_iff (by decide) hpos).mp (le_refl _)
  obtain ⟨l, hl⟩ := Nat.exists_eq_succ_of_ne_zero hpos.ne'
  have hmore : 10 ^ l ≤ a / b := by
    rcases Nat.eq_zero_or_pos l with rfl | hl'
    · exact Nat.div_pos hle hb
    · rw [← not_lt, ← Nat.length_toDigits_le_iff (by decide) hl']
      omega
  rw [hl, Nat.div_lt_iff_lt_mul hb] at hlt
  rw [Nat.le_div_iff_mul_le hb] at hmore
  have hbpos : (0 : ℚ) < b := Nat.cast_pos.mpr hb
  rw [hl, Nat.cast_succ, add_sub_cancel_right, le_div_iff₀ hbpos, div_lt_iff₀ hbpos]
  exact_mod_cast And.intro hmore hlt

namespace RoundingInterval

variable {f : BinaryFormat} {i : RoundingInterval} {m n d : Nat} {e : Int}

/-! ## The interval of a cell -/

/-- The interval is the cell of a magnitude. -/
structure Frames (i : RoundingInterval) (f : BinaryFormat) (m : Nat) : Prop where
  scale_pos : 0 < i.scale
  low : (i.low / i.scale : ℚ) = f.boundary (m - 1)
  middle : (i.middle / i.scale : ℚ) = f.value m
  high : (i.high / i.scale : ℚ) = f.boundary m
  closed : i.closed = true ↔ m % 2 = 0

/-- Numbers are scaled to quarters of a unit, so that all ends of intervals are integers. -/
theorem shiftLeft_div_scale (n : Nat) (e : Int) :
    ((n <<< (e - 2).toNat : Nat) / (1 <<< (2 - e).toNat : Nat) : ℚ) = n / 4 * 2 ^ e := by
  have hshift := Binary.shiftLeft_div_shiftLeft n 1 (2 - e)
  rw [Int.neg_sub, Nat.cast_one, div_one] at hshift
  rw [hshift, zpow_sub₀ two_ne_zero]
  field_simp
  norm_num

/-- The interval that is computed for a number is its cell. -/
theorem frames_of (hp : 2 ≤ f.precision) (hm : m ≠ 0) :
    (RoundingInterval.of f (f.significand m) (f.exponent m)).Frames f m where
  scale_pos := by
    change 0 < 1 <<< (2 - f.exponent m).toNat
    rw [Nat.one_shiftLeft]
    exact Nat.two_pow_pos _
  low := by
    have hpos := BinaryFormat.significand_pos (f := f) hm
    refine (shiftLeft_div_scale _ _).trans ?_
    rw [BinaryFormat.boundary_pred hm, BinaryFormat.leadingOne, Nat.one_shiftLeft]
    congr 1
    -- The lower half of the cell is shorter where the binade begins.
    split
    · rw [Nat.cast_sub (by omega)]
      push_cast
      ring
    · rw [Nat.cast_sub (by omega)]
      push_cast
      ring
  middle := by
    refine (shiftLeft_div_scale _ _).trans ?_
    rw [BinaryFormat.value]
    push_cast
    ring
  high := by
    refine (shiftLeft_div_scale _ _).trans ?_
    rw [BinaryFormat.boundary_eq, BinaryFormat.value]
    push_cast
    ring
  closed := by
    rw [RoundingInterval.of, decide_eq_true_iff, BinaryFormat.significand_mod_two hp]

/-- **The interval contains what rounds to its number**, and nothing else. -/
theorem contains_iff (h : i.Frames f m) (hm : m ≠ 0) (hd : d ≠ 0) :
    i.contains n d = true ↔ f.Cell m (n / d) := by
  have hdpos : (0 : ℚ) < d := Nat.cast_pos.mpr (Nat.pos_of_ne_zero hd)
  have hscale : (0 : ℚ) < i.scale := Nat.cast_pos.mpr h.scale_pos
  rw [contains]
  by_cases heven : m % 2 = 0
  · rw [if_pos (h.closed.mpr heven), BinaryFormat.cell_iff_of_even hm heven, ← h.low, ← h.high,
      div_le_div_iff₀ hscale hdpos, div_le_div_iff₀ hdpos hscale, Bool.and_eq_true,
      decide_eq_true_iff, decide_eq_true_iff]
    norm_cast
  · have hopen : ¬ i.closed = true := fun hclosed => heven (h.closed.mp hclosed)
    rw [if_neg hopen, BinaryFormat.cell_iff_of_odd hm heven, ← h.low, ← h.high,
      div_lt_div_iff₀ hscale hdpos, div_lt_div_iff₀ hdpos hscale, Bool.and_eq_true,
      decide_eq_true_iff, decide_eq_true_iff]
    norm_cast

/-! ## Multiples of a power of ten -/

/-- A power of ten as a fraction of two natural numbers. -/
theorem ten_pow_div (e : Int) :
    ((Nat.pow 10 e.toNat : Nat) / (Nat.pow 10 (-e).toNat : Nat) : ℚ) = 10 ^ e := by
  obtain ⟨k, rfl | rfl⟩ := Int.eq_nat_or_neg e
  · simp
  · simp

theorem contains_multiple_iff (h : i.Frames f m) (hm : m ≠ 0) (e : Int) (k : Nat) :
    i.contains (k * Nat.pow 10 e.toNat) (Nat.pow 10 (-e).toNat) = true ↔ f.Cell m (k * 10 ^ e) := by
  have hpow : Nat.pow 10 (-e).toNat ≠ 0 := (Nat.pow_pos (by decide)).ne'
  rw [contains_iff h hm hpow, Nat.cast_mul, mul_div_assoc, ten_pow_div]

/-- The multiple of a power of ten at or below the middle. -/
def below (i : RoundingInterval) (e : Int) : Nat :=
  i.middle * Nat.pow 10 (-e).toNat / (i.scale * Nat.pow 10 e.toNat)

/-- The middle is between two neighbouring multiples. -/
theorem below_bounds (h : i.Frames f m) (e : Int) :
    (i.below e : ℚ) * 10 ^ e ≤ f.value m ∧ f.value m < (i.below e + 1 : Nat) * 10 ^ e := by
  have hscale : (0 : ℚ) < i.scale := Nat.cast_pos.mpr h.scale_pos
  have hdown : (0 : ℚ) < (Nat.pow 10 (-e).toNat : Nat) := Nat.cast_pos.mpr (Nat.pow_pos (by decide))
  have hden : 0 < i.scale * Nat.pow 10 e.toNat := Nat.mul_pos h.scale_pos (Nat.pow_pos (by decide))
  rw [← h.middle, ← ten_pow_div, ← mul_div_assoc, ← mul_div_assoc, div_le_div_iff₀ hdown hscale,
    div_lt_div_iff₀ hscale hdown]
  constructor
  · have hle : i.below e * Nat.pow 10 e.toNat * i.scale ≤ i.middle * Nat.pow 10 (-e).toNat := by
      rw [Nat.mul_assoc, Nat.mul_comm _ i.scale]
      exact Nat.div_mul_le_self _ _
    exact_mod_cast hle
  · have hlt : i.middle * Nat.pow 10 (-e).toNat <
        (i.below e + 1) * Nat.pow 10 e.toNat * i.scale := by
      rw [Nat.mul_assoc, Nat.mul_comm _ i.scale, Nat.mul_comm (i.below e + 1)]
      exact Nat.lt_mul_div_succ _ hden
    exact_mod_cast hlt

/-- The two multiples next to the middle are tested. One that passes is taken, and if none does
there is no result. -/
theorem gridPoint?_cases (h : i.Frames f m) (hm : m ≠ 0) (e : Int) :
    (∃ k : Nat, i.gridPoint? e = some k ∧ f.Cell m (k * 10 ^ e)) ∨
      (i.gridPoint? e = none ∧ ¬ f.Cell m (i.below e * 10 ^ e) ∧
        ¬ f.Cell m ((i.below e + 1 : Nat) * 10 ^ e)) := by
  simp only [← contains_multiple_iff h hm]
  unfold gridPoint? below
  dsimp only
  generalize i.middle * Nat.pow 10 (-e).toNat / (i.scale * Nat.pow 10 e.toNat) = lower
  cases hlower : i.contains (lower * Nat.pow 10 e.toNat) (Nat.pow 10 (-e).toNat) with
  | false =>
    cases hupper : i.contains ((lower + 1) * Nat.pow 10 e.toNat) (Nat.pow 10 (-e).toNat) with
    | false => exact .inr ⟨rfl, by simp, by simp⟩
    | true => exact .inl ⟨lower + 1, rfl, hupper⟩
  | true =>
    cases hupper : i.contains ((lower + 1) * Nat.pow 10 e.toNat) (Nat.pow 10 (-e).toNat) with
    | false => exact .inl ⟨lower, rfl, hlower⟩
    | true =>
      refine .inl ⟨_, rfl, ?_⟩
      split
      · exact hlower
      · exact hupper

theorem gridPoint?_eq_some {k : Nat} (h : i.Frames f m) (hm : m ≠ 0)
    (hk : i.gridPoint? e = some k) : f.Cell m (k * 10 ^ e) := by
  rcases gridPoint?_cases h hm e with ⟨l, hl, hcell⟩ | ⟨hnone, -⟩
  · rw [hl, Option.some.injEq] at hk
    rwa [← hk]
  · rw [hnone] at hk
    cases hk

/-- If any multiple is in the cell, then so is one of the two next to the number. -/
theorem gridPoint?_eq_none (h : i.Frames f m) (hm : m ≠ 0) (hnone : i.gridPoint? e = none)
    (k : Nat) : ¬ f.Cell m (k * 10 ^ e) := by
  obtain ⟨hlow, hhigh⟩ := below_bounds h e
  have hten : (0 : ℚ) < 10 ^ e := zpow_pos (by norm_num) e
  rcases gridPoint?_cases h hm e with ⟨l, hl, -⟩ | ⟨-, hlower, hupper⟩
  · rw [hl] at hnone
    cases hnone
  intro hcell
  rcases Nat.lt_or_ge (i.below e) k with hlt | hge
  · have hle : ((i.below e + 1 : Nat) : ℚ) * 10 ^ e ≤ k * 10 ^ e :=
      mul_le_mul_of_nonneg_right (Nat.cast_le.mpr hlt) hten.le
    exact hupper ((BinaryFormat.cell_value m).convex hcell hhigh.le hle)
  · have hle : (k : ℚ) * 10 ^ e ≤ i.below e * 10 ^ e :=
      mul_le_mul_of_nonneg_right (Nat.cast_le.mpr hge) hten.le
    exact hlower (hcell.convex (BinaryFormat.cell_value m) hle hlow)

/-- A power of ten that is at most half a unit of the last bit has a multiple in the cell: the
first one above the number, or the number itself. -/
theorem exists_multiple (h : i.Frames f m)
    (he : (10 : ℚ) ^ e ≤ 2 ^ f.exponent m / 2) : ∃ k : Nat, f.Cell m (k * 10 ^ e) := by
  obtain ⟨hlow, hhigh⟩ := below_bounds h e
  have hboundary := f.boundary_eq m
  push_cast at hhigh
  rcases hlow.eq_or_lt with heq | hlt
  · refine ⟨i.below e, ?_⟩
    rw [heq]
    exact BinaryFormat.cell_value m
  · -- The number is not a multiple itself, so the step to the next one is less than a whole one.
    refine ⟨i.below e + 1, BinaryFormat.cell_of_boundaries ?_ ?_ ?_⟩
    · intro j hj
      have hless := (BinaryFormat.boundary_lt_value (f := f) (by omega : j < m)).trans hhigh
      push_cast
      exact ⟨hless.le, fun heq => absurd heq hless.ne'⟩
    · push_cast
      linarith
    · intro heq
      push_cast at heq
      linarith

/-! ## The search -/

/-- The search stops at the first power of ten that has a multiple in the cell. The induction is on
the tries that are left. -/
theorem search_spec (h : i.Frames f m) (hm : m ≠ 0) {tries : Nat}
    (hex : ∃ t < tries, ∃ k : Nat, f.Cell m (k * 10 ^ (e - (t : Int)))) :
    f.Cell m (i.search tries e).value ∧
      ∀ j, (i.search tries e).exponent < j → j ≤ e → ∀ k : Nat, ¬ f.Cell m (k * 10 ^ j) := by
  induction tries generalizing e with
  | zero =>
    obtain ⟨t, ht, -⟩ := hex
    omega
  | succ tries ih =>
    rw [search]
    cases hpoint : i.gridPoint? e with
    | some k =>
      refine ⟨gridPoint?_eq_some h hm hpoint, fun j hlt hle => ?_⟩
      dsimp only at hlt
      omega
    | none =>
      have hnone := gridPoint?_eq_none h hm hpoint
      -- What was promised is not here, so it is among the tries that are left.
      have hrest : ∃ t < tries, ∃ k : Nat, f.Cell m (k * 10 ^ (e - 1 - (t : Int))) := by
        obtain ⟨t, ht, k, hk⟩ := hex
        cases t with
        | zero => exact absurd (by simpa using hk) (hnone k)
        | succ t =>
          refine ⟨t, by omega, k, ?_⟩
          have hexp : e - 1 - (t : Int) = e - ((t + 1 : Nat) : Int) := by omega
          rwa [hexp]
      obtain ⟨hcell, hcoarse⟩ := ih hrest
      refine ⟨hcell, fun j hlt hle => ?_⟩
      by_cases hj : j = e
      · rw [hj]
        exact hnone
      · exact hcoarse j hlt (by omega)

/-- The search starts at a power of ten between the upper end and ten times that. -/
theorem startExponent_bounds (h : i.Frames f m) :
    f.boundary m ≤ 10 ^ i.startExponent ∧ (10 : ℚ) ^ i.startExponent ≤ 10 * f.boundary m := by
  have hscale : (0 : ℚ) < i.scale := Nat.cast_pos.mpr h.scale_pos
  have hboundary := f.boundary_pos m
  have hhigh : (i.high : ℚ) = f.boundary m * i.scale := by
    rw [← h.high, div_mul_cancel₀ _ hscale.ne']
  have hhighpos : 0 < i.high := by
    rw [← Nat.cast_pos (α := ℚ), hhigh]
    exact mul_pos hboundary hscale
  rw [startExponent]
  -- Below one the digits are those of the inverse.
  split
  · rename_i hle
    obtain ⟨hmore, hless⟩ := length_toDigits_div_bounds h.scale_pos hle
    rw [h.high] at hmore hless
    refine ⟨hless.le, ?_⟩
    rw [zpow_sub_one₀ (by norm_num)] at hmore
    linarith
  · rename_i hlt
    obtain ⟨hmore, hless⟩ := length_toDigits_div_bounds hhighpos (not_le.mp hlt).le
    rw [← inv_div, h.high] at hmore hless
    constructor
    · rw [← neg_sub, zpow_neg]
      exact (le_inv_comm₀ (zpow_pos (by norm_num) _) hboundary).mp hmore
    · rw [zpow_sub₀ (by norm_num), zpow_one, div_eq_mul_inv]
      exact mul_le_mul_of_nonneg_left (inv_le_of_inv_le₀ hboundary hless.le) (by norm_num)

end RoundingInterval

/-! ## The shortest decimal -/

namespace Decimal

variable {f : BinaryFormat} {m k : Nat} {e : Int}

theorem two_pow_le_ten_pow {p : Nat} (hp : 2 ≤ p) : 10 * 2 ^ (p + 1) ≤ 10 ^ p := by
  induction p, hp using Nat.le_induction with
  | base => decide
  | succ p _ ih =>
    rw [Nat.pow_succ 10, Nat.pow_succ 2]
    omega

/-- After `precision` steps down, the power of ten is at most half a unit of the last bit. -/
theorem ten_zpow_le_half_unit (hp : 2 ≤ f.precision) (he : (10 : ℚ) ^ e ≤ 10 * f.boundary m) :
    (10 : ℚ) ^ (e - f.precision) ≤ 2 ^ f.exponent m / 2 := by
  have hunit : (0 : ℚ) < 2 ^ f.exponent m := zpow_pos two_pos _
  have hs : (f.significand m : ℚ) + 1 ≤ 2 ^ f.precision := by
    have hlt := f.significand_lt m
    rw [BinaryFormat.two_mul_leadingOne hp] at hlt
    exact_mod_cast hlt
  have hpow : (10 : ℚ) * 2 ^ (f.precision + 1) ≤ 10 ^ f.precision := by
    exact_mod_cast two_pow_le_ten_pow hp
  rw [zpow_sub₀ (by norm_num), zpow_natCast, div_le_iff₀ (by positivity)]
  calc (10 : ℚ) ^ e
      ≤ 10 * ((f.significand m + 1 / 2) * 2 ^ f.exponent m) := by
        rw [BinaryFormat.boundary_eq, BinaryFormat.value] at he
        linarith
    _ ≤ 10 * (2 ^ f.precision * 2 ^ f.exponent m) := by
        have hle : (f.significand m : ℚ) + 1 / 2 ≤ 2 ^ f.precision := by linarith
        gcongr
    _ = 2 ^ f.exponent m / 2 * (10 * 2 ^ (f.precision + 1)) := by ring
    _ ≤ 2 ^ f.exponent m / 2 * 10 ^ f.precision := by gcongr

/-- A multiple in the cell of a number that is not zero is not zero. -/
theorem one_le_of_cell {j : Int} (hm : m ≠ 0) (hk : f.Cell m (k * 10 ^ j)) : (1 : ℚ) ≤ k := by
  have hpos := hk.pos hm
  have hne : k ≠ 0 := by
    rintro rfl
    simp at hpos
  exact_mod_cast Nat.one_le_iff_ne_zero.mpr hne

/-- **The shortest decimal rounds to its number, and no coarser decimal does.** -/
theorem shortest_spec (hp : 2 ≤ f.precision) (hm : m ≠ 0) :
    f.Cell m (shortest f (f.significand m) (f.exponent m)).value ∧
      ∀ j, (shortest f (f.significand m) (f.exponent m)).exponent < j →
        ∀ k : Nat, ¬ f.Cell m (k * 10 ^ j) := by
  have hframes := RoundingInterval.frames_of hp hm
  obtain ⟨hstart, hten⟩ := RoundingInterval.startExponent_bounds hframes
  have hex := RoundingInterval.exists_multiple hframes (ten_zpow_le_half_unit hp hten)
  obtain ⟨hcell, hcoarse⟩ :=
    RoundingInterval.search_spec hframes hm ⟨f.precision, Nat.lt_succ_self _, hex⟩
  refine ⟨hcell, fun j hlt k hk => ?_⟩
  rcases le_or_gt j (RoundingInterval.of f (f.significand m) (f.exponent m)).startExponent with
    hle | hgt
  · exact hcoarse j hlt hle k hk
  · -- Above the start there is only zero, which is not in the cell.
    have hless : f.boundary m < k * 10 ^ j :=
      calc f.boundary m ≤ 10 ^ _ := hstart
        _ < 10 ^ j := zpow_lt_zpow_right₀ (by norm_num) hgt
        _ ≤ k * 10 ^ j :=
          le_mul_of_one_le_left (zpow_pos (by norm_num) j).le (one_le_of_cell hm hk)
    exact absurd hk.below (not_le.mpr hless)

/-- A power of ten is at most the shortest decimal of a number exactly if it rounds to at most that
number. If it rounds to the number itself, then the decimal is as coarse as the power. -/
theorem ten_zpow_le_shortest_iff (hp : 2 ≤ f.precision) (hm : m ≠ 0) (hk : f.Cell k (10 ^ e)) :
    (10 : ℚ) ^ e ≤ (shortest f (f.significand m) (f.exponent m)).value ↔ k ≤ m := by
  obtain ⟨hcell, hcoarse⟩ := shortest_spec hp hm
  rcases Nat.lt_trichotomy k m with hlt | rfl | hgt
  · exact iff_of_true (hk.lt hcell hlt).le hlt.le
  · refine iff_of_true ?_ (le_refl k)
    set d := shortest f (f.significand k) (f.exponent k)
    have hexp : e ≤ d.exponent := by
      by_contra hlt
      exact hcoarse e (not_le.mp hlt) 1 (by simpa using hk)
    calc (10 : ℚ) ^ e ≤ 10 ^ d.exponent := zpow_le_zpow_right₀ (by norm_num) hexp
      _ ≤ d.value :=
        le_mul_of_one_le_left (zpow_pos (by norm_num) _).le (one_le_of_cell hm hcell)
  · exact iff_of_false (not_le.mpr (hcell.lt hk hgt)) (not_le.mpr hgt)

end Decimal

end CallFolding
