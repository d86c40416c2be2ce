import CallFolding.Proofs.Arithmetic
import CallFolding.Proofs.Units

/-!
`compareTo` is a total order of the values of each kind, and agrees with sameness.

Every kind but the strings is laid out on the integers: `Literal.place` puts a value where it
belongs among its kind, the negative zero just below the positive one and all NaNs in one place
above the rest. Values are the same exactly if they share a place (`Literal.place_eq_iff`), and
comparing them is comparing places (`BinaryOp.applyCompareTo?_eq_gap`), so the order is that of
`ℤ`.

Strings have no such layout. Their difference is taken apart unit by unit (`Text.difference_comm`,
`Text.difference_trans`), and is zero only for strings with the same units, of which there is one.
-/

set_option autoImplicit false

namespace CallFolding

/-! ## Signs of orders -/

section Signs

variable {x y : Int}

theorem orderingSign_compare (x y : Int) :
    orderingSign (compare x y) = if x < y then -1 else if y < x then 1 else 0 := by
  rw [Int.compare_eq_ite_lt]
  split
  · rfl
  · split <;> rfl

/-- Exchanging two integers changes the sign of their order. -/
theorem orderingSign_comm (x y : Int) :
    orderingSign (compare y x) = -orderingSign (compare x y) := by
  rw [orderingSign_compare, orderingSign_compare]
  split <;> split <;> omega

/-- The sign is not positive exactly below or at the second integer. -/
theorem orderingSign_nonpos_iff : orderingSign (compare x y) ≤ 0 ↔ x ≤ y := by
  rw [orderingSign_compare]
  split
  · omega
  · split <;> omega

/-- The sign is zero for equal integers only. -/
theorem orderingSign_eq_zero_iff : orderingSign (compare x y) = 0 ↔ x = y := by
  rw [orderingSign_compare]
  split
  · omega
  · split <;> omega

end Signs

/-- Truth values are ordered as the integers zero and one. -/
theorem compare_bool (x y : Bool) : compare x y = compare (x.toNat : Int) y.toNat := by
  cases x <;> cases y <;> rfl

/-- Units are ordered as the integers they hold. -/
theorem compare_unit (u v : UInt16) : compare u v = compare (u.toNat : Int) v.toNat := by
  have hunit : compare u v = if u < v then .lt else if u = v then .eq else .gt := rfl
  rw [hunit]
  simp only [UInt16.lt_iff_toNat_lt, ← UInt16.toNat_inj]
  rcases Nat.lt_trichotomy u.toNat v.toNat with h | h | h
  · rw [if_pos h, Int.compare_eq_lt.mpr (by omega)]
  · rw [if_neg (by omega), if_pos h, h, Int.compare_eq_eq.mpr rfl]
  · rw [if_neg (by omega), if_neg (by omega), Int.compare_eq_gt.mpr (by omega)]

/-! ## Floating-point numbers -/

namespace Binary

variable {f : BinaryFormat} {x y : Binary f}

/-- A magnitude leaves the sign bit free. -/
theorem magnitude_lt (x : Binary f) : x.magnitude < 2 ^ (f.width - 1) := by
  rw [magnitude, Nat.one_shiftLeft]
  exact Nat.mod_lt _ (Nat.two_pow_pos _)

/-- A pattern is its magnitude, with the sign bit above it. -/
theorem toNat_bits (x : Binary f) :
    x.bits.toNat = if x.isNegative then 2 ^ (f.width - 1) + x.magnitude else x.magnitude := by
  -- A pattern of no bits at all has no sign bit either, and the bound holds for it too.
  have hlt : x.bits.toNat < 2 ^ (f.width - 1) + 2 ^ (f.width - 1) := by
    refine Nat.lt_of_lt_of_le x.bits.isLt ?_
    rw [← Nat.two_mul, ← Nat.pow_succ']
    exact Nat.pow_le_pow_right (by decide) (by omega)
  rw [isNegative, BitVec.msb_eq_decide, magnitude, Nat.one_shiftLeft]
  by_cases hsign : 2 ^ (f.width - 1) ≤ x.bits.toNat
  · rw [decide_eq_true hsign, if_pos rfl, Nat.mod_eq_sub_mod hsign, Nat.mod_eq_of_lt (by omega)]
    omega
  · rw [decide_eq_false hsign, Nat.mod_eq_of_lt (by omega)]
    rfl

/-- Ranks stay below the place of the NaNs. -/
theorem rank_lt (x : Binary f) : x.rank < 2 ^ (f.width - 1) := by
  have hlt : (x.magnitude : Int) < 2 ^ (f.width - 1) := by exact_mod_cast x.magnitude_lt
  rw [rank]
  split <;> omega

/-- The sign bit is the sign of the rank, which is negative for the negative zero too. -/
theorem isNegative_iff (x : Binary f) : x.isNegative ↔ x.rank < 0 := by
  rw [rank]
  by_cases h : x.isNegative
  · rw [if_pos h]
    exact iff_of_true h (by omega)
  · rw [if_neg h]
    exact iff_of_false h (by omega)

/-- A pattern is known by its rank, which tells its sign and its magnitude. -/
theorem rank_inj : x.rank = y.rank ↔ x = y := by
  constructor
  · intro h
    have hsign : x.isNegative = y.isNegative := by
      rw [Bool.eq_iff_iff, x.isNegative_iff, y.isNegative_iff, h]
    -- Once the signs agree, a rank gives away its magnitude.
    have hmagnitude : x.magnitude = y.magnitude := by
      rw [rank, rank, hsign] at h
      split at h <;> omega
    have hbits : x.bits = y.bits := by
      rw [← BitVec.toNat_inj, x.toNat_bits, y.toNat_bits, hsign, hmagnitude]
    exact congrArg Binary.mk hbits
  · rintro rfl
    rfl

/-- The place of a number in the total order. -/
def place (x : Binary f) : Int :=
  if x.isNaN then 2 ^ (f.width - 1) else x.rank

/-- The total order of numbers is the order of their places. -/
theorem totalCompare_eq (x y : Binary f) : x.totalCompare y = compare x.place y.place := by
  have hx := x.rank_lt
  have hy := y.rank_lt
  rw [totalCompare, place, place]
  -- A NaN is above whatever is none, since ranks are below its place.
  cases x.isNaN <;> cases y.isNaN
  · rfl
  · exact (Int.compare_eq_lt.mpr hx).symm
  · exact (Int.compare_eq_gt.mpr hy).symm
  · exact (Int.compare_eq_eq.mpr rfl).symm

/-- Numbers are the same if they share a place. All NaNs do, and the two zeros do not. -/
theorem same_iff : x.same y ↔ x.place = y.place := by
  have hx := x.rank_lt
  have hy := y.rank_lt
  rw [same, Bool.or_eq_true, Bool.and_eq_true, beq_iff_eq, place, place]
  by_cases hnan : x.isNaN
  · by_cases hnan' : y.isNaN
    · rw [if_pos hnan, if_pos hnan']
      simp [hnan, hnan']
    · rw [if_pos hnan, if_neg hnan']
      refine iff_of_false ?_ (by omega)
      rintro (⟨-, h⟩ | rfl)
      · exact hnan' h
      · exact hnan' hnan
  · rw [if_neg hnan]
    by_cases hnan' : y.isNaN
    · rw [if_pos hnan']
      refine iff_of_false ?_ (by omega)
      rintro (⟨h, -⟩ | rfl)
      · exact hnan h
      · exact hnan hnan'
    · rw [if_neg hnan', rank_inj]
      simp [hnan]

end Binary

/-! ## Strings -/

namespace Text

variable {us vs ws : List UInt16}

/-- Against an ended sequence the difference is what is left of the other. -/
theorem difference_nil (us : List UInt16) : difference us [] = us.length := by
  cases us <;> simp [difference]

theorem nil_difference (vs : List UInt16) : difference [] vs = -vs.length := by
  simp [difference]

/-- A unit that both begin with is passed over. -/
theorem difference_cons_self (u : UInt16) (us vs : List UInt16) :
    difference (u :: us) (u :: vs) = difference us vs := by
  rw [difference, if_pos rfl]

/-- The first units that differ decide. -/
theorem difference_cons_of_ne {u v : UInt16} (h : u ≠ v) (us vs : List UInt16) :
    difference (u :: us) (v :: vs) = (u.toNat : Int) - v.toNat := by
  rw [difference, if_neg h]

/-- Exchanging two sequences changes the sign of their difference. -/
theorem difference_comm (us vs : List UInt16) : difference vs us = -difference us vs := by
  induction us generalizing vs with
  | nil => rw [difference_nil, nil_difference, neg_neg]
  | cons u us ih =>
    cases vs with
    | nil => rw [difference_nil, nil_difference]
    | cons v vs =>
      by_cases h : u = v
      · subst h
        rw [difference_cons_self, difference_cons_self, ih]
      · rw [difference_cons_of_ne h, difference_cons_of_ne (Ne.symm h), neg_sub]

/-- Only equal sequences differ by nothing. -/
theorem difference_eq_zero_iff : difference us vs = 0 ↔ us = vs := by
  induction us generalizing vs with
  | nil =>
    rw [nil_difference, neg_eq_zero, Nat.cast_eq_zero, List.length_eq_zero_iff, eq_comm]
  | cons u us ih =>
    cases vs with
    | nil => rw [difference_nil, Nat.cast_eq_zero, List.length_eq_zero_iff]
    | cons v vs =>
      by_cases h : u = v
      · subst h
        rw [difference_cons_self, ih, List.cons_inj_right]
      · rw [difference_cons_of_ne h, sub_eq_zero, Nat.cast_inj, UInt16.toNat_inj]
        -- The units differ, so neither side of the equivalence holds.
        refine iff_of_false h ?_
        intro heq
        exact h (List.cons.inj heq).1

theorem difference_trans (huv : difference us vs ≤ 0) (hvw : difference vs ws ≤ 0) :
    difference us ws ≤ 0 := by
  -- Along the units that all three share. After that the first one to leave goes below the others,
  -- and a sequence that ends is below the rest of any other.
  induction us generalizing vs ws with
  | nil =>
    rw [nil_difference]
    omega
  | cons u us ih =>
    cases vs with
    | nil =>
      rw [difference_nil, List.length_cons] at huv
      omega
    | cons v vs =>
      cases ws with
      | nil =>
        rw [difference_nil, List.length_cons] at hvw
        omega
      | cons w ws =>
        by_cases huv' : u = v
        · subst huv'
          rw [difference_cons_self] at huv
          by_cases huw : u = w
          · subst huw
            rw [difference_cons_self] at hvw ⊢
            exact ih huv hvw
          · rw [difference_cons_of_ne huw] at hvw ⊢
            exact hvw
        · rw [difference_cons_of_ne huv'] at huv
          by_cases hvw' : v = w
          · subst hvw'
            rw [difference_cons_of_ne huv']
            exact huv
          · rw [difference_cons_of_ne hvw'] at hvw
            have hne : u.toNat ≠ v.toNat := mt UInt16.toNat_inj.mp huv'
            have huw : u ≠ w := by
              rintro rfl
              omega
            rw [difference_cons_of_ne huw]
            omega

/-- A difference is no larger than a unit or the length of the first sequence. -/
theorem difference_lt {n : Nat} (hn : 2 ^ 16 ≤ n) (h : us.length < n) : difference us vs < n := by
  induction us generalizing vs with
  | nil =>
    rw [nil_difference]
    omega
  | cons u us ih =>
    rw [List.length_cons] at h
    cases vs with
    | nil =>
      rw [difference_nil, List.length_cons]
      omega
    | cons v vs =>
      by_cases huv : u = v
      · subst huv
        rw [difference_cons_self]
        exact ih (by omega)
      -- Units that differ are less than `2 ^ 16` apart.
      · have hlt := u.toNat_lt
        rw [difference_cons_of_ne huv]
        omega

end Text

/-! ## Literals -/

namespace Literal

/-- The place of a truth value, a character or a number among those of its kind. -/
def place : Literal → Int
  | boolean b => b.toNat
  | float x => x.place
  | double x => x.place
  | a => a.whole?.getD 0

/-- How far apart two literals of one kind are, with the sign of their order. -/
def gap : Literal → Literal → Int
  | string s, string t => Text.difference (Text.units s) (Text.units t)
  | a, b => orderingSign (compare a.place b.place)

variable {s t u : Literal}

theorem exists_string_of_kind (h : s.kind = .string) : ∃ text, s = .string text := by
  cases s with
  | string text => exact ⟨text, rfl⟩
  | _ => cases h

/-- Outside of strings the gap is the sign of the order of two places. -/
theorem gap_eq (h : s.kind ≠ .string) : s.gap t = orderingSign (compare s.place t.place) := by
  cases s with
  | string text => exact absurd rfl h
  | _ => rfl

/-- Outside of floating-point numbers, to be the same is to be equal. -/
theorem same_iff_eq (h : s.kind.isReal = false) : s.same t ↔ s = t := by
  have hsame : s.same t = (s == t) := by
    cases s with
    | float x | double x => cases h
    | _ => rfl
  rw [hsame, beq_iff_eq]

/-- Outside of strings, literals of one kind are the same if they are in the same place. -/
theorem place_eq_iff (hkind : t.kind = s.kind) (hstring : s.kind ≠ .string) :
    s.place = t.place ↔ s.same t := by
  cases s with
  | string text => exact absurd rfl hstring
  | float x | double x =>
    cases t <;> cases hkind
    exact Binary.same_iff.symm
  | unit =>
    cases t <;> cases hkind
    decide
  | boolean x =>
    cases t <;> cases hkind
    rename_i y
    cases x <;> cases y <;> decide
  | _ v =>
    -- Characters and integers, whose place is their value.
    rw [same_iff_eq rfl]
    constructor
    · intro h
      cases t <;> cases hkind
      exact eq_of_whole? rfl rfl (congrArg some h.symm)
    · rintro rfl
      rfl

/-- The gap changes its sign with its operands. -/
theorem gap_comm (hkind : t.kind = s.kind) : t.gap s = -s.gap t := by
  by_cases hstring : s.kind = .string
  · obtain ⟨text, rfl⟩ := exists_string_of_kind hstring
    obtain ⟨text', rfl⟩ := exists_string_of_kind hkind
    exact Text.difference_comm _ _
  · rw [gap_eq hstring, gap_eq (hkind ▸ hstring), orderingSign_comm]

/-- Being at or below is transitive among the literals of one kind. -/
theorem gap_trans (hst : t.kind = s.kind) (hsu : u.kind = s.kind) (h : s.gap t ≤ 0)
    (h' : t.gap u ≤ 0) : s.gap u ≤ 0 := by
  by_cases hstring : s.kind = .string
  · obtain ⟨text, rfl⟩ := exists_string_of_kind hstring
    obtain ⟨text', rfl⟩ := exists_string_of_kind hst
    obtain ⟨text'', rfl⟩ := exists_string_of_kind hsu
    exact Text.difference_trans h h'
  · rw [gap_eq hstring, orderingSign_nonpos_iff] at h ⊢
    rw [gap_eq (hst ▸ hstring), orderingSign_nonpos_iff] at h'
    exact le_trans h h'

/-- There is no gap between literals of one kind exactly if they are the same. -/
theorem gap_eq_zero_iff (hkind : t.kind = s.kind) : s.gap t = 0 ↔ s.same t := by
  by_cases hstring : s.kind = .string
  · obtain ⟨text, rfl⟩ := exists_string_of_kind hstring
    obtain ⟨text', rfl⟩ := exists_string_of_kind hkind
    rw [gap, Text.difference_eq_zero_iff, Text.units_inj, same_iff_eq rfl, string.injEq]
  · rw [gap_eq hstring, orderingSign_eq_zero_iff, place_eq_iff hkind hstring]

/-- Strings are short enough for their lengths to be 32-bit integers. -/
def IsShort (s : Literal) : Prop :=
  ∀ text, s = .string text → Text.length text < 2 ^ 31

theorem isShort_string {text : String} :
    (string text).IsShort ↔ Text.length text < 2 ^ 31 := by
  simp [IsShort]

/-- The sign of an order fits into 32 bits, and so does a difference of short strings. -/
theorem gap_lt (hkind : t.kind = s.kind) (hshort : s.IsShort) : s.gap t < 2 ^ 31 := by
  by_cases hstring : s.kind = .string
  · obtain ⟨text, rfl⟩ := exists_string_of_kind hstring
    obtain ⟨text', rfl⟩ := exists_string_of_kind hkind
    exact Text.difference_lt (by decide) (isShort_string.mp hshort)
  · rw [gap_eq hstring, orderingSign_compare]
    split
    · omega
    · split <;> omega

/-- A gap survives being stored in 32 bits. -/
theorem toInt_gap (hkind : t.kind = s.kind) (hs : s.IsShort) (ht : t.IsShort) :
    (Int32.ofInt (s.gap t)).toInt = s.gap t := by
  have hlt := gap_lt hkind hs
  -- The bound on the gap the other way is the lower bound on this one.
  have hlt' := gap_lt hkind.symm ht
  rw [gap_comm hkind] at hlt'
  exact Int32.toInt_ofInt_of_le (by omega) hlt

end Literal

/-- Where literals of one kind are compared, the result is the gap between them. -/
theorem BinaryOp.applyCompareTo?_eq_gap {s t : Literal} (hkind : t.kind = s.kind)
    (hcompared : s.kind.isPrimitive ∨ s.kind = .string) :
    applyCompareTo? s t = some (.int (Int32.ofInt (s.gap t))) := by
  cases s with
  | unit => simp [Literal.kind, Kind.isPrimitive, Kind.isUnsigned] at hcompared
  | boolean x =>
    cases t <;> cases hkind
    rw [applyCompareTo?, compare_bool]
    rfl
  | char x =>
    cases t <;> cases hkind
    rw [applyCompareTo?, compare_unit]
    rfl
  | float x | double x =>
    cases t <;> cases hkind
    rw [Literal.gap_eq (by simp [Literal.kind]), Literal.place, Literal.place,
      ← Binary.totalCompare_eq]
    rfl
  | _ =>
    -- Strings by definition, and integers because those of one kind always combine.
    cases t <;> cases hkind
    rfl

theorem BinaryOp.ofName?_compareTo : ofName? "compareTo" = some .compareTo :=
  ofName?_eq_some_iff.mpr (by decide)

/-- Comparing literals of one kind gives their gap. -/
theorem dispatch_compareTo {a b : Operand} {s t : Literal} (ha : a.Is s) (hb : b.Is t)
    (hkind : t.kind = s.kind) (hcompared : s.kind.isPrimitive ∨ s.kind = .string) :
    dispatch "compareTo" [a, b] = .ok (.int (Int32.ofInt (s.gap t))) := by
  rw [dispatch_binary BinaryOp.ofName?_compareTo ha hb, BinaryOp.result,
    BinaryOp.applyCompareTo?_eq_gap hkind hcompared]
  rfl

/-! ## Order tests -/

namespace Comparison

/-- The name under which a program calls an order test. -/
def name : Comparison → String
  | less => "less"
  | lessOrEqual => "lessOrEqual"
  | greater => "greater"
  | greaterOrEqual => "greaterOrEqual"

theorem ofName?_name (test : Comparison) : BinaryOp.ofName? test.name = some (.compare test) := by
  rw [BinaryOp.ofName?_eq_some_iff]
  cases test <;> decide

/-- What a test says of a comparison with zero. -/
def Says : Comparison → Int → Prop
  | less, n => n < 0
  | lessOrEqual, n => n ≤ 0
  | greater, n => 0 < n
  | greaterOrEqual, n => 0 ≤ n

/-- A test of an order is one of its sign. -/
theorem holds_iff_says (test : Comparison) (order : Ordering) :
    test.holds order ↔ test.Says (orderingSign order) := by
  cases test <;> cases order <;> simp [holds, Says, orderingSign]

end Comparison

/-- Two values whose order tests and comparison both go by one order. -/
def Compares (s t : Literal) (order : Ordering) : Prop :=
  (∀ test, BinaryOp.applyCompare? test s t = some (.boolean (test.holds order))) ∧
    BinaryOp.applyCompareTo? s t = some (.int (Int32.ofInt (orderingSign order)))

/-- Characters are compared and tested by their units. -/
theorem compares_char (c d : UInt16) : Compares (.char c) (.char d) (compare c d) :=
  ⟨fun _ => rfl, rfl⟩

/-- Integers that are both signed or both unsigned are compared and tested by their values, whatever
their widths. -/
theorem compares_integral {s t : Literal} {k l : IntegralKind} {x y : Int}
    (hs : s.integral? = some (k, x)) (ht : t.integral? = some (l, y))
    (hsigned : k.isSigned = l.isSigned) : Compares s t (compare x y) := by
  have hpair := Literal.numberPair?_of_integral? hs ht
  rw [if_pos hsigned] at hpair
  constructor
  · intro test
    have happly : BinaryOp.applyCompare? test s t = (s.numberPair? t).map fun pair =>
        .boolean (pair.compare?.any test.holds) := by
      cases s <;> cases hs <;> rfl
    rw [happly, hpair]
    rfl
  · have happly : BinaryOp.applyCompareTo? s t = (s.numberPair? t).map fun pair =>
        .int (Int32.ofInt (orderingSign pair.totalCompare)) := by
      cases s <;> cases hs <;> rfl
    rw [happly, hpair]
    rfl

/-- Values that go by one order are tested and compared by name accordingly. -/
theorem Compares.dispatch {a b : Operand} {s t : Literal} {order : Ordering}
    (h : Compares s t order) (ha : a.Is s) (hb : b.Is t) (test : Comparison) :
    dispatch "compareTo" [a, b] = .ok (.int (Int32.ofInt (orderingSign order))) ∧
      dispatch test.name [a, b] = .ok (.boolean (test.holds order)) := by
  constructor
  · rw [dispatch_binary BinaryOp.ofName?_compareTo ha hb, BinaryOp.result, h.2]
    rfl
  · rw [dispatch_binary test.ofName?_name ha hb, BinaryOp.result, h.1]
    rfl

/-- **`compareTo` is a total order that agrees with sameness.** On the values of one kind, strings
being short enough for their lengths, it changes its sign when the operands are exchanged, it is
transitive, and it is zero for what is the same and nothing else. On characters, and on integers
that can be combined, it decides the four order tests. -/
theorem compareTo_total :
    (∀ {a b c : Operand} {s t u : Literal}, a.Is s → b.Is t → c.Is u →
      s.kind.isPrimitive ∨ s.kind = .string → t.kind = s.kind → u.kind = s.kind →
      s.IsShort → t.IsShort → u.IsShort →
      ∃ ab ba bc ac : Int32,
        dispatch "compareTo" [a, b] = .ok (.int ab) ∧ dispatch "compareTo" [b, a] = .ok (.int ba) ∧
        dispatch "compareTo" [b, c] = .ok (.int bc) ∧ dispatch "compareTo" [a, c] = .ok (.int ac) ∧
        ba.toInt = -ab.toInt ∧ (ab.toInt ≤ 0 → bc.toInt ≤ 0 → ac.toInt ≤ 0) ∧
        (ab.toInt = 0 ↔ s.same t)) ∧
    ∀ (test : Comparison) {a b : Operand} {s t : Literal}, a.Is s → b.Is t →
      ((∃ c d, s = .char c ∧ t = .char d) ∨
        ∃ k l x y, s.integral? = some (k, x) ∧ t.integral? = some (l, y) ∧
          k.isSigned = l.isSigned) →
      ∃ (n : Int32) (holds : Bool), dispatch "compareTo" [a, b] = .ok (.int n) ∧
        dispatch test.name [a, b] = .ok (.boolean holds) ∧ (holds ↔ test.Says n.toInt) := by
  constructor
  · intro a b c s t u ha hb hc hcompared hst hsu hs ht hu
    have htu : u.kind = t.kind := hsu.trans hst.symm
    have hcompared' : t.kind.isPrimitive ∨ t.kind = .string := by
      rw [hst]
      exact hcompared
    refine ⟨_, _, _, _, dispatch_compareTo ha hb hst hcompared,
      dispatch_compareTo hb ha hst.symm hcompared', dispatch_compareTo hb hc htu hcompared',
      dispatch_compareTo ha hc hsu hcompared, ?_⟩
    -- Short strings have gaps that fit, so the order of the results is that of the gaps.
    rw [Literal.toInt_gap hst hs ht, Literal.toInt_gap hst.symm ht hs, Literal.toInt_gap htu ht hu,
      Literal.toInt_gap hsu hs hu]
    exact ⟨Literal.gap_comm hst, Literal.gap_trans hst hsu, Literal.gap_eq_zero_iff hst⟩
  · intro test a b s t ha hb hvalues
    obtain ⟨order, horder⟩ : ∃ order, Compares s t order := by
      rcases hvalues with ⟨c, d, rfl, rfl⟩ | ⟨k, l, x, y, hs, ht, hsigned⟩
      · exact ⟨_, compares_char c d⟩
      · exact ⟨_, compares_integral hs ht hsigned⟩
    obtain ⟨hcompare, htest⟩ := horder.dispatch ha hb test
    have hsign : (Int32.ofInt (orderingSign order)).toInt = orderingSign order := by
      cases order <;> decide
    refine ⟨_, _, hcompare, htest, ?_⟩
    rw [hsign]
    exact test.holds_iff_says order

/-- A pair of surrogates comes before the units above them, though its character does not. -/
theorem compareTo_total_surrogates :
    let s : Literal := .string "😀"
    let t : Literal := .string "\uE000"
    let u : Literal := .string "\uFFFF"
    s.kind = .string ∧ s.IsShort ∧ t.IsShort ∧ u.IsShort ∧ s.same t = false ∧
    ∃ ab ba ac : Int32, dispatch "compareTo" [.ofLiteral s, .ofLiteral t] = .ok (.int ab) ∧
      dispatch "compareTo" [.ofLiteral t, .ofLiteral s] = .ok (.int ba) ∧
      dispatch "compareTo" [.ofLiteral s, .ofLiteral u] = .ok (.int ac) ∧
      ab = -1987 ∧ ba.toInt = -ab.toInt ∧ ac.toInt ≤ 0 := by
  intro s t u
  have hs : s.IsShort := Literal.isShort_string.mpr (by decide +kernel)
  have ht : t.IsShort := Literal.isShort_string.mpr (by decide +kernel)
  have hu : u.IsShort := Literal.isShort_string.mpr (by decide +kernel)
  have ha : (Operand.ofLiteral s).Is s := ⟨rfl, rfl⟩
  have hb : (Operand.ofLiteral t).Is t := ⟨rfl, rfl⟩
  have hc : (Operand.ofLiteral u).Is u := ⟨rfl, rfl⟩
  obtain ⟨ab, ba, bc, ac, hab, hba, hbc, hac, hcomm, htrans, -⟩ :=
    compareTo_total.1 ha hb hc (.inr rfl) rfl rfl hs ht hu
  -- The first unit of the pair is below that of the other string, though its character is above.
  have hfirst : ab = -1987 := by
    rw [dispatch_compareTo ha hb rfl (.inr rfl)] at hab
    rw [← Literal.int.inj (Except.ok.inj hab)]
    decide +kernel
  have hsecond : bc = -8191 := by
    rw [dispatch_compareTo hb hc rfl (.inr rfl)] at hbc
    rw [← Literal.int.inj (Except.ok.inj hbc)]
    decide +kernel
  refine ⟨rfl, hs, ht, hu, by decide +kernel, ab, ba, ac, hab, hba, hac, hfirst, hcomm, ?_⟩
  exact htrans (by rw [hfirst]; decide) (by rw [hsecond]; decide)

end CallFolding
