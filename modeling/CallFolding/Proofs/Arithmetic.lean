import CallFolding.Proofs.Residue
import Mathlib.Data.Rat.Floor

/-!
Arithmetic and shifts of integers are those of `ℤ`, reduced modulo the width.

The right-hand sides know nothing of the code. `Arith.IsExact` says what the exact result of an
operator is, division by its law (`Truncates`) and not by an algorithm; a shift is a product or a
rounded quotient of a power of two; and `Literal.IsResidue` takes the result into the range of its
kind. What is left to show is that the operation is reached, that it computes this integer, and
that it is written in the right kind.
-/

set_option autoImplicit false

namespace CallFolding

/-- The operand is declared with this kind of integers and holds this one. -/
def Operand.IsInteger (operand : Operand) (kind : IntegralKind) (n : Int) : Prop :=
  operand.type.kind = kind.kind ∧ operand.value.integral? = some (kind, n)

/-- An integer operand is as good as its value. -/
theorem Operand.IsInteger.is {operand : Operand} {kind : IntegralKind} {n : Int}
    (h : operand.IsInteger kind n) : operand.Is operand.value :=
  ⟨by rw [h.1, Literal.kind_of_integral? h.2], rfl⟩

/-! ## Exact results -/

/-- Division toward zero: quotient and remainder give the dividend back, and the remainder is
smaller than the divisor and on the side of zero where the dividend is. -/
structure Truncates (x y quotient remainder : Int) : Prop where
  sum : y * quotient + remainder = x
  small : remainder.natAbs < y.natAbs
  side : 0 ≤ x ∧ 0 ≤ remainder ∨ x ≤ 0 ∧ remainder ≤ 0

/-- Division with the rest on the side of the dividend is division toward zero. -/
theorem truncates_tdiv (x : Int) {y : Int} (h : y ≠ 0) :
    Truncates x y (x.tdiv y) (x.tmod y) where
  sum := Int.mul_tdiv_add_tmod x y
  small := by
    rw [Int.natAbs_tmod]
    exact Nat.mod_lt _ (Int.natAbs_pos.mpr h)
  side := by
    rcases Int.le_total 0 x with hx | hx
    · exact .inl ⟨hx, Int.tmod_nonneg y hx⟩
    -- The rest of a negative dividend is the rest of its opposite, with the sign changed.
    · have hneg := Int.tmod_nonneg y (Int.neg_nonneg_of_nonpos hx)
      rw [Int.neg_tmod] at hneg
      exact .inr ⟨hx, by omega⟩

namespace Arith

/-- The name under which a program calls an operator. -/
def name : Arith → String
  | plus => "plus"
  | minus => "minus"
  | times => "times"
  | div => "div"
  | rem => "rem"

theorem ofName?_name (op : Arith) : BinaryOp.ofName? op.name = some (.arith op) := by
  rw [BinaryOp.ofName?_eq_some_iff]
  cases op <;> decide

/-- Whether `n` is the result of the operator in `ℤ`. -/
def IsExact : Arith → Int → Int → Int → Prop
  | plus, x, y, n => n = x + y
  | minus, x, y, n => n = x - y
  | times, x, y, n => n = x * y
  | div, x, y, n => ∃ remainder, Truncates x y n remainder
  | rem, x, y, n => ∃ quotient, Truncates x y quotient n

/-- An operator computes its exact result, unless it divides by zero. -/
theorem exists_whole (op : Arith) (x : Int) {y : Int} (h : op = .div ∨ op = .rem → y ≠ 0) :
    ∃ n, NumberPair.whole op x y = .ok n ∧ op.IsExact x y n := by
  cases op with
  | plus => exact ⟨x + y, rfl, rfl⟩
  | minus => exact ⟨x - y, rfl, rfl⟩
  | times => exact ⟨x * y, rfl, rfl⟩
  | div =>
    have hy := h (.inl rfl)
    exact ⟨x.tdiv y, if_neg hy, x.tmod y, truncates_tdiv x hy⟩
  | rem =>
    have hy := h (.inr rfl)
    exact ⟨x.tmod y, if_neg hy, x.tdiv y, truncates_tdiv x hy⟩

/-- What an operator gives for integers of one signedness: the residue of the exact result, in the
kind of the same signedness with 64 bits if one of the operands has as many, and 32 bits if not. -/
def Gives (op : Arith) (k l : IntegralKind) (x y : Int) (value : Literal) : Prop :=
  ∃ (kind : IntegralKind) (n : Int), kind.isSigned = k.isSigned ∧
    kind.width = (if k.width = 64 ∨ l.width = 64 then 64 else 32) ∧
    op.IsExact x y n ∧ value.IsResidue kind.kind n

end Arith

/-! ## Combining two integers -/

namespace IntegralKind

theorem isSigned_common (k l : IntegralKind) : (k.common l).isSigned = k.isSigned := by
  unfold common
  cases k.isSigned <;> split <;> rfl

/-- Combining has the larger of the two widths, but no less than 32 bits. -/
theorem width_common (k l : IntegralKind) :
    (k.common l).width = if k.width = 64 ∨ l.width = 64 then 64 else 32 := by
  unfold common
  cases k.isSigned <;> split <;> rfl

end IntegralKind

section Pairs

variable {s t : Literal} {k l : IntegralKind} {x y : Int}

/-- Two integers are combined exactly if they are signed alike. -/
theorem Literal.numberPair?_of_integral? (hs : s.integral? = some (k, x))
    (ht : t.integral? = some (l, y)) : s.numberPair? t =
      if k.isSigned = l.isSigned then some (.integral (k.common l) x y) else none := by
  rw [numberPair?, number?_eq_integral_iff.mpr hs, number?_eq_integral_iff.mpr ht]
  rfl

/-- Strings and characters, which have rules of their own, are no integers. -/
theorem BinaryOp.applyArith_of_integral? (op : Arith) (hs : s.integral? = some (k, x)) :
    applyArith op s t = match s.numberPair? t with
      | some pair => (pair.arith op).map some
      | none => .ok none := by
  cases s <;> cases hs <;> cases op <;> rfl

/-- Arithmetic of two integers: the exact integer, written in their common kind. -/
theorem BinaryOp.result_arith (op : Arith) (hs : s.integral? = some (k, x))
    (ht : t.integral? = some (l, y)) : (BinaryOp.arith op).result s t =
      if k.isSigned = l.isSigned then
        (NumberPair.whole op x y).map fun n => some ((k.common l).literal n)
      else .ok none := by
  rw [result, applyArith_of_integral? op hs, Literal.numberPair?_of_integral? hs ht]
  by_cases hsigned : k.isSigned = l.isSigned
  · simp only [if_pos hsigned, NumberPair.arith]
    cases NumberPair.whole op x y <;> rfl
  · simp only [if_neg hsigned]

/-- The same by name, with what can go wrong: division by zero, and integers that do not mix. -/
theorem dispatch_integers {name : String} {op : Arith}
    (hop : BinaryOp.ofName? name = some (.arith op)) {a b : Operand} (ha : a.IsInteger k x)
    (hb : b.IsInteger l y) : dispatch name [a, b] =
      if k.isSigned = l.isSigned then
        ((NumberPair.whole op x y).map (k.common l).literal).mapError .fault
      else .error (.unknownSignature name (signatureText [a, b])) := by
  rw [dispatch_binary hop ha.is hb.is, BinaryOp.result_arith op ha.2 hb.2]
  by_cases hsigned : k.isSigned = l.isSigned
  · rw [if_pos hsigned, if_pos hsigned]
    cases NumberPair.whole op x y <;> rfl
  · rw [if_neg hsigned, if_neg hsigned]
    rfl

end Pairs

namespace UnaryOp

variable {s : Literal} {k : IntegralKind} {x : Int}

/-- A minus in front of a signed integer, in the kind in which it is combined with itself. -/
theorem result?_negate (hs : s.integral? = some (k, x)) (hsigned : k.isSigned) :
    negate.result? s = some ((k.common k).literal (-x)) := by
  simp only [result?, Literal.negate?, Literal.number?_eq_integral_iff.mpr hs, if_pos hsigned]

theorem result?_affirm (hs : s.integral? = some (k, x)) (hsigned : k.isSigned) :
    affirm.result? s = some ((k.common k).literal x) := by
  simp only [result?, Literal.affirm?, Literal.number?_eq_integral_iff.mpr hs, if_pos hsigned]

end UnaryOp

/-- **Arithmetic of integers is exact arithmetic modulo the width.** Signed and unsigned integers
do not mix; a sign in front of a number is an operator on zero and the number; and characters are
moved within 16 bits and have exact distances. -/
theorem dispatch_modulo :
    (∀ (op : Arith) {a b : Operand} {k l : IntegralKind} {x y : Int},
      a.IsInteger k x → b.IsInteger l y → k.isSigned = l.isSigned →
      (op = .div ∨ op = .rem → y ≠ 0) →
      ∃ value, dispatch op.name [a, b] = .ok value ∧ op.Gives k l x y value) ∧
    (∀ (op : Arith) {a b : Operand} {k l : IntegralKind} {x y : Int},
      a.IsInteger k x → b.IsInteger l y → k.isSigned ≠ l.isSigned →
      dispatch op.name [a, b] = .error (.unknownSignature op.name (signatureText [a, b]))) ∧
    (∀ {a zero : Operand} {k : IntegralKind} {x : Int},
      a.IsInteger k x → zero.IsInteger k 0 → k.isSigned →
      dispatch "unaryMinus" [a] = dispatch "minus" [zero, a] ∧
      dispatch "unaryPlus" [a] = dispatch "plus" [zero, a]) ∧
    (∀ {a b : Operand} {c : UInt16} {n : Int32}, a.Is (.char c) → b.Is (.int n) →
      (∃ value, dispatch "plus" [a, b] = .ok value ∧ value.IsResidue .char (c.toNat + n.toInt)) ∧
      ∃ value, dispatch "minus" [a, b] = .ok value ∧ value.IsResidue .char (c.toNat - n.toInt)) ∧
    ∀ {a b : Operand} {c d : UInt16}, a.Is (.char c) → b.Is (.char d) →
      ∃ n : Int32, dispatch "minus" [a, b] = .ok (.int n) ∧
        n.toInt = (c.toNat : Int) - d.toNat := by
  have hplus : BinaryOp.ofName? "plus" = some (.arith .plus) := Arith.ofName?_name .plus
  have hminus : BinaryOp.ofName? "minus" = some (.arith .minus) := Arith.ofName?_name .minus
  refine ⟨?_, ?_, ?_, ?_, ?_⟩
  · intro op a b k l x y ha hb hsigned hdivisor
    obtain ⟨n, hwhole, hexact⟩ := op.exists_whole x hdivisor
    -- The common kind has the sign of both and the greater of their widths, or 32 bits.
    refine ⟨(k.common l).literal n, ?_, k.common l, n, k.isSigned_common l, k.width_common l,
      hexact, (k.common l).isResidue_literal n⟩
    rw [dispatch_integers op.ofName?_name ha hb, if_pos hsigned, hwhole]
    rfl
  · intro op a b k l x y ha hb hsigned
    rw [dispatch_integers op.ofName?_name ha hb, if_neg hsigned]
  · -- Both sides are written in the common kind of the operand and itself.
    intro a zero k x ha hzero hsigned
    have hnegate : UnaryOp.ofName? "unaryMinus" = some .negate := rfl
    have haffirm : UnaryOp.ofName? "unaryPlus" = some .affirm := rfl
    constructor
    · rw [dispatch_unary hnegate ha.is, UnaryOp.result?_negate ha.2 hsigned,
        dispatch_integers hminus hzero ha, if_pos rfl, NumberPair.whole, zero_sub]
      rfl
    · rw [dispatch_unary haffirm ha.is, UnaryOp.result?_affirm ha.2 hsigned,
        dispatch_integers hplus hzero ha, if_pos rfl, NumberPair.whole, zero_add]
      rfl
  · intro a b c n ha hb
    constructor
    · refine ⟨_, ?_, Literal.isResidue_char _⟩
      rw [dispatch_binary hplus ha hb]
      rfl
    · refine ⟨_, ?_, Literal.isResidue_char _⟩
      rw [dispatch_binary hminus ha hb]
      rfl
  · intro a b c d ha hb
    refine ⟨Int32.ofInt (c.toNat - d.toNat), ?_, ?_⟩
    · rw [dispatch_binary hminus ha hb]
      rfl
    · -- A distance of two units is far from the limits of 32 bits.
      have hc := c.toNat_lt
      have hd := d.toNat_lt
      rw [Int32.toInt_ofInt_of_le]
      · omega
      · omega

/-- The least integer divided by a `Byte` that holds minus one: the quotient is one too many, and
comes back to where it started. -/
theorem dispatch_modulo_least :
    let a : Operand := .ofLiteral (.int Int32.minValue)
    let b : Operand := .ofLiteral (.byte (-1))
    a.IsInteger .int (-2 ^ 31) ∧ b.IsInteger .byte (-1) ∧
    dispatch "div" [a, b] = .ok (.int Int32.minValue) ∧
    Arith.div.Gives .int .byte (-2 ^ 31) (-1) (.int Int32.minValue) := by
  intro a b
  have ha : a.IsInteger .int (-2 ^ 31) := ⟨rfl, by decide⟩
  have hb : b.IsInteger .byte (-1) := ⟨rfl, by decide⟩
  obtain ⟨value, hvalue, hgives⟩ := dispatch_modulo.1 .div ha hb rfl (by decide)
  have hleast : dispatch "div" [a, b] = .ok (.int Int32.minValue) := by rfl
  obtain rfl : value = .int Int32.minValue := Except.ok.inj (hvalue.symm.trans hleast)
  exact ⟨ha, hb, hleast, hgives⟩

/-! ## Shifts -/

/-- A quotient lies between the dividend and zero. -/
theorem Window.Holds.ediv {window : Window} {n d : Int} (hn : window.Holds n)
    (hzero : window.Holds 0) (hd : 0 < d) : window.Holds (n / d) := by
  obtain ⟨hle, hlt⟩ := hn
  obtain ⟨hle', hlt'⟩ := hzero
  -- Rounding down moves a negative quotient away from zero, but not past the dividend.
  rcases Int.le_total 0 n with hsign | hsign
  · have hnonneg := Int.ediv_nonneg hsign (Int.le_of_lt hd)
    have hself := Int.ediv_le_self d hsign
    exact ⟨by omega, by omega⟩
  · have hnonpos := Int.ediv_nonpos_of_nonpos_of_neg hsign hd
    have hself := Int.le_ediv_of_mul_le hd (mul_le_of_one_le_right hsign hd)
    exact ⟨by omega, by omega⟩

/-- An integer lies in the range of its kind, and so does zero. -/
theorem Literal.exists_window_of_integral? {s : Literal} {k : IntegralKind} {x : Int}
    (h : s.integral? = some (k, x)) :
    ∃ window, k.kind.window? = some window ∧ window.Holds x ∧ window.Holds 0 := by
  obtain ⟨window, hwindow, hholds⟩ := exists_window_of_whole? (whole?_of_integral? h)
  rw [kind_of_integral? h] at hwindow
  refine ⟨window, hwindow, hholds, ?_⟩
  cases k <;> cases hwindow <;> decide

namespace IntegralKind

/-- Writing an integer that is in range does not change it. -/
theorem integral?_literal {kind : IntegralKind} {window : Window} {n : Int}
    (hwindow : kind.kind.window? = some window) (h : window.Holds n) :
    (kind.literal n).integral? = some (kind, n) := by
  have hresidue := kind.isResidue_literal n
  obtain ⟨x, hx⟩ := Literal.exists_integral?_of_kind hresidue.1
  have hwhole := hresidue.whole?_eq hwindow h
  rw [Literal.whole?_of_integral? hx, Option.some_inj] at hwhole
  rw [hx, hwhole]

/-- The pattern of bits of an integer is its residue without a sign. -/
theorem pattern_eq (kind : IntegralKind) (n : Int) :
    (kind.pattern n : Int) = n % 2 ^ kind.width := by
  have hpos : (0 : Int) < 2 ^ kind.width := Int.pow_pos (by decide)
  rw [pattern, BitVec.toNat_ofInt, Nat.cast_pow, Nat.cast_ofNat]
  exact Int.toNat_of_nonneg (Int.emod_nonneg n (Int.ne_of_gt hpos))

end IntegralKind

/-- A quotient rounded down is the quotient of integers. -/
theorem floor_div_two_pow (n : Int) (places : Nat) :
    ⌊(n : Rat) / 2 ^ places⌋ = n / 2 ^ places := by
  have h := Rat.floor_intCast_div_natCast n (2 ^ places)
  push_cast at h
  exact h

namespace Shift

/-- The name under which a program calls a shift. -/
def name : Shift → String
  | left => "shl"
  | right => "shr"
  | unsignedRight => "ushr"

theorem ofName?_name (direction : Shift) :
    BinaryOp.ofName? direction.name = some (.shift direction) := by
  rw [BinaryOp.ofName?_eq_some_iff]
  cases direction <;> decide

/-- The kinds of integers that are shifted: not the narrow ones, and to the right without a sign
only where there is one. -/
def Takes (direction : Shift) (kind : IntegralKind) : Prop :=
  32 ≤ kind.width ∧ (direction = .unsignedRight → kind.isSigned)

/-- What shifting an integer of this kind by so many places gives. -/
def Gives (direction : Shift) (kind : IntegralKind) (x : Int) (places : Nat) (value : Literal) :
    Prop :=
  match direction with
  | left => value.IsResidue kind.kind (x * 2 ^ places)
  | right => value.integral? = some (kind, ⌊(x : Rat) / 2 ^ places⌋)
  | unsignedRight =>
    value.IsResidue kind.kind ⌊((x % 2 ^ kind.width : Int) : Rat) / 2 ^ places⌋

end Shift

/-- What an integer is shifted to, given that it can be. -/
theorem Literal.exists_shift? {s : Literal} {k : IntegralKind} {x : Int} {direction : Shift}
    (hs : s.integral? = some (k, x)) (htakes : direction.Takes k) (count : Int32) :
    ∃ value, s.shift? direction (.int count) = some value ∧
      direction.Gives k x (count.toInt % k.width).toNat value := by
  obtain ⟨hwidth, hsigned⟩ := htakes
  simp only [shift?, hs, if_neg (Nat.not_lt.mpr hwidth)]
  generalize (count.toInt % k.width).toNat = places
  cases direction with
  | left =>
    refine ⟨_, rfl, ?_⟩
    rw [Nat.one_shiftLeft, Nat.cast_pow, Nat.cast_ofNat]
    exact k.isResidue_literal _
  | right =>
    refine ⟨_, rfl, ?_⟩
    rw [Nat.one_shiftLeft, Nat.cast_pow, Nat.cast_ofNat, Shift.Gives, floor_div_two_pow]
    -- The quotient is in range already, so writing it does not change it.
    obtain ⟨window, hwindow, hholds, hzero⟩ := exists_window_of_integral? hs
    exact IntegralKind.integral?_literal hwindow (hholds.ediv hzero (Int.pow_pos (by decide)))
  | unsignedRight =>
    rw [if_pos (hsigned rfl)]
    refine ⟨_, rfl, ?_⟩
    -- The pattern of bits is the dividend here, and its quotient may lie outside the signed range.
    rw [Nat.shiftRight_eq_div_pow, Int.natCast_ediv, k.pattern_eq, Nat.cast_pow, Nat.cast_ofNat,
      Shift.Gives, floor_div_two_pow]
    exact k.isResidue_literal _

/-- The table has no row for the others. -/
theorem Kind.shifted?_eq_none {k l : Kind} {direction : Shift}
    (h : (∀ kind : IntegralKind, k = kind.kind → ¬ direction.Takes kind) ∨ l ≠ .int) :
    k.shifted? direction l = none := by
  rw [shifted?]
  cases hk : k.integral? with
  | none => rfl
  | some kind =>
    refine if_neg ?_
    rintro ⟨hint, hwidth, hsigned⟩
    rcases h with hother | hother
    · refine hother kind (eq_of_integral? hk) ⟨hwidth, ?_⟩
      intro hright
      exact hsigned.resolve_right fun hne => hne hright
    · exact hother hint

/-- **Shifts take their count modulo the width.** To the left is a product, to the right a quotient
rounded down, and to the right without the sign the same of the pattern of bits; whatever else is
shifted, or shifted by, there is no such operation. -/
theorem dispatch_shift (direction : Shift) {a b : Operand} (ha : a.HasDeclaredKind)
    (hb : b.HasDeclaredKind) :
    (∀ {k : IntegralKind} {x : Int} {count : Int32},
      a.IsInteger k x → b.Is (.int count) → direction.Takes k →
      ∃ value, dispatch direction.name [a, b] = .ok value ∧
        direction.Gives k x (count.toInt % k.width).toNat value) ∧
    ((∀ k : IntegralKind, a.type.kind = k.kind → ¬ direction.Takes k) ∨ b.type.kind ≠ .int →
      dispatch direction.name [a, b] =
        .error (.unknownSignature direction.name (signatureText [a, b]))) := by
  constructor
  · intro k x count hinteger hcount htakes
    obtain ⟨value, hvalue, hgives⟩ := Literal.exists_shift? hinteger.2 htakes count
    refine ⟨value, ?_, hgives⟩
    rw [dispatch_binary direction.ofName?_name hinteger.is hcount, BinaryOp.result, hvalue]
    rfl
  · intro hother
    have hdeclared : ∀ operand ∈ [a, b], operand.HasDeclaredKind := by
      simp [ha, hb]
    have hnone := Kind.shifted?_eq_none hother
    -- No operation is resolved, and that is all that can be reported.
    have hunknown : resolve direction.name [a.type, b.type] = .unknown := by
      rw [resolve, direction.ofName?_name, Option.bind_some, BinaryOp.resultKind?, hnone]
      rfl
    exact (admits_dispatch direction.name hdeclared).eq_unknownSignature_iff.mpr
      ⟨hunknown, rfl, signatureText_eq [a, b]⟩

/-- A count of minus one is a count of 31, and without the sign minus one is all ones. -/
theorem dispatch_shift_ones :
    let a : Operand := .ofLiteral (.int (-1))
    a.HasDeclaredKind ∧ a.IsInteger .int (-1) ∧ a.Is (.int (-1)) ∧
    Shift.unsignedRight.Takes .int ∧ ((-1 : Int32).toInt % 32).toNat = 31 ∧
    dispatch "ushr" [a, a] = .ok (.int 1) ∧
    Shift.unsignedRight.Gives .int (-1) 31 (.int 1) := by
  intro a
  have hdeclared : a.HasDeclaredKind := .inr rfl
  have hinteger : a.IsInteger .int (-1) := ⟨rfl, rfl⟩
  have hcount : a.Is (.int (-1)) := ⟨rfl, rfl⟩
  have htakes : Shift.unsignedRight.Takes .int := ⟨by decide, by decide⟩
  obtain ⟨value, hvalue, hgives⟩ :=
    (dispatch_shift .unsignedRight hdeclared hdeclared).1 hinteger hcount htakes
  have hone : dispatch "ushr" [a, a] = .ok (.int 1) := by rfl
  obtain rfl : value = .int 1 := Except.ok.inj (hvalue.symm.trans hone)
  exact ⟨hdeclared, hinteger, hcount, htakes, by decide, hone, hgives⟩

end CallFolding
