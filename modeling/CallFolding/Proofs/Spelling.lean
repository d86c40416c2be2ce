import CallFolding.Decimal.Layout
import CallFolding.Proofs.Shortest
import CallFolding.Proofs.SourceForm

/-!
The text of a floating-point number reads back.

`Decimal.read?` reads texts of the forms `-?D+.D+` and `-?D.D+E-?D+`, where `D` is a digit, and
gives the sign and the decimal. What is written down has one of these forms and is read as the
shortest decimal of the number, which rounds to the number. The point and the zeros that are added
change the digits and the exponent that are read, but not the value.

A number is written without an exponent if its shortest decimal is at least `0.001` and below ten
million. For the two formats there are this is the same as asking it of the number itself: ten
million is a number of both, and `0.001` is rounded up in both.
-/

set_option autoImplicit false

namespace CallFolding

/-! ## Decimal texts -/

/-- One digit or more. -/
def IsDigits (cs : List Char) : Prop :=
  cs ≠ [] ∧ ∀ c ∈ cs, c.isDigit = true

namespace Decimal

/-- A minus sign, or nothing. -/
def sign (negative : Bool) : List Char :=
  if negative then ['-'] else []

/-- The text has the form `-?D+.D+`. -/
def IsPositional (text : List Char) : Prop :=
  ∃ negative whole fraction, IsDigits whole ∧ IsDigits fraction ∧
    text = sign negative ++ (whole ++ '.' :: fraction)

/-- The text has the form `-?D.D+E-?D+`. -/
def IsScientific (text : List Char) : Prop :=
  ∃ negative first fraction negative' exponent,
    IsDigits [first] ∧ IsDigits fraction ∧ IsDigits exponent ∧
      text = sign negative ++ ([first] ++ '.' :: (fraction ++ 'E' :: (sign negative' ++ exponent)))

/-- Takes a minus sign off the text, if it begins with one. -/
def readSign (cs : List Char) : Bool × List Char :=
  if cs.head? = some '-' then (true, cs.tail) else (false, cs)

/-- Reads what stands behind the digits: an exponent, or nothing, which is the exponent zero. -/
def readExponent? (cs : List Char) : Option Int :=
  if cs = [] then some 0
  else
    let (negative, digits) := readSign cs.tail
    if cs.head? = some 'E' ∧ digits ≠ [] ∧ digits.all Char.isDigit then
      some (Binary.signed negative (Nat.ofDigitChars 10 digits 0))
    else none

/-- Reads the sign of a number and the decimal behind it. -/
def read? (text : List Char) : Option (Bool × Decimal) :=
  let (negative, cs) := readSign text
  let whole := cs.takeWhile Char.isDigit
  let behind := cs.dropWhile Char.isDigit
  let fraction := behind.tail.takeWhile Char.isDigit
  if behind.head? = some '.' ∧ whole ≠ [] ∧ fraction ≠ [] then
    (readExponent? (behind.tail.dropWhile Char.isDigit)).map fun exponent =>
      (negative, ⟨Nat.ofDigitChars 10 (whole ++ fraction) 0, exponent - fraction.length⟩)
  else none

section Reading

variable {cs whole fraction rest : List Char} {exponent : Int}

/-- Digits do not begin with a minus sign. -/
theorem head?_ne_minus (h : IsDigits cs) (rest : List Char) : (cs ++ rest).head? ≠ some '-' := by
  obtain ⟨c, cs, rfl⟩ := List.exists_cons_of_ne_nil h.1
  have hc := h.2 c List.mem_cons_self
  intro hminus
  rw [List.cons_append, List.head?_cons, Option.some.injEq] at hminus
  subst hminus
  exact absurd hc (by decide)

/-- A sign before something without one is read off. -/
theorem readSign_sign (negative : Bool) (h : cs.head? ≠ some '-') :
    readSign (sign negative ++ cs) = (negative, cs) := by
  cases negative with
  | false => exact if_neg h
  | true => rfl

theorem isDigit_head?_cons {c : Char} (h : c.isDigit = false) (cs : List Char) :
    ∀ b ∈ (c :: cs).head?, b.isDigit = false := by
  intro b hb
  rw [List.head?_cons, Option.mem_some_iff] at hb
  rwa [← hb]

/-- Digits are taken up to the first character that is none. -/
theorem takeWhile_digits (h : IsDigits cs) (hrest : ∀ c ∈ rest.head?, c.isDigit = false) :
    (cs ++ rest).takeWhile Char.isDigit = cs := by
  rw [List.takeWhile_append_of_pos h.2]
  cases rest with
  | nil => exact List.append_nil cs
  | cons c rest => rw [List.takeWhile_cons_of_neg (by simp [hrest c rfl]), List.append_nil]

theorem dropWhile_digits (h : IsDigits cs) (hrest : ∀ c ∈ rest.head?, c.isDigit = false) :
    (cs ++ rest).dropWhile Char.isDigit = rest := by
  rw [List.dropWhile_append_of_pos h.2]
  cases rest with
  | nil => rfl
  | cons c rest => rw [List.dropWhile_cons_of_neg (by simp [hrest c rfl])]

theorem readExponent?_sign (negative : Bool) (h : IsDigits cs) :
    readExponent? ('E' :: (sign negative ++ cs)) =
      some (Binary.signed negative (Nat.ofDigitChars 10 cs 0)) := by
  have hminus := head?_ne_minus h []
  rw [List.append_nil] at hminus
  have hall : cs.all Char.isDigit = true := List.all_eq_true.mpr h.2
  rw [readExponent?, if_neg (List.cons_ne_nil _ _), List.tail_cons, readSign_sign negative hminus]
  exact if_pos ⟨rfl, h.1, hall⟩

/-- **What is read from a text with digits on both sides of the point.** -/
theorem read?_append (negative : Bool) (hwhole : IsDigits whole) (hfraction : IsDigits fraction)
    (hrest : ∀ c ∈ rest.head?, c.isDigit = false) (hexponent : readExponent? rest = some exponent) :
    read? (sign negative ++ (whole ++ '.' :: (fraction ++ rest))) =
      some (negative,
        ⟨Nat.ofDigitChars 10 (whole ++ fraction) 0, exponent - (fraction.length : Int)⟩) := by
  have hpoint := isDigit_head?_cons (show '.'.isDigit = false from rfl) (fraction ++ rest)
  rw [read?, readSign_sign negative (head?_ne_minus hwhole _)]
  dsimp only
  rw [takeWhile_digits hwhole hpoint, dropWhile_digits hwhole hpoint, List.tail_cons,
    takeWhile_digits hfraction hrest, dropWhile_digits hfraction hrest, hexponent]
  exact if_pos ⟨rfl, hwhole.1, hfraction.1⟩

example : read? "-12.50E-7".toList = some (true, ⟨1250, -9⟩) := by decide

end Reading

end Decimal

/-! ## Layout -/

/-- Every natural number is written in digits. -/
theorem isDigits_toDigits (n : Nat) : IsDigits (Nat.toDigits 10 n) :=
  ⟨Nat.toDigits_ne_nil, fun _ => isDigit_of_mem_toDigits⟩

/-- The decimal of an integer with its sign in front. -/
theorem toList_toString_int (n : Int) :
    (toString n).toList = Decimal.sign (n < 0) ++ Nat.toDigits 10 n.natAbs := by
  rw [toList_toString, Decimal.sign]
  simp only [decide_eq_true_eq]

namespace Layout

variable {digits : List Char} {n : Nat}

/-- There are as many zeros as asked for. -/
theorem length_zeros : (zeros n).length = n :=
  List.length_replicate

theorem isDigit_of_mem_zeros {c : Char} (h : c ∈ zeros n) : c.isDigit = true := by
  rw [List.eq_of_mem_replicate h]
  rfl

theorem isDigits_zero : IsDigits (zeros 1) :=
  ⟨List.cons_ne_nil _ _, fun _ => isDigit_of_mem_zeros (n := 1)⟩

theorem isDigits_append_zeros (h : IsDigits digits) (n : Nat) : IsDigits (digits ++ zeros n) := by
  refine ⟨List.append_ne_nil_of_left_ne_nil h.1 _, fun c hc => ?_⟩
  exact (List.mem_append.mp hc).elim (h.2 c) isDigit_of_mem_zeros

theorem isDigits_zeros_append (h : IsDigits digits) (n : Nat) : IsDigits (zeros n ++ digits) := by
  refine ⟨List.append_ne_nil_of_right_ne_nil _ h.1, fun c hc => ?_⟩
  exact (List.mem_append.mp hc).elim isDigit_of_mem_zeros (h.2 c)

/-- Zeros behind the digits are powers of ten, and zeros before them are nothing. -/
theorem ofDigitChars_append_zeros (digits : List Char) (n : Nat) :
    Nat.ofDigitChars 10 (digits ++ zeros n) 0 = 10 ^ n * Nat.ofDigitChars 10 digits 0 := by
  rw [Nat.ofDigitChars_append, zeros, Nat.ofDigitChars_replicate_zero]

theorem ofDigitChars_zeros_append (digits : List Char) (n : Nat) :
    Nat.ofDigitChars 10 (zeros n ++ digits) 0 = Nat.ofDigitChars 10 digits 0 := by
  rw [Nat.ofDigitChars_append, zeros, Nat.ofDigitChars_replicate_zero, Nat.mul_zero]

/-- The digits and the exponent that are read from a positional text may be others, but not their
value. -/
theorem exists_positional (h : IsDigits digits) (e : Int) :
    ∃ whole fraction, IsDigits whole ∧ IsDigits fraction ∧
      positional digits e = whole ++ '.' :: fraction ∧
      (Nat.ofDigitChars 10 (whole ++ fraction) 0 : ℚ) * 10 ^ (-(fraction.length : Int)) =
        Nat.ofDigitChars 10 digits 0 * 10 ^ e := by
  rw [positional]
  by_cases hexp : 0 ≤ e
  · -- All digits stand before the point, and one zero more than the exponent asks for.
    obtain ⟨n, rfl⟩ := Int.eq_ofNat_of_zero_le hexp
    rw [if_pos hexp]
    refine ⟨digits ++ zeros n, zeros 1, isDigits_append_zeros h n, isDigits_zero, rfl, ?_⟩
    rw [ofDigitChars_append_zeros, ofDigitChars_append_zeros, length_zeros, Nat.cast_one,
      zpow_neg_one, zpow_natCast]
    push_cast
    ring
  · obtain ⟨n, rfl⟩ : ∃ n : Nat, e = -(n : Int) := ⟨(-e).toNat, by omega⟩
    rw [if_neg hexp, Int.neg_neg, Int.toNat_natCast]
    dsimp only
    by_cases hplaces : n < digits.length
    · -- The point stands between two digits.
      rw [if_pos hplaces]
      refine ⟨_, _, ⟨?_, ?_⟩, ⟨?_, ?_⟩, rfl, ?_⟩
      · intro hnil
        have hlength := congrArg List.length hnil
        rw [List.length_take, List.length_nil] at hlength
        omega
      · exact fun c hc => h.2 c (List.mem_of_mem_take hc)
      · intro hnil
        have hlength := congrArg List.length hnil
        rw [List.length_drop, List.length_nil] at hlength
        omega
      · exact fun c hc => h.2 c (List.mem_of_mem_drop hc)
      · rw [List.take_append_drop, List.length_drop]
        congr 2
        omega
    · -- All digits stand behind the point, after zeros.
      rw [if_neg hplaces]
      refine ⟨zeros 1, zeros (n - digits.length) ++ digits, isDigits_zero,
        isDigits_zeros_append h _, rfl, ?_⟩
      rw [ofDigitChars_zeros_append, ofDigitChars_zeros_append, List.length_append, length_zeros]
      congr 2
      omega

/-- One digit stands before the point, and the others behind it, or a zero if there is no other. -/
theorem exists_scientific (h : IsDigits digits) (leading : Int) :
    ∃ first fraction, IsDigits [first] ∧ IsDigits fraction ∧
      display.scientific digits leading =
        [first] ++ '.' :: (fraction ++ 'E' :: (toString leading).toList) ∧
      (Nat.ofDigitChars 10 ([first] ++ fraction) 0 : ℚ) * 10 ^ (leading - (fraction.length : Int)) =
        Nat.ofDigitChars 10 digits 0 * 10 ^ (leading + 1 - (digits.length : Int)) := by
  obtain ⟨first, others, rfl⟩ := List.exists_cons_of_ne_nil h.1
  have hfirst : IsDigits [first] := by
    refine ⟨List.cons_ne_nil _ _, fun c hc => h.2 c ?_⟩
    rw [List.mem_singleton.mp hc]
    exact List.mem_cons_self
  rw [scientific, List.drop_one, List.tail_cons]
  -- A single digit gets a zero behind the point, and its weight in the digits that are read.
  cases others with
  | nil =>
    refine ⟨first, zeros 1, hfirst, isDigits_zero, rfl, ?_⟩
    rw [ofDigitChars_append_zeros, length_zeros, List.length_singleton, Nat.cast_one,
      add_sub_cancel_right, zpow_sub_one₀ (by norm_num)]
    push_cast
    ring
  | cons c others =>
    refine ⟨first, c :: others, hfirst, ?_, rfl, ?_⟩
    · exact ⟨List.cons_ne_nil _ _, fun d hd => h.2 d (List.mem_cons_of_mem _ hd)⟩
    · have hlength : (first :: c :: others).length = (c :: others).length + 1 := List.length_cons
      rw [List.singleton_append, hlength]
      congr 2
      omega

end Layout

namespace Decimal

variable {d : Decimal}

/-- The exponent of the first digit. -/
def leading (d : Decimal) : Int :=
  d.exponent + (Nat.toDigits 10 d.digits).length - 1

/-- The first digit tells the powers of ten up to a decimal. -/
theorem le_leading_iff (hd : d.digits ≠ 0) (e : Int) : e ≤ d.leading ↔ (10 : ℚ) ^ e ≤ d.value := by
  have hten : (0 : ℚ) < 10 ^ d.exponent := zpow_pos (by norm_num) _
  obtain ⟨hlow, hhigh⟩ :=
    length_toDigits_div_bounds Nat.one_pos (Nat.one_le_iff_ne_zero.mpr hd)
  rw [Nat.div_one, Nat.cast_one, div_one] at hlow hhigh
  constructor
  · intro hle
    calc (10 : ℚ) ^ e ≤ 10 ^ d.leading := zpow_le_zpow_right₀ (by norm_num) hle
      _ = 10 ^ ((Nat.toDigits 10 d.digits).length - 1 : Int) * 10 ^ d.exponent := by
        rw [← zpow_add₀ (by norm_num), leading]
        congr 1
        omega
      _ ≤ d.value := mul_le_mul_of_nonneg_right hlow hten.le
  · intro hle
    have hlt : (10 : ℚ) ^ e < 10 ^ (d.leading + 1) :=
      calc (10 : ℚ) ^ e ≤ d.value := hle
        _ < 10 ^ ((Nat.toDigits 10 d.digits).length : Int) * 10 ^ d.exponent :=
          mul_lt_mul_of_pos_right hhigh hten
        _ = 10 ^ (d.leading + 1) := by
          rw [← zpow_add₀ (by norm_num), leading]
          congr 1
          omega
    exact Int.le_of_lt_add_one ((zpow_lt_zpow_iff_right₀ (by norm_num)).mp hlt)

/-- The text is read as this number, with this sign. -/
def ReadsAs (text : List Char) (negative : Bool) (q : ℚ) : Prop :=
  ∃ d : Decimal, read? text = some (negative, d) ∧ d.value = q

/-- A positional text with a sign in front. -/
theorem positional_spec {digits : List Char} (h : IsDigits digits) (negative : Bool) (e : Int) :
    IsPositional (sign negative ++ Layout.positional digits e) ∧
      ReadsAs (sign negative ++ Layout.positional digits e) negative
        (Nat.ofDigitChars 10 digits 0 * 10 ^ e) := by
  obtain ⟨whole, fraction, hwhole, hfraction, htext, hvalue⟩ := Layout.exists_positional h e
  have hnothing : readExponent? [] = some 0 := rfl
  have hread := read?_append negative hwhole hfraction (by simp) hnothing
  rw [List.append_nil, zero_sub] at hread
  rw [htext]
  exact ⟨⟨negative, whole, fraction, hwhole, hfraction, rfl⟩, _, hread, hvalue⟩

/-- A scientific text with a sign in front. -/
theorem scientific_spec {digits : List Char} (h : IsDigits digits) (negative : Bool) (e : Int) :
    IsScientific (sign negative ++ Layout.display.scientific digits e) ∧
      ReadsAs (sign negative ++ Layout.display.scientific digits e) negative
        (Nat.ofDigitChars 10 digits 0 * 10 ^ (e + 1 - (digits.length : Int))) := by
  obtain ⟨first, fraction, hfirst, hfraction, htext, hvalue⟩ := Layout.exists_scientific h e
  -- The exponent is written as an integer and read digit by digit.
  have hexponent : readExponent? ('E' :: (sign (e < 0) ++ Nat.toDigits 10 e.natAbs)) = some e := by
    rw [readExponent?_sign _ (isDigits_toDigits _), Nat.ofDigitChars_ten_toDigits, Binary.signed]
    by_cases hneg : e < 0
    · rw [decide_eq_true hneg, if_pos rfl, Option.some.injEq]
      omega
    · rw [decide_eq_false hneg, if_neg (by decide), Option.some.injEq]
      omega
  have hmark := isDigit_head?_cons (show 'E'.isDigit = false from rfl)
    (sign (e < 0) ++ Nat.toDigits 10 e.natAbs)
  have hread := read?_append negative hfirst hfraction hmark hexponent
  rw [htext, toList_toString_int]
  exact ⟨⟨negative, first, fraction, _, _, hfirst, hfraction, isDigits_toDigits _, rfl⟩, _, hread,
    hvalue⟩

/-- A decimal is written in the form that its size asks for, and what is written is read as the
same number. -/
theorem display_spec (hd : d.digits ≠ 0) (negative : Bool) :
    ((10 : ℚ) ^ (-3 : Int) ≤ d.value ∧ ¬ (10 : ℚ) ^ (7 : Int) ≤ d.value →
      IsPositional (sign negative ++ Layout.display.decimal d)) ∧
    (¬ ((10 : ℚ) ^ (-3 : Int) ≤ d.value ∧ ¬ (10 : ℚ) ^ (7 : Int) ≤ d.value) →
      IsScientific (sign negative ++ Layout.display.decimal d)) ∧
    ReadsAs (sign negative ++ Layout.display.decimal d) negative d.value := by
  have hdigits := isDigits_toDigits d.digits
  have hvalue : (Nat.ofDigitChars 10 (Nat.toDigits 10 d.digits) 0 : ℚ) * 10 ^ d.exponent =
      d.value := by
    rw [Nat.ofDigitChars_ten_toDigits, value]
  rw [← le_leading_iff hd, ← le_leading_iff hd, not_le]
  -- The form is chosen by the exponent of the first digit, which tells the powers of ten below.
  by_cases hrange : -3 ≤ d.leading ∧ d.leading < 7
  · have htext : Layout.display.decimal d =
        Layout.positional (Nat.toDigits 10 d.digits) d.exponent := if_pos hrange
    obtain ⟨hform, hread⟩ := positional_spec hdigits negative d.exponent
    rw [hvalue] at hread
    rw [htext]
    exact ⟨fun _ => hform, fun h => absurd hrange h, hread⟩
  · have htext : Layout.display.decimal d =
        Layout.display.scientific (Nat.toDigits 10 d.digits) d.leading := if_neg hrange
    have hexponent : d.leading + 1 - ((Nat.toDigits 10 d.digits).length : Int) = d.exponent := by
      rw [leading]
      omega
    obtain ⟨hform, hread⟩ := scientific_spec hdigits negative d.leading
    rw [hexponent, hvalue] at hread
    rw [htext]
    exact ⟨fun h => absurd h hrange, fun _ => hform, hread⟩

/-- The number of a format that a decimal with this sign rounds to. -/
def round {f : BinaryFormat} (negative : Bool) (d : Decimal) : Binary f :=
  Binary.round negative (d.digits * Nat.pow 10 d.exponent.toNat) (Nat.pow 10 (-d.exponent).toNat)

end Decimal

/-! ## Numbers -/

namespace Binary

variable {f : BinaryFormat} {x y : Binary f} {negative : Bool} {significand : Nat} {exponent : Int}

/-- What the text of a number has to be. A finite number is written without an exponent if it is
zero or from `0.001` up to below ten million. The decimal that is read from the text has the sign of
the number, also if the number is zero, and the number is the one nearest to it. -/
def IsSpelled (x : Binary f) (text : String) : Prop :=
  match x.unpack with
  | .nan => text = "NaN"
  | .infinite negative => text = if negative then "-Infinity" else "Infinity"
  | .finite negative significand exponent =>
    let size : ℚ := significand * 2 ^ exponent
    let plain := size = 0 ∨ (1 / 1000 ≤ size ∧ size < 10 ^ 7)
    (plain → Decimal.IsPositional text.toList) ∧ (¬ plain → Decimal.IsScientific text.toList) ∧
      ∃ d, Decimal.read? text.toList = some (negative, d) ∧
        f.IsNearest d.value significand exponent ∧ d.round negative = x

/-- There is one infinity of each sign. -/
theorem of_unpack_infinite (h : x.unpack = .infinite negative) : x = infinity negative := by
  rw [unpack_eq] at h
  split at h
  · cases h
  split at h
  · rename_i hmagnitude
    obtain rfl := Unpacked.infinite.inj h
    rw [infinity, ← hmagnitude, pack_isNegative_magnitude]
  · cases h

/-- What is unpacked from a finite number is given by its magnitude. -/
theorem of_unpack_finite (h : x.unpack = .finite negative significand exponent) :
    x.isNaN = false ∧ negative = x.isNegative ∧ significand = f.significand x.magnitude ∧
      exponent = f.exponent x.magnitude := by
  rw [unpack_eq] at h
  split at h
  · cases h
  split at h
  · cases h
  · rename_i hnan _
    obtain ⟨hsign, hsignificand, hexponent⟩ := Unpacked.finite.inj h
    exact ⟨Bool.not_eq_true _ |>.mp hnan, hsign.symm, hsignificand.symm, hexponent.symm⟩

/-- A text that is read as something in the cell of a number is read as the number. -/
theorem exists_read?_of_cell {text : List Char} {q : ℚ} (hp : 2 ≤ f.precision)
    (hx : x.isNaN = false) (hread : Decimal.ReadsAs text x.isNegative q)
    (hcell : f.Cell x.magnitude q) :
    ∃ d, Decimal.read? text = some (x.isNegative, d) ∧
      f.IsNearest d.value (f.significand x.magnitude) (f.exponent x.magnitude) ∧
      d.round x.isNegative = x := by
  obtain ⟨d, hd, rfl⟩ := hread
  refine ⟨d, hd, hcell.isNearest hp, round_of_cell hp hx (Nat.pow_pos (by decide)).ne' ?_⟩
  rwa [Nat.cast_mul, mul_div_assoc, RoundingInterval.ten_pow_div]

/-! ## The two formats -/

/-- Both formats have at least two bits. -/
theorem two_le_precision (hf : f = .single ∨ f = .double) : 2 ≤ f.precision := by
  rcases hf with rfl | rfl <;> decide

/-- Ten million is a number of both formats. -/
theorem exists_cell_tenMillion (hf : f = .single ∨ f = .double) :
    ∃ k, f.Cell k (10 ^ (7 : Int)) ∧ (10 : ℚ) ^ (7 : Int) ≤ f.value k := by
  have hrepresents : f.Represents (10 ^ (7 : Int)) := by
    refine ⟨10 ^ 7, 0, ?_, ?_, by norm_num⟩
    · rcases hf with rfl | rfl <;> decide
    · rcases hf with rfl | rfl <;> decide
  obtain ⟨k, hk⟩ := BinaryFormat.exists_eq_value (two_le_precision hf) hrepresents
  rw [hk]
  exact ⟨k, BinaryFormat.cell_value k, le_refl _⟩

/-- A thousandth is a number of neither format, but both round it up. -/
theorem exists_cell_thousandth (hf : f = .single ∨ f = .double) :
    ∃ k, f.Cell k (10 ^ (-3 : Int)) ∧ (10 : ℚ) ^ (-3 : Int) ≤ f.value k := by
  have hfraction : (10 : ℚ) ^ (-3 : Int) = (1 : Nat) / (1000 : Nat) := by norm_num
  have hp := two_le_precision hf
  rw [hfraction]
  rcases hf with rfl | rfl
  · refine ⟨116 * BinaryFormat.single.leadingOne + 8589935,
      cell_of_roundMagnitude hp (by decide) (by decide) (by decide), ?_⟩
    rw [BinaryFormat.value_mul_add (.inr (by decide)) (by decide),
      show BinaryFormat.single.minExponent = -149 from rfl]
    norm_num
  · refine ⟨1012 * BinaryFormat.double.leadingOne + 4611686018427388,
      cell_of_roundMagnitude hp (by decide) (by decide) (by decide), ?_⟩
    rw [BinaryFormat.value_mul_add (.inr (by decide)) (by decide),
      show BinaryFormat.double.minExponent = -1074 from rfl]
    norm_num

/-- A power of ten that is rounded up, or not at all, is compared with a number as it is with the
shortest decimal of the number. -/
theorem ten_zpow_le_shortest_iff_le_value {m k : Nat} {e : Int} (hp : 2 ≤ f.precision) (hm : m ≠ 0)
    (hk : f.Cell k (10 ^ e)) (hup : (10 : ℚ) ^ e ≤ f.value k) :
    (10 : ℚ) ^ e ≤ (Decimal.shortest f (f.significand m) (f.exponent m)).value ↔
      (10 : ℚ) ^ e ≤ f.value m :=
  (Decimal.ten_zpow_le_shortest_iff hp hm hk).trans (hk.le_value_iff hup).symm

/-- A finite number is written as its sign and its decimal, and zero as `0.0`. -/
theorem toList_number (h : x.unpack = .finite negative significand exponent) :
    (Layout.display.number x).toList = Decimal.sign negative ++
      if significand = 0 then Layout.positional (Layout.zeros 1) 0
      else Layout.display.decimal (.shortest f significand exponent) := by
  rw [Layout.number, h]
  dsimp only
  split
  · cases negative <;> rfl
  · rw [String.toList_append, String.toList_ofList]
    cases negative <;> rfl

/-- Zero is written and read with its sign. -/
theorem display_zero (negative : Bool) :
    Decimal.IsPositional (Decimal.sign negative ++ Layout.positional (Layout.zeros 1) 0) ∧
      Decimal.ReadsAs (Decimal.sign negative ++ Layout.positional (Layout.zeros 1) 0) negative
        (f.value 0) := by
  have hspec := Decimal.positional_spec Layout.isDigits_zero negative 0
  have hvalue : (Nat.ofDigitChars 10 (Layout.zeros 1) 0 : ℚ) * 10 ^ (0 : Int) = f.value 0 := by
    rw [Layout.zeros, Nat.ofDigitChars_replicate_zero, BinaryFormat.value_zero]
    simp
  rwa [hvalue] at hspec

/-- The shortest decimal is written in the form that the size of the number asks for, and what is
written is read as something that rounds to the number. -/
theorem display_shortest (hf : f = .single ∨ f = .double) {m : Nat} (hm : m ≠ 0)
    {text : List Char} (htext : text = Decimal.sign negative ++
      Layout.display.decimal (.shortest f (f.significand m) (f.exponent m))) :
    (1 / 1000 ≤ f.value m ∧ f.value m < 10 ^ 7 → Decimal.IsPositional text) ∧
      (¬ (1 / 1000 ≤ f.value m ∧ f.value m < 10 ^ 7) → Decimal.IsScientific text) ∧
      ∃ q, f.Cell m q ∧ Decimal.ReadsAs text negative q := by
  have hp := two_le_precision hf
  obtain ⟨low, hlow, hlowup⟩ := exists_cell_thousandth hf
  obtain ⟨high, hhigh, hhighup⟩ := exists_cell_tenMillion hf
  have hcell := (Decimal.shortest_spec hp hm).1
  -- The decimal is in the cell of a number that is not zero, so it has a digit that is not zero.
  have hdigits : (Decimal.shortest f (f.significand m) (f.exponent m)).digits ≠ 0 := by
    have hone := Decimal.one_le_of_cell hm hcell
    intro hzero
    rw [hzero, Nat.cast_zero] at hone
    exact absurd hone (by norm_num)
  obtain ⟨hplain, hother, hread⟩ := Decimal.display_spec hdigits negative
  rw [← htext] at hplain hother hread
  have hthousandth : (10 : ℚ) ^ (-3 : Int) = 1 / 1000 := by norm_num
  have htenMillion : (10 : ℚ) ^ (7 : Int) = 10 ^ 7 := zpow_natCast 10 7
  rw [ten_zpow_le_shortest_iff_le_value hp hm hlow hlowup,
    ten_zpow_le_shortest_iff_le_value hp hm hhigh hhighup, not_le, hthousandth, htenMillion]
    at hplain hother
  exact ⟨hplain, hother, _, hcell, hread⟩

/-- **A number is spelled as it should be.** -/
theorem isSpelled_display (hf : f = .single ∨ f = .double) (x : Binary f) :
    x.IsSpelled (Layout.display.number x) := by
  have hp := two_le_precision hf
  rw [IsSpelled]
  cases hunpack : x.unpack with
  | nan =>
    rw [Layout.number, hunpack]
  | infinite negative =>
    rw [Layout.number, hunpack]
    cases negative <;> rfl
  | finite negative significand exponent =>
    have htext := toList_number hunpack
    obtain ⟨hnan, rfl, rfl, rfl⟩ := of_unpack_finite hunpack
    have hsize : (f.significand x.magnitude : ℚ) * 2 ^ f.exponent x.magnitude =
        f.value x.magnitude := rfl
    dsimp only
    rw [hsize]
    -- Zero has no shortest decimal, and is written without one.
    by_cases hzero : x.magnitude = 0
    · have hsignificand : f.significand x.magnitude = 0 := by simp [hzero, BinaryFormat.significand]
      have hvalue : f.value x.magnitude = 0 := by rw [hzero, BinaryFormat.value_zero]
      obtain ⟨hform, hread⟩ := display_zero (f := f) x.isNegative
      rw [if_pos hsignificand] at htext
      rw [← htext] at hform hread
      rw [← hzero] at hread
      refine ⟨fun _ => hform, fun hother => absurd (.inl hvalue) hother, ?_⟩
      exact exists_read?_of_cell hp hnan hread (BinaryFormat.cell_value _)
    · have hsignificand := (BinaryFormat.significand_pos (f := f) hzero).ne'
      have hvalue := (BinaryFormat.value_pos (f := f) hzero).ne'
      rw [if_neg hsignificand] at htext
      obtain ⟨hplain, hother, q, hcell, hread⟩ := display_shortest hf hzero htext
      rw [or_iff_right hvalue]
      exact ⟨hplain, hother, exists_read?_of_cell hp hnan hread hcell⟩

/-! ## Reading back -/

/-- The number that is read from a text: an infinity if the text is no decimal. -/
def ofText (text : String) : Binary f :=
  match Decimal.read? text.toList with
  | some (negative, d) => d.round negative
  | none => infinity (text = "-Infinity")

/-- A number that is spelled as it should be is read back. -/
theorem IsSpelled.ofText_eq {text : String} (h : x.IsSpelled text) (hx : x.isNaN = false) :
    ofText text = x := by
  rw [IsSpelled] at h
  cases hunpack : x.unpack with
  | nan =>
    rw [unpack_eq, hx, if_neg (by decide)] at hunpack
    split at hunpack <;> cases hunpack
  | infinite negative =>
    rw [hunpack] at h
    -- The words for the infinities are no decimals.
    rw [of_unpack_infinite hunpack, h]
    cases negative <;> rfl
  | finite negative significand exponent =>
    rw [hunpack] at h
    obtain ⟨-, -, d, hread, -, hround⟩ := h
    rw [ofText, hread]
    exact hround

/-- **The text of a number reads back.** It has the form that the size of the number asks for, the
decimal in it rounds to the number, and so no other number has the same text. -/
theorem display_reads_back (hf : f = .single ∨ f = .double) (x : Binary f) :
    x.IsSpelled (Layout.display.number x) ∧
      ∀ y : Binary f, x.isNaN = false → y.isNaN = false →
        Layout.display.number x = Layout.display.number y → x = y := by
  refine ⟨isSpelled_display hf x, fun y hx hy htext => ?_⟩
  calc x = ofText (Layout.display.number x) := ((isSpelled_display hf x).ofText_eq hx).symm
    _ = ofText (Layout.display.number y) := by rw [htext]
    _ = y := (isSpelled_display hf y).ofText_eq hy

/-- The least positive number and the one after it. -/
theorem display_reads_back_least : let x : Binary .double := ⟨1#64⟩
    Layout.display.number x = "5.0E-324" ∧ x.IsSpelled "5.0E-324" ∧
      Layout.display.number x ≠ Layout.display.number (⟨2#64⟩ : Binary .double) := by
  obtain ⟨hspelled, hinj⟩ := display_reads_back (.inr rfl) (⟨1#64⟩ : Binary .double)
  have htext : Layout.display.number (⟨1#64⟩ : Binary .double) = "5.0E-324" := by decide +kernel
  rw [htext] at hspelled
  refine ⟨htext, hspelled, fun heq => ?_⟩
  exact absurd (hinj ⟨2#64⟩ (by decide) (by decide) heq) (by decide)

end Binary

end CallFolding
