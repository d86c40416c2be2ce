import CallFolding.Proofs.Overload
import Mathlib.Algebra.Group.Nat.Defs

/-!
Which operations would throw.

That a call is refused is known from the types of its operands; that it throws depends on the
values. `Throws` lists the calls that do: integers divided by zero, and positions outside a string.

The proof goes the way a fault takes, from the inside out. Numbers and strings come first
(`NumberPair.arith_eq_error_iff`, `Literal.charAt_eq_error_iff`,
`Literal.subSequence_eq_error_iff`), then operations, of which most never throw
(`BinaryOp.result_eq_error_iff`, `applyTernary_eq_error_iff`), then names
(`applyByName_eq_fault_iff`). All of these are about values. Operands declared to be anything
cannot reach an operation that throws (`strict_of_allowsLoose`), so the kinds of the values are the
declared ones.
-/

set_option autoImplicit false

namespace CallFolding

/-- Mapping a result neither makes an error nor loses one. -/
theorem map_eq_error_iff {ε β γ : Type} {f : β → γ} {result : Except ε β} {e : ε} :
    result.map f = .error e ↔ result = .error e := by
  cases result <;> simp [Except.map]

/-! ## Division -/

/-- A kind of integers is one of the kinds of literals. -/
theorem IntegralKind.integral?_kind (kind : IntegralKind) : kind.kind.integral? = some kind := by
  cases kind <;> rfl

/-- A kind is known by the kind of integers it stands for. -/
theorem Kind.eq_of_integral? {kind : Kind} {k : IntegralKind} (h : kind.integral? = some k) :
    kind = k.kind := by
  cases kind <;> cases h <;> rfl

/-- The kind of a literal that is an integer. -/
theorem Literal.kind_of_integral? {a : Literal} {k : IntegralKind} {x : Int}
    (h : a.integral? = some (k, x)) : a.kind = k.kind := by
  apply Kind.eq_of_integral?
  rw [← a.kind_integral?, h]
  rfl

/-- A literal with a kind of integers is an integer. -/
theorem Literal.exists_integral?_of_kind {a : Literal} {k : IntegralKind} (h : a.kind = k.kind) :
    ∃ x, a.integral? = some (k, x) := by
  have hkind := a.kind_integral?
  rw [h, k.integral?_kind, Option.map_eq_some_iff] at hkind
  obtain ⟨⟨kind, x⟩, hintegral, rfl⟩ := hkind
  exact ⟨x, hintegral⟩

namespace NumberPair

/-- Integers cannot be divided by zero, and everything else can be done with them. -/
theorem whole_eq_error_iff {op : Arith} {x y : Int} {fault : Fault} :
    whole op x y = .error fault ↔
      fault = .divisionByZero ∧ (op = .div ∨ op = .rem) ∧ y = 0 := by
  cases op with
  | plus | minus | times => simp [whole]
  | div | rem =>
    by_cases hzero : y = 0
    · simp [whole, hzero, eq_comm]
    · simp [whole, hzero]

/-- Division of floating-point numbers always gives one. -/
theorem arith_eq_error_iff {op : Arith} {pair : NumberPair} {fault : Fault} :
    pair.arith op = .error fault ↔
      fault = .divisionByZero ∧ (op = .div ∨ op = .rem) ∧ ∃ kind x, pair = .integral kind x 0 := by
  cases pair with
  | integral kind x y =>
    rw [arith, map_eq_error_iff, whole_eq_error_iff]
    simp
  | single x y => simp [arith]
  | double x y => simp [arith]

end NumberPair

/-- Two numbers are combined as integers if both are, and are signed alike. -/
theorem Number.pair?_eq_integral_iff {m n : Number} {kind : IntegralKind} {x y : Int} :
    m.pair? n = some (.integral kind x y) ↔
      ∃ k l, m = .integral k x ∧ n = .integral l y ∧ k.isSigned = l.isSigned ∧
        k.common l = kind := by
  cases m <;> cases n <;> grind [Number.pair?]

namespace Literal

theorem number?_eq_integral_iff {a : Literal} {kind : IntegralKind} {x : Int} :
    a.number? = some (.integral kind x) ↔ a.integral? = some (kind, x) := by
  cases a <;> simp [number?, integral?]

/-- Two literals are combined number by number. -/
theorem numberPair?_eq_bind (a b : Literal) :
    a.numberPair? b = a.number?.bind fun m => b.number?.bind m.pair? := by
  unfold numberPair?
  cases a.number? with
  | none => rfl
  | some m => cases b.number? <;> rfl

/-- Two literals are combined as integers if they are integers of one signedness. -/
theorem numberPair?_eq_integral_iff {a b : Literal} {kind : IntegralKind} {x y : Int} :
    a.numberPair? b = some (.integral kind x y) ↔
      ∃ k l, a.integral? = some (k, x) ∧ b.integral? = some (l, y) ∧ k.isSigned = l.isSigned ∧
        k.common l = kind := by
  rw [numberPair?_eq_bind]
  simp only [Option.bind_eq_some_iff, Number.pair?_eq_integral_iff, ← number?_eq_integral_iff]
  constructor
  · rintro ⟨m, hm, n, hn, k, l, rfl, rfl, hsigned, rfl⟩
    exact ⟨k, l, hm, hn, hsigned, rfl⟩
  · rintro ⟨k, l, hm, hn, hsigned, rfl⟩
    exact ⟨_, hm, _, hn, k, l, rfl, rfl, hsigned, rfl⟩

end Literal

namespace BinaryOp

/-- Arithmetic fails exactly when an integer is divided by a zero it can be combined with. -/
theorem applyArith_eq_error_iff {op : Arith} {a b : Literal} {fault : Fault} :
    applyArith op a b = .error fault ↔
      fault = .divisionByZero ∧ (op = .div ∨ op = .rem) ∧
        ∃ k l x, a.integral? = some (k, x) ∧ b.integral? = some (l, 0) ∧
          k.isSigned = l.isSigned := by
  -- Appending to a string and moving a character never fail, and there are no numbers to combine.
  have hpair : applyArith op a b = .error fault ↔
      ∃ pair, a.numberPair? b = some pair ∧ pair.arith op = .error fault := by
    unfold applyArith
    split
    · simp [Literal.numberPair?, Literal.number?]
    · simp [Literal.numberPair?, Literal.number?]
    · simp [Literal.numberPair?, Literal.number?]
    · simp [Literal.numberPair?, Literal.number?]
    · cases a.numberPair? b with
      | none => simp
      | some pair => simp [map_eq_error_iff]
  rw [hpair]
  constructor
  · rintro ⟨pair, hnumbers, herror⟩
    obtain ⟨rfl, hop, kind, x, rfl⟩ := NumberPair.arith_eq_error_iff.mp herror
    obtain ⟨k, l, ha, hb, hsigned, -⟩ := Literal.numberPair?_eq_integral_iff.mp hnumbers
    exact ⟨rfl, hop, k, l, x, ha, hb, hsigned⟩
  · rintro ⟨rfl, hop, k, l, x, ha, hb, hsigned⟩
    refine ⟨.integral (k.common l) x 0, ?_, ?_⟩
    · exact Literal.numberPair?_eq_integral_iff.mpr ⟨k, l, ha, hb, hsigned, rfl⟩
    · exact NumberPair.arith_eq_error_iff.mpr ⟨rfl, hop, k.common l, x, rfl⟩

end BinaryOp

/-! ## Indices -/

namespace Literal

/-- A character is missing exactly at an index below zero or from the length on. The error has both.
-/
theorem charAt_eq_error_iff {s : String} {index : Int32} {fault : Fault} :
    charAt s index = .error fault ↔
      fault = .indexOutOfBounds index (Int32.ofNat (Text.length s)) ∧
        (index.toInt < 0 ∨ (Text.length s : Int) ≤ index.toInt) := by
  simp only [charAt]
  by_cases hneg : index.toInt < 0
  · rw [if_pos hneg]
    simp [hneg, eq_comm]
  · rw [if_neg hneg]
    -- From here on the index is a natural number, and the units are looked up by it.
    by_cases hlt : index.toInt.toNat < (Text.units s).length
    · have hinside : ¬ (Text.length s : Int) ≤ index.toInt := by
        rw [Text.length]
        omega
      rw [List.getElem?_eq_getElem hlt]
      simp [hneg, hinside]
    · have houtside : (Text.length s : Int) ≤ index.toInt := by
        rw [Text.length]
        omega
      rw [List.getElem?_eq_none (Nat.not_lt.mp hlt)]
      simp [houtside, eq_comm]

/-- The start is looked at first: an end is to blame only if the start is inside. Both may be the
length itself. -/
theorem subSequence_eq_error_iff {s : String} {start stop : Int32} {fault : Fault}
    (h : Text.length s < 2 ^ 31) :
    subSequence s start stop = .error fault ↔
      (fault = .indexOutOfBounds start (Int32.ofNat (Text.length s)) ∧
        (start.toInt < 0 ∨ (Text.length s : Int) < start.toInt)) ∨
      (fault = .indexOutOfBounds stop (Int32.ofNat (Text.length s)) ∧
        ¬ (start.toInt < 0 ∨ (Text.length s : Int) < start.toInt) ∧
        (stop.toInt < start.toInt ∨ (Text.length s : Int) < stop.toInt)) := by
  -- The bounds are compared as 32-bit integers; a short string has its length among them.
  have hlength : (Int32.ofNat (Text.length s)).toInt = Text.length s :=
    Int32.toInt_ofNat_of_lt h
  simp only [subSequence, Int32.lt_iff_toInt_lt, hlength, Int32.toInt_zero]
  by_cases hstart : start.toInt < 0 ∨ (Text.length s : Int) < start.toInt
  · rw [if_pos hstart]
    simp [hstart, eq_comm]
  · rw [if_neg hstart]
    by_cases hstop : stop.toInt < start.toInt ∨ (Text.length s : Int) < stop.toInt
    · rw [if_pos hstop]
      simp [hstart, hstop, eq_comm]
    · rw [if_neg hstop]
      simp [hstart, hstop]

end Literal

/-! ## Faults by operation -/

/-- Of the operations on two operands, arithmetic and indexing can throw. -/
theorem BinaryOp.result_eq_error_iff {op : BinaryOp} {a b : Literal} {fault : Fault} :
    op.result a b = .error fault ↔
      (∃ operator, op = .arith operator ∧ applyArith operator a b = .error fault) ∨
      (op = .charAt ∧ ∃ s index, a = .string s ∧ b = .int index ∧
        Literal.charAt s index = .error fault) := by
  cases op with
  | arith operator => simp [result]
  | bitwise operator | logical operator =>
    simp only [result]
    split <;> simp
  | charAt =>
    simp only [result]
    split
    · simp [map_eq_error_iff]
    · rename_i hother
      refine iff_of_false (by simp) ?_
      rintro (⟨operator, harith, -⟩ | ⟨-, s, index, rfl, rfl, -⟩)
      · cases harith
      · exact hother s index rfl rfl
  | _ => simp [result]

/-- Of the operations on three operands, taking out a part of a string can throw. -/
theorem applyTernary_eq_error_iff {name : String} {a b c : Literal} {fault : Fault} :
    applyTernary name a b c = .error fault ↔
      name = "subSequence" ∧ ∃ s start stop, a = .string s ∧ b = .int start ∧ c = .int stop ∧
        Literal.subSequence s start stop = .error fault := by
  unfold applyTernary
  split
  · simp [map_eq_error_iff]
  · rename_i hother
    refine iff_of_false (by simp) ?_
    rintro ⟨rfl, s, start, stop, rfl, rfl, rfl, -⟩
    exact hother s start stop rfl rfl rfl rfl

/-! ## Faults of calls -/

/-- A fault comes from an operation on two or three operands. -/
theorem applyByName_eq_fault_iff {name : String} {operands : List Operand} {fault : Fault} :
    applyByName name operands = .error (.fault fault) ↔ allowsLoose name operands ∧
      ((∃ a b op, operands = [a, b] ∧ BinaryOp.ofName? name = some op ∧
        op.result a.value b.value = .error fault) ∨
      ∃ a b c, operands = [a, b, c] ∧
        applyTernary name a.value b.value c.value = .error fault) := by
  have hfault : ∀ result : Except Fault (Option Literal),
      result.mapError OperationError.fault = .error (.fault fault) ↔ result = .error fault := by
    intro result
    cases result with
    | ok value => constructor <;> intro h <;> cases h
    | error cause =>
      constructor <;> intro h <;> cases h
      · rfl
      · rfl
  -- By the number of operands: only two and three get as far as an operation that can fail.
  by_cases hallowed : allowsLoose name operands
  · rcases operands with _ | ⟨a, _ | ⟨b, _ | ⟨c, _ | ⟨d, rest⟩⟩⟩⟩
    · simp [applyByName, hallowed]
    · simp [applyByName, hallowed]
    · cases hop : BinaryOp.ofName? name with
      | none => simp [applyByName, hallowed, hop]
      | some op => simp [applyByName, hallowed, hop, hfault, and_assoc]
    · simp [applyByName, hallowed, hfault, and_assoc]
    · simp [applyByName, hallowed]
  · simp [applyByName, hallowed]

/-- Whether a call of declared operands throws is settled before its result is looked at. -/
theorem dispatch_eq_fault_iff_apply {name : String} {operands : List Operand} {fault : Fault}
    (h : ∀ operand ∈ operands, operand.HasDeclaredKind) :
    dispatch name operands = .error (.fault fault) ↔
      applyByName name operands = .error (.fault fault) := by
  rw [dispatch_of_declared h]
  cases applyByName name operands with
  | error e => simp [Except.bind]
  | ok value => cases value <;> simp [Except.bind]

/-- The operand is declared with the kind of this value, and holds it. -/
def Operand.Is (operand : Operand) (value : Literal) : Prop :=
  operand.type.kind = value.kind ∧ operand.value = value

/-- The calls that would throw if they ran. -/
inductive Throws : String → List Operand → Fault → Prop
  /-- Integers, both signed or both unsigned, and the divisor is zero. -/
  | division {name : String} {a b : Operand} {k l : IntegralKind}
      (hname : name = "div" ∨ name = "rem") (ha : a.type.kind = k.kind)
      (hb : b.type.kind = l.kind) (hsigned : k.isSigned = l.isSigned)
      (hzero : b.value.integral? = some (l, 0)) : Throws name [a, b] .divisionByZero
  /-- The index is not one of the string. -/
  | index {text position : Operand} {s : String} {index length : Int32}
      (htext : text.Is (.string s)) (hposition : position.Is (.int index))
      (hlength : length.toInt = Text.length s)
      (houtside : index.toInt < 0 ∨ (Text.length s : Int) ≤ index.toInt) :
      Throws "get" [text, position] (.indexOutOfBounds index length)
  /-- The start lies outside the string. -/
  | start {text first last : Operand} {s : String} {start stop length : Int32}
      (htext : text.Is (.string s)) (hfirst : first.Is (.int start)) (hlast : last.Is (.int stop))
      (hlength : length.toInt = Text.length s)
      (houtside : start.toInt < 0 ∨ (Text.length s : Int) < start.toInt) :
      Throws "subSequence" [text, first, last] (.indexOutOfBounds start length)
  /-- The start does not, and the end lies before it or outside the string. -/
  | stop {text first last : Operand} {s : String} {start stop length : Int32}
      (htext : text.Is (.string s)) (hfirst : first.Is (.int start)) (hlast : last.Is (.int stop))
      (hlength : length.toInt = Text.length s)
      (hinside : ¬ (start.toInt < 0 ∨ (Text.length s : Int) < start.toInt))
      (houtside : stop.toInt < start.toInt ∨ (Text.length s : Int) < stop.toInt) :
      Throws "subSequence" [text, first, last] (.indexOutOfBounds stop length)

/-- Operands of any kind are never divided and never index a string. -/
theorem strict_of_allowsLoose {name : String} {op : BinaryOp} {a b : Operand}
    (hop : BinaryOp.ofName? name = some op) (hallowed : allowsLoose name [a, b])
    (hsame : op ≠ .same) (hplus : op ≠ .arith .plus) : ¬ [a, b].any Operand.isLoose := by
  intro hloose
  have hany : a.type.kind = .any ∨ b.type.kind = .any := by
    simpa using any_isLoose_iff.mp hloose
  rw [allowsLoose_pair_iff hop hloose, BinaryOp.isSome_resultKind?_iff hany] at hallowed
  rcases hallowed with rfl | ⟨rfl, -⟩
  · exact hsame rfl
  · exact hplus rfl

/-- An operand with a value of its declared kind is that value. -/
theorem Operand.Is.of_kind_eq {operand : Operand} {value : Literal}
    (h : operand.value.kind = operand.type.kind) (hvalue : operand.value = value) :
    operand.Is value :=
  ⟨by rw [← h, hvalue], hvalue⟩

/-- An operation on two operands that fails is one of the calls that throw. -/
theorem throws_of_result {name : String} {op : BinaryOp} {a b : Operand} {fault : Fault}
    (hdeclared : ∀ operand ∈ [a, b], operand.HasDeclaredKind)
    (hlength : ∀ operand ∈ [a, b], ∀ s, operand.value = .string s → Text.length s < 2 ^ 31)
    (hallowed : allowsLoose name [a, b]) (hop : BinaryOp.ofName? name = some op)
    (herror : op.result a.value b.value = .error fault) : Throws name [a, b] fault := by
  have hname := BinaryOp.ofName?_eq_some_iff.mp hop
  rcases BinaryOp.result_eq_error_iff.mp herror with
    ⟨operator, rfl, harith⟩ | ⟨rfl, s, index, hs, hindex, hcharAt⟩
  · obtain ⟨rfl, hdiv, k, l, x, ha, hb, hsigned⟩ := BinaryOp.applyArith_eq_error_iff.mp harith
    have hplus : BinaryOp.arith operator ≠ .arith .plus := by
      rcases hdiv with rfl | rfl <;> simp
    -- Loose operands are refused before they are divided, so the declared kinds are those of the
    -- values.
    have hkind := kind_eq_of_strict hdeclared
      (strict_of_allowsLoose hop hallowed (by simp) hplus)
    have hname' : name = "div" ∨ name = "rem" := by
      rcases hdiv with rfl | rfl
      · exact .inl (List.mem_singleton.mp hname)
      · exact .inr (List.mem_singleton.mp hname)
    refine .division hname' ?_ ?_ hsigned hb
    · rw [← hkind a (by simp), Literal.kind_of_integral? ha]
    · rw [← hkind b (by simp), Literal.kind_of_integral? hb]
  · obtain rfl : name = "get" := List.mem_singleton.mp hname
    obtain ⟨rfl, houtside⟩ := Literal.charAt_eq_error_iff.mp hcharAt
    have hkind := kind_eq_of_strict hdeclared
      (strict_of_allowsLoose hop hallowed (by simp) (by simp))
    exact .index (.of_kind_eq (hkind a (by simp)) hs) (.of_kind_eq (hkind b (by simp)) hindex)
      (Int32.toInt_ofNat_of_lt (hlength a (by simp) s hs)) houtside

/-- An operation on three operands that fails is one of the calls that throw. -/
theorem throws_of_applyTernary {name : String} {a b c : Operand} {fault : Fault}
    (hdeclared : ∀ operand ∈ [a, b, c], operand.HasDeclaredKind)
    (hlength : ∀ operand ∈ [a, b, c], ∀ s, operand.value = .string s → Text.length s < 2 ^ 31)
    (hallowed : allowsLoose name [a, b, c])
    (herror : applyTernary name a.value b.value c.value = .error fault) :
    Throws name [a, b, c] fault := by
  obtain ⟨rfl, s, start, stop, hs, hstart, hstop, hslice⟩ := applyTernary_eq_error_iff.mp herror
  -- No operation on three operands lets loose ones through.
  have hstrict : ¬ [a, b, c].any Operand.isLoose := by
    intro hloose
    rw [allowsLoose_of_loose hloose (by simp)] at hallowed
    cases hallowed
  have hkind := kind_eq_of_strict hdeclared hstrict
  have htext : a.Is (.string s) := .of_kind_eq (hkind a (by simp)) hs
  have hfirst : b.Is (.int start) := .of_kind_eq (hkind b (by simp)) hstart
  have hlast : c.Is (.int stop) := .of_kind_eq (hkind c (by simp)) hstop
  have hshort := hlength a (by simp) s hs
  have hsize : (Int32.ofNat (Text.length s)).toInt = Text.length s := Int32.toInt_ofNat_of_lt hshort
  rcases (Literal.subSequence_eq_error_iff hshort).mp hslice with
    ⟨rfl, houtside⟩ | ⟨rfl, hinside, houtside⟩
  · exact .start htext hfirst hlast hsize houtside
  · exact .stop htext hfirst hlast hsize hinside houtside

/-- Operands that are declared with kinds of values are let through. -/
theorem allowsLoose_of_kinds {name : String} {operands : List Operand}
    (h : ∀ operand ∈ operands, ∃ value : Literal, operand.type.kind = value.kind) :
    allowsLoose name operands := by
  apply allowsLoose_of_strict
  rw [any_isLoose_iff]
  rintro ⟨operand, hmem, hany⟩
  obtain ⟨value, hkind⟩ := h operand hmem
  rw [hany] at hkind
  cases value <;> cases hkind

/-- A call on one operand by its operation: it has the result, or the signature is unknown. -/
theorem dispatch_unary {name : String} {op : UnaryOp} (hop : UnaryOp.ofName? name = some op)
    {a : Operand} {value : Literal} (ha : a.Is value) :
    dispatch name [a] =
      (op.result? value).elim (.error (.unknownSignature name (signatureText [a]))) .ok := by
  have hdeclared : ∀ operand ∈ [a], operand.HasDeclaredKind := by
    simp [Operand.HasDeclaredKind, ha.1, ha.2]
  have hallowed : allowsLoose name [a] := allowsLoose_of_kinds (by simpa using ⟨value, ha.1⟩)
  rw [dispatch_of_declared hdeclared, applyByName, if_pos hallowed]
  simp only [hop, ha.2]
  rfl

/-- A call on two operands by its operation, which may also throw. -/
theorem dispatch_binary {name : String} {op : BinaryOp} (hop : BinaryOp.ofName? name = some op)
    {a b : Operand} {x y : Literal} (ha : a.Is x) (hb : b.Is y) :
    dispatch name [a, b] = ((op.result x y).mapError .fault).bind fun value =>
      value.elim (.error (.unknownSignature name (signatureText [a, b]))) .ok := by
  have hdeclared : ∀ operand ∈ [a, b], operand.HasDeclaredKind := by
    simp [Operand.HasDeclaredKind, ha.1, ha.2, hb.1, hb.2]
  have hallowed : allowsLoose name [a, b] :=
    allowsLoose_of_kinds (by simpa using ⟨⟨x, ha.1⟩, ⟨y, hb.1⟩⟩)
  rw [dispatch_of_declared hdeclared, applyByName, if_pos hallowed]
  simp only [hop, ha.2, hb.2]

/-- A length is stored as the 32-bit integer of its value. -/
theorem eq_ofNat_of_toInt {length : Int32} {n : Nat} (h : length.toInt = n) (hn : n < 2 ^ 31) :
    length = Int32.ofNat n := by
  rw [← Int32.toInt_inj, h, Int32.toInt_ofNat_of_lt hn]

theorem applyByName_of_division {name : String} {a b : Operand} {k l : IntegralKind}
    (hdeclared : a.HasDeclaredKind) (hname : name = "div" ∨ name = "rem")
    (ha : a.type.kind = k.kind) (hb : b.type.kind = l.kind) (hsigned : k.isSigned = l.isSigned)
    (hzero : b.value.integral? = some (l, 0)) :
    applyByName name [a, b] = .error (.fault .divisionByZero) := by
  have hkinds : ∀ operand ∈ [a, b], ∃ value : Literal, operand.type.kind = value.kind := by
    simp only [List.forall_mem_cons, ha, hb]
    exact ⟨⟨_, (k.kind_literal 0).symm⟩, ⟨_, (l.kind_literal 0).symm⟩, by simp⟩
  -- An operand declared as an integer is not declared to be anything.
  have hkind : a.value.kind = k.kind := by
    rcases hdeclared with hany | hkind
    · rw [ha] at hany
      cases k <;> cases hany
    · rw [hkind, ha]
  obtain ⟨x, hx⟩ := Literal.exists_integral?_of_kind hkind
  obtain ⟨operator, hop, hdiv⟩ : ∃ operator, BinaryOp.ofName? name = some (.arith operator) ∧
      (operator = .div ∨ operator = .rem) := by
    rcases hname with rfl | rfl
    · exact ⟨.div, BinaryOp.ofName?_eq_some_iff.mpr (by decide), .inl rfl⟩
    · exact ⟨.rem, BinaryOp.ofName?_eq_some_iff.mpr (by decide), .inr rfl⟩
  have harith := BinaryOp.applyArith_eq_error_iff.mpr ⟨rfl, hdiv, k, l, x, hx, hzero, hsigned⟩
  have hresult := BinaryOp.result_eq_error_iff.mpr (.inl ⟨operator, rfl, harith⟩)
  exact applyByName_eq_fault_iff.mpr
    ⟨allowsLoose_of_kinds hkinds, .inl ⟨a, b, _, rfl, hop, hresult⟩⟩

/-- An index that fails makes the call throw. -/
theorem applyByName_of_charAt {text position : Operand} {s : String} {index : Int32}
    {fault : Fault} (htext : text.Is (.string s)) (hposition : position.Is (.int index))
    (h : Literal.charAt s index = .error fault) :
    applyByName "get" [text, position] = .error (.fault fault) := by
  have hkinds : ∀ operand ∈ [text, position], ∃ value : Literal,
      operand.type.kind = value.kind := by
    simp only [List.forall_mem_cons]
    exact ⟨⟨_, htext.1⟩, ⟨_, hposition.1⟩, by simp⟩
  have hop : BinaryOp.ofName? "get" = some .charAt :=
    BinaryOp.ofName?_eq_some_iff.mpr (by decide)
  have hresult : BinaryOp.charAt.result text.value position.value = .error fault :=
    BinaryOp.result_eq_error_iff.mpr (.inr ⟨rfl, s, index, htext.2, hposition.2, h⟩)
  exact applyByName_eq_fault_iff.mpr
    ⟨allowsLoose_of_kinds hkinds, .inl ⟨text, position, _, rfl, hop, hresult⟩⟩

/-- Bounds that fail make the call throw. -/
theorem applyByName_of_subSequence {text first last : Operand} {s : String}
    {start stop : Int32} {fault : Fault} (htext : text.Is (.string s))
    (hfirst : first.Is (.int start)) (hlast : last.Is (.int stop))
    (h : Literal.subSequence s start stop = .error fault) :
    applyByName "subSequence" [text, first, last] = .error (.fault fault) := by
  have hkinds : ∀ operand ∈ [text, first, last], ∃ value : Literal,
      operand.type.kind = value.kind := by
    simp only [List.forall_mem_cons]
    exact ⟨⟨_, htext.1⟩, ⟨_, hfirst.1⟩, ⟨_, hlast.1⟩, by simp⟩
  have hresult := applyTernary_eq_error_iff.mpr
    ⟨rfl, s, start, stop, htext.2, hfirst.2, hlast.2, h⟩
  exact applyByName_eq_fault_iff.mpr
    ⟨allowsLoose_of_kinds hkinds, .inr ⟨text, first, last, rfl, hresult⟩⟩

theorem applyByName_of_throws {name : String} {operands : List Operand} {fault : Fault}
    (hdeclared : ∀ operand ∈ operands, operand.HasDeclaredKind)
    (hlength : ∀ operand ∈ operands, ∀ s, operand.value = .string s → Text.length s < 2 ^ 31)
    (h : Throws name operands fault) : applyByName name operands = .error (.fault fault) := by
  cases h with
  | @division _ a b k l hname ha hb hsigned hzero =>
    exact applyByName_of_division (hdeclared a (by simp)) hname ha hb hsigned hzero
  | @index text position s index length htext hposition hsize houtside =>
    obtain rfl := eq_ofNat_of_toInt hsize (hlength text (by simp) s htext.2)
    exact applyByName_of_charAt htext hposition
      (Literal.charAt_eq_error_iff.mpr ⟨rfl, houtside⟩)
  | @start text first last s start stop length htext hfirst hlast hsize houtside =>
    have hshort := hlength text (by simp) s htext.2
    obtain rfl := eq_ofNat_of_toInt hsize hshort
    exact applyByName_of_subSequence htext hfirst hlast
      ((Literal.subSequence_eq_error_iff hshort).mpr (.inl ⟨rfl, houtside⟩))
  | @stop text first last s start stop length htext hfirst hlast hsize hinside houtside =>
    have hshort := hlength text (by simp) s htext.2
    obtain rfl := eq_ofNat_of_toInt hsize hshort
    exact applyByName_of_subSequence htext hfirst hlast
      ((Literal.subSequence_eq_error_iff hshort).mpr (.inr ⟨rfl, hinside, houtside⟩))

/-- **Operations fail exactly where they would throw.** The length of a string is a 32-bit integer,
so the string must be short enough to have one. -/
theorem dispatch_eq_fault_iff (name : String) {operands : List Operand} (fault : Fault)
    (hdeclared : ∀ operand ∈ operands, operand.HasDeclaredKind)
    (hlength : ∀ operand ∈ operands, ∀ s, operand.value = .string s → Text.length s < 2 ^ 31) :
    dispatch name operands = .error (.fault fault) ↔ Throws name operands fault := by
  rw [dispatch_eq_fault_iff_apply hdeclared]
  constructor
  -- A fault is followed down to the operation it comes from; two and three operands can have one.
  · intro h
    obtain ⟨hallowed, ⟨a, b, op, rfl, hop, herror⟩ | ⟨a, b, c, rfl, herror⟩⟩ :=
      applyByName_eq_fault_iff.mp h
    · exact throws_of_result hdeclared hlength hallowed hop herror
    · exact throws_of_applyTernary hdeclared hlength hallowed herror
  · exact applyByName_of_throws hdeclared hlength

/-- Three characters, of which one is a pair, are four units. -/
theorem dispatch_eq_fault_iff_pair :
    let operands : List Operand :=
      [.ofLiteral (.string "a😀b"), .ofLiteral (.int 1), .ofLiteral (.int 5)]
    (∀ operand ∈ operands, operand.HasDeclaredKind) ∧
    (∀ operand ∈ operands, ∀ s, operand.value = .string s → Text.length s < 2 ^ 31) ∧
    Throws "subSequence" operands (.indexOutOfBounds 5 4) ∧
    dispatch "subSequence" operands = .error (.fault (.indexOutOfBounds 5 4)) := by
  intro operands
  have hdeclared : ∀ operand ∈ operands, operand.HasDeclaredKind := by
    simp [operands, Operand.HasDeclaredKind, Operand.ofLiteral, Literal.type]
  have hfour : Text.length "a😀b" = 4 := by decide +kernel
  have hlength : ∀ operand ∈ operands, ∀ s, operand.value = .string s →
      Text.length s < 2 ^ 31 := by
    simp [operands, Operand.ofLiteral, hfour]
  have hthrows : Throws "subSequence" operands (.indexOutOfBounds 5 4) :=
    .stop ⟨rfl, rfl⟩ ⟨rfl, rfl⟩ ⟨rfl, rfl⟩ (by rw [hfour]; decide) (by rw [hfour]; decide)
      (by rw [hfour]; decide)
  exact ⟨hdeclared, hlength, hthrows,
    (dispatch_eq_fault_iff "subSequence" _ hdeclared hlength).mpr hthrows⟩

end CallFolding
