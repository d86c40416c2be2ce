import CallFolding.Operation.Dispatch

/-!
Which operation a name stands for is settled by the declared types of the operands.

`resolve` is the table of operations: from a name and declared types it tells whether there is such
an operation, and of which kind its results are. It knows no values. `Kind.any` has a row only
where operands of any kind are allowed, so the table needs no rule about them.

The other side goes by the values. Each operation gives a result of the kind that the table has for
the kinds of its operands (`UnaryOp.kind_result?`, `BinaryOp.yields_result`), and an operand of the
declared kind is as good as its declaration (`BinaryOp.resultKind?_of_declared`). Together they say
that `dispatch` does what the table says (`admits_dispatch`).
-/

set_option autoImplicit false

namespace CallFolding

/-! ## Kinds of numbers -/

/-- The kind of the literals that are integers of this kind. -/
def IntegralKind.kind : IntegralKind → Kind
  | byte => .byte
  | short => .short
  | int => .int
  | long => .long
  | uByte => .uByte
  | uShort => .uShort
  | uInt => .uInt
  | uLong => .uLong

namespace Kind

/-- The kind of integers that literals of this kind are, if they are any. -/
def integral? : Kind → Option IntegralKind
  | byte => some .byte
  | short => some .short
  | int => some .int
  | long => some .long
  | uByte => some .uByte
  | uShort => some .uShort
  | uInt => some .uInt
  | uLong => some .uLong
  | _ => none

/-- Kinds of floating-point numbers. -/
def isReal : Kind → Bool
  | float | double => true
  | _ => false

/-- The kind in which numbers of two kinds are combined, if they can be. -/
def common? (k l : Kind) : Option Kind :=
  match k.integral?, l.integral? with
  | some k, some l => if k.isSigned = l.isSigned then some (k.common l).kind else none
  | some k, none => if k.isSigned ∧ l.isReal then some l else none
  | none, some l => if k.isReal ∧ l.isSigned then some k else none
  | none, none =>
    if k.isReal ∧ l.isReal then (if k = float then some l else some double) else none

/-- The kind of a number with a sign in front of it. -/
def signed? (kind : Kind) : Option Kind :=
  match kind.integral? with
  | some k => if k.isSigned then some (k.common k).kind else none
  | none => if kind.isReal then some kind else none

/-- The kind of two integers, if they are of one kind. -/
def shared? (k l : Kind) : Option Kind :=
  match k.integral?, l.integral? with
  | some k, some l => if k = l then some k.kind else none
  | _, _ => none

/-- The kind of an integer that is shifted. -/
def shifted? (k : Kind) (direction : Shift) (l : Kind) : Option Kind :=
  match k.integral? with
  | some k =>
    if l = int ∧ 32 ≤ k.width ∧ (k.isSigned ∨ direction ≠ .unsignedRight) then some k.kind
    else none
  | none => none

end Kind

/-- The kind in which two numbers have been brought together. -/
def NumberPair.kind : NumberPair → Kind
  | integral kind _ _ => kind.kind
  | single _ _ => .float
  | double _ _ => .double

/-- The kind that a conversion leads to. -/
def Conversion.kind : Conversion → Kind
  | char => .char
  | integral kind => kind.kind
  | float => .float
  | double => .double

theorem IntegralKind.kind_literal (kind : IntegralKind) (n : Int) :
    (kind.literal n).kind = kind.kind := by
  cases kind <;> rfl

/-- A converted integer is of the target's kind. -/
theorem Conversion.kind_ofInt (target : Conversion) (n : Int) :
    (target.ofInt n).kind = target.kind := by
  cases target with
  | integral kind => exact kind.kind_literal n
  | char | float | double => rfl

theorem Conversion.kind_ofBinary (target : Conversion) {f : BinaryFormat} (x : Binary f) :
    (target.ofBinary x).kind = target.kind := by
  cases target with
  | integral kind =>
    rw [ofBinary]
    split
    · exact kind.kind_literal _
    · exact kind.kind_literal _
  | char | float | double => rfl

namespace Literal

theorem kind_integral? (a : Literal) : a.integral?.map Prod.fst = a.kind.integral? := by
  cases a <;> rfl

/-- Two literals are combined in the common kind of theirs, if there is one. -/
theorem kind_numberPair? (a b : Literal) :
    (a.numberPair? b).map NumberPair.kind = a.kind.common? b.kind := by
  cases a <;> cases b <;> rfl

/-- Bits are combined in integers of one kind, and stay in it. -/
theorem kind_bitwise? (a : Literal) (op : Bitwise) (b : Literal) :
    (a.bitwise? op b).map kind = a.kind.shared? b.kind := by
  unfold bitwise?
  rw [Kind.shared?, ← a.kind_integral?, ← b.kind_integral?]
  cases a.integral? with
  | none => rfl
  | some x =>
    cases b.integral? with
    | none => rfl
    | some y =>
      obtain ⟨k, x⟩ := x
      obtain ⟨l, y⟩ := y
      by_cases hkind : k = l
      · simp only [if_pos hkind, Option.map_some, IntegralKind.kind_literal]
      · simp only [if_neg hkind, Option.map_some, Option.map_none]

/-- A shift keeps the kind of what is shifted, and is there for wide integers only. -/
theorem kind_shift? (a : Literal) (direction : Shift) (b : Literal) :
    (a.shift? direction b).map kind = a.kind.shifted? direction b.kind := by
  unfold shift?
  rw [Kind.shifted?, ← a.kind_integral?]
  cases a.integral? with
  | none => rfl
  | some x =>
    obtain ⟨k, x⟩ := x
    cases b with
    | int count =>
      have hint : (int count).kind = Kind.int := rfl
      -- A count is there, so it depends on the width and on the direction for unsigned integers.
      by_cases hwidth : k.width < 32
      · have hnarrow : ¬ 32 ≤ k.width := Nat.not_le.mpr hwidth
        simp [hwidth, hnarrow]
      · have hwide : 32 ≤ k.width := Nat.not_lt.mp hwidth
        cases direction <;> cases hsigned : k.isSigned <;>
          simp [hint, hwidth, hwide, hsigned, IntegralKind.kind_literal]
    | _ => rfl

/-- Negating widens an integer to at least 32 bits, and leaves out the unsigned ones. -/
theorem kind_negate? (a : Literal) : a.negate?.map kind = a.kind.signed? := by
  cases a <;> rfl

theorem kind_affirm? (a : Literal) : a.affirm?.map kind = a.kind.signed? := by
  cases a <;> rfl

end Literal

/-! ## The table -/

namespace UnaryOp

/-- The kind of the results on operands of this kind. -/
def resultKind? : UnaryOp → Kind → Option Kind
  | not, kind => if kind = .boolean then some .boolean else none
  | negate, kind => kind.signed?
  | affirm, kind => kind.signed?
  | invert, kind => kind.integral?.map IntegralKind.kind
  | display, kind => if kind = .any then none else some .string
  | length, kind => if kind = .string then some .int else none
  | convert target, kind =>
    if kind = .char ∨ kind.integral?.isSome ∨ kind.isReal then some target.kind else none

/-- An operation on one operand goes by the kind of the operand. -/
theorem kind_result? (op : UnaryOp) (a : Literal) :
    (op.result? a).map Literal.kind = op.resultKind? a.kind := by
  cases op with
  | not => cases a <;> rfl
  | negate => exact a.kind_negate?
  | affirm => exact a.kind_affirm?
  | invert =>
    rw [resultKind?, ← a.kind_integral?, Option.map_map, result?, Literal.invert?, Option.map_map]
    congr 1
    funext ⟨kind, n⟩
    exact kind.kind_literal _
  | display => cases a <;> rfl
  | length => cases a <;> rfl
  | convert target =>
    cases a with
    | unit | boolean | string => rfl
    | float x => exact congrArg some (target.kind_ofBinary x)
    | double x => exact congrArg some (target.kind_ofBinary x)
    | _ => exact congrArg some (target.kind_ofInt _)

end UnaryOp

namespace BinaryOp

/-- The kind of the results on operands of these kinds. -/
def resultKind? (op : BinaryOp) (k l : Kind) : Option Kind :=
  match op with
  | arith op =>
    match op, k, l with
    | .plus, .string, _ => some .string
    | .plus, .char, .int => some .char
    | .minus, .char, .int => some .char
    | .minus, .char, .char => some .int
    | _, k, l => k.common? l
  | compare _ =>
    if k = .char ∧ l = .char then some .boolean else (k.common? l).map fun _ => .boolean
  | same => some .boolean
  | equal => (k.common? l).map fun _ => .boolean
  | bitwise _ => if k = .boolean ∧ l = .boolean then some .boolean else k.shared? l
  | logical _ => if k = .boolean ∧ l = .boolean then some .boolean else none
  | shift direction => k.shifted? direction l
  | compareTo =>
    if (k = .boolean ∨ k = .char ∨ k = .string) ∧ l = k then some .int
    else (k.common? l).map fun _ => .int
  | charAt => if k = .string ∧ l = .int then some .char else none

end BinaryOp

/-- A result is of this kind; where there is none, there is no operation. An operation that would
throw is one. -/
def Yields (kind? : Option Kind) : Except Fault (Option Literal) → Prop
  | .ok value => value.map Literal.kind = kind?
  | .error _ => kind?.isSome

/-- An operation that can throw still has one kind of results. -/
theorem Yields.of_map {kind : Kind} {result : Except Fault Literal}
    (h : ∀ value, result = .ok value → value.kind = kind) :
    Yields (some kind) (result.map some) := by
  cases result with
  | ok value => exact congrArg some (h value rfl)
  | error fault => rfl

/-- Arithmetic stays in the kind of its pair. -/
theorem NumberPair.kind_of_arith {op : Arith} {pair : NumberPair} {value : Literal}
    (h : pair.arith op = .ok value) : value.kind = pair.kind := by
  cases pair with
  | integral kind x y =>
    rw [arith] at h
    cases hwhole : whole op x y with
    | error fault =>
      rw [hwhole] at h
      cases h
    | ok n =>
      rw [hwhole] at h
      cases h
      exact kind.kind_literal n
  | single x y =>
    cases h
    rfl
  | double x y =>
    cases h
    rfl

/-- What is taken out of a string at an index is a character. -/
theorem Literal.kind_of_charAt {s : String} {index : Int32} {value : Literal}
    (h : Literal.charAt s index = .ok value) : value.kind = .char := by
  simp only [Literal.charAt] at h
  split at h
  · cases h
  · split at h <;> cases h
    rfl

/-- What is taken out of a string between two bounds is a string. -/
theorem Literal.kind_of_subSequence {s : String} {start stop : Int32} {value : Literal}
    (h : Literal.subSequence s start stop = .ok value) : value.kind = .string := by
  simp only [Literal.subSequence] at h
  split at h
  · cases h
  · split at h <;> cases h
    rfl

namespace BinaryOp

/-- Whatever is made of two numbers, there is one exactly if the numbers have a common kind. -/
theorem kind_map_numberPair? {f : NumberPair → Literal} {kind : Kind}
    (h : ∀ pair, (f pair).kind = kind) (a b : Literal) :
    ((a.numberPair? b).map f).map Literal.kind = (a.kind.common? b.kind).map fun _ => kind := by
  rw [← a.kind_numberPair? b, Option.map_map, Option.map_map]
  congr 1
  funext pair
  exact h pair

/-- Arithmetic of numbers goes by their common kind. -/
theorem yields_numbers (op : Arith) (a b : Literal) :
    Yields (a.kind.common? b.kind) (match a.numberPair? b with
      | some pair => (pair.arith op).map some
      | none => .ok none) := by
  rw [← a.kind_numberPair? b]
  cases a.numberPair? b with
  | none => rfl
  | some pair => exact .of_map fun _ => NumberPair.kind_of_arith

/-- Arithmetic has its row in the table, on strings and characters too. -/
theorem yields_arith (op : Arith) (a b : Literal) :
    Yields (resultKind? (arith op) a.kind b.kind) (applyArith op a b) := by
  cases op with
  | plus =>
    cases a with
    | string s => rfl
    | char c => cases b <;> rfl
    | _ => exact yields_numbers .plus _ b
  | minus =>
    cases a with
    | char c => cases b <;> rfl
    | _ => exact yields_numbers .minus _ b
  | times => exact yields_numbers .times a b
  | div => exact yields_numbers .div a b
  | rem => exact yields_numbers .rem a b

/-- An operation on two operands goes by the kinds of the operands. -/
theorem yields_result (op : BinaryOp) (a b : Literal) :
    Yields (op.resultKind? a.kind b.kind) (op.result a b) := by
  cases op with
  | arith op => exact yields_arith op a b
  | compare test =>
    -- Besides numbers, only characters are compared.
    cases a with
    | unit | boolean | char | string => cases b <;> rfl
    | _ =>
      refine kind_map_numberPair? (fun _ => ?_) _ b
      rfl
  | same => rfl
  | equal =>
    refine kind_map_numberPair? (fun _ => ?_) a b
    rfl
  | bitwise op =>
    cases a with
    | boolean x => cases b <;> rfl
    | _ => exact Literal.kind_bitwise? _ op b
  | logical op =>
    cases a with
    | boolean x => cases b <;> rfl
    | _ => rfl
  | shift direction => exact a.kind_shift? direction b
  | compareTo =>
    cases a with
    | unit | boolean | char | string => cases b <;> rfl
    | _ =>
      refine kind_map_numberPair? (fun _ => ?_) _ b
      rfl
  | charAt =>
    cases a with
    | string s =>
      cases b with
      | int index => exact .of_map fun _ => Literal.kind_of_charAt
      | _ => rfl
    | _ => rfl

end BinaryOp

/-- The one row for three operands. -/
def ternaryKind? (name : String) (k l m : Kind) : Option Kind :=
  if name = "subSequence" ∧ k = .string ∧ l = .int ∧ m = .int then some .string else none

theorem yields_applyTernary (name : String) (a b c : Literal) :
    Yields (ternaryKind? name a.kind b.kind c.kind) (applyTernary name a b c) := by
  unfold applyTernary
  split
  · rename_i s start stop
    exact .of_map fun _ => Literal.kind_of_subSequence
  · rename_i hother
    -- Any other name or kind is missing in the table as well.
    have hnone : ternaryKind? name a.kind b.kind c.kind = none := by
      refine if_neg ?_
      rintro ⟨rfl, ha, hb, hc⟩
      cases a <;> cases ha
      cases b <;> cases hb
      cases c <;> cases hc
      exact hother _ _ _ rfl rfl rfl rfl
    rw [hnone]
    rfl

/-! ## Names -/

/-- The names of an operation on two operands. -/
def BinaryOp.names : BinaryOp → List String
  | arith .plus => ["plus"]
  | arith .minus => ["minus"]
  | arith .times => ["times"]
  | arith .div => ["div"]
  | arith .rem => ["rem"]
  | compare .less => ["less"]
  | compare .lessOrEqual => ["lessOrEqual"]
  | compare .greater => ["greater"]
  | compare .greaterOrEqual => ["greaterOrEqual"]
  | same => ["equals", "EQEQ"]
  | equal => ["ieee754equals"]
  | bitwise .and => ["and"]
  | bitwise .or => ["or"]
  | bitwise .xor => ["xor"]
  | logical .and => ["ANDAND"]
  | logical .or => ["OROR"]
  | logical .xor => []
  | shift .left => ["shl"]
  | shift .right => ["shr"]
  | shift .unsignedRight => ["ushr"]
  | compareTo => ["compareTo"]
  | charAt => ["get"]

/-- Each operation goes by its own names, and by no others. -/
theorem BinaryOp.ofName?_eq_some_iff {name : String} {op : BinaryOp} :
    ofName? name = some op ↔ name ∈ op.names := by
  constructor
  · intro h
    unfold ofName? at h
    split at h <;> cases h <;> decide
  -- Operations with two names are why the list is gone through, and not the name.
  · have hnames : ∀ name ∈ op.names, ofName? name = some op := by
      unfold names
      split <;> decide
    exact hnames name

/-! ## Operands of any kind -/

/-- Numbers are not combined with operands of any kind. -/
theorem Kind.common?_any_left (kind : Kind) : Kind.common? .any kind = none := by
  cases kind <;> rfl

theorem Kind.common?_any_right (kind : Kind) : kind.common? .any = none := by
  cases kind <;> rfl

/-- No operation takes a single operand of any kind. -/
theorem UnaryOp.resultKind?_any (op : UnaryOp) : op.resultKind? .any = none := by
  cases op <;> rfl

namespace BinaryOp

/-- The table has one row where anything may stand on the left, that of sameness. -/
theorem eq_same_of_any_left {op : BinaryOp} {l kind : Kind}
    (h : op.resultKind? .any l = some kind) : op = same := by
  cases op with
  | same => rfl
  | arith op => cases op <;> simp [resultKind?, Kind.common?_any_left] at h
  | compare test => simp [resultKind?, Kind.common?_any_left] at h
  | equal => simp [resultKind?, Kind.common?_any_left] at h
  | compareTo => simp [resultKind?, Kind.common?_any_left] at h
  | bitwise op | logical op | shift direction | charAt => cases h

/-- Where anything may stand on the right, there is one more: appending to a string. -/
theorem same_or_plus_of_any_right {op : BinaryOp} {k kind : Kind}
    (h : op.resultKind? k .any = some kind) : op = same ∨ op = arith .plus ∧ k = .string := by
  cases op with
  | same => exact .inl rfl
  | arith op =>
    by_cases hplus : op = .plus ∧ k = .string
    · exact .inr ⟨congrArg arith hplus.1, hplus.2⟩
    · -- The other rows of arithmetic are for numbers, or name the kind on the right.
      have hcommon : resultKind? (arith op) k .any = k.common? .any := by
        cases op with
        | plus =>
          cases k with
          | string => exact absurd ⟨rfl, rfl⟩ hplus
          | _ => rfl
        | minus => cases k <;> rfl
        | times | div | rem => rfl
      rw [hcommon, Kind.common?_any_right] at h
      cases h
  | compare test => simp [resultKind?, Kind.common?_any_right] at h
  | equal => simp [resultKind?, Kind.common?_any_right] at h
  | compareTo => cases k <;> cases h
  | bitwise op => cases k <;> cases h
  | logical op => simp [resultKind?] at h
  | shift direction => cases k <;> cases h
  | charAt => simp [resultKind?] at h

/-- Operands of any kind only exist for sameness and for appending to a string. -/
theorem isSome_resultKind?_iff {op : BinaryOp} {k l : Kind} (h : k = .any ∨ l = .any) :
    (op.resultKind? k l).isSome ↔ op = same ∨ op = arith .plus ∧ k = .string := by
  constructor
  · intro hsome
    obtain ⟨kind, hkind⟩ := Option.isSome_iff_exists.mp hsome
    rcases h with rfl | rfl
    · exact .inl (eq_same_of_any_left hkind)
    · exact same_or_plus_of_any_right hkind
  -- Both rows are there whatever the other kind is.
  · rintro (rfl | ⟨rfl, rfl⟩)
    · rfl
    · rfl

end BinaryOp

/-! ## Operands as they are declared -/

namespace Operand

/-- The value is of the declared kind. Where anything is declared, everything is. -/
def HasDeclaredKind (operand : Operand) : Prop :=
  operand.type.kind = .any ∨ operand.value.kind = operand.type.kind

/-- What is checked of an operand is that it has its declared kind. -/
theorem isWellTyped_iff {operand : Operand} :
    operand.isWellTyped ↔ operand.HasDeclaredKind := by
  obtain ⟨⟨kind, nullable⟩, value⟩ := operand
  cases kind with
  | any => simp [isWellTyped, HasDeclaredKind]
  | named name => cases value <;> simp [isWellTyped, HasDeclaredKind, Literal.kind]
  | _ => simp [isWellTyped, HasDeclaredKind]

/-- Loose operands are those declared to be anything. -/
theorem isLoose_iff {operand : Operand} : operand.isLoose ↔ operand.type.kind = .any := by
  obtain ⟨⟨kind, nullable⟩, value⟩ := operand
  cases kind <;> simp [isLoose]

end Operand

/-- Operands as they are declared are only told from the operation and what it gives. -/
theorem dispatch_of_declared {name : String} {operands : List Operand}
    (h : ∀ operand ∈ operands, operand.HasDeclaredKind) :
    dispatch name operands = (applyByName name operands).bind fun value =>
      value.elim (.error (.unknownSignature name (signatureText operands))) .ok := by
  -- The first thing that is looked for is an operand that is not as declared.
  have hnone : operands.find? (!·.isWellTyped) = none := by
    rw [List.find?_eq_none]
    intro operand hmem
    simp [Operand.isWellTyped_iff.mpr (h operand hmem)]
  rw [dispatch, hnone]
  cases applyByName name operands with
  | error e => rfl
  | ok value => cases value <;> rfl

namespace BinaryOp

/-- What the table has for the declared kinds it has for the kinds of the values. -/
theorem resultKind?_of_declared {op : BinaryOp} {a b : Operand} {kind : Kind}
    (ha : a.HasDeclaredKind) (hb : b.HasDeclaredKind)
    (h : op.resultKind? a.type.kind b.type.kind = some kind) :
    op.resultKind? a.value.kind b.value.kind = some kind := by
  -- The rows for operands of any kind do not look at what these operands are.
  rcases ha with hany | ha
  · rw [hany] at h
    obtain rfl := eq_same_of_any_left h
    exact h
  · rcases hb with hany | hb
    · rw [hany] at h
      rcases same_or_plus_of_any_right h with rfl | ⟨rfl, hstring⟩
      · exact h
      · rw [ha, hstring]
        rw [hstring] at h
        exact h
    · rw [ha, hb]
      exact h

end BinaryOp

/-! ## Resolution -/

/-- What is known of a call when only the types of its operands are. -/
inductive Resolution where
  /-- Nothing takes that many operands. -/
  | unsupported
  /-- Nothing of that name takes such operands. -/
  | unknown
  /-- There is an operation, with results of this kind. -/
  | gives (kind : Kind)
deriving DecidableEq

namespace Resolution

/-- What the table says, as a resolution. -/
def ofKind? : Option Kind → Resolution
  | some kind => gives kind
  | none => unknown

/-- The results that a resolution leaves open. -/
def Admits (name : String) (types : List Ty) :
    Resolution → Except OperationError Literal → Prop
  | unsupported, result => result = .error (.unsupportedArity name types.length)
  | unknown, result =>
    result = .error (.unknownSignature name (", ".intercalate (types.map Ty.qualifiedName)))
  | gives kind, result =>
    (∃ value, result = .ok value ∧ value.kind = kind) ∨ ∃ fault, result = .error (.fault fault)

end Resolution

/-- The operation that a name stands for, by declared types. -/
def resolve (name : String) : List Ty → Resolution
  | [a] => .ofKind? ((UnaryOp.ofName? name).bind (·.resultKind? a.kind))
  | [a, b] => .ofKind? ((BinaryOp.ofName? name).bind (·.resultKind? a.kind b.kind))
  | [a, b, c] => .ofKind? (ternaryKind? name a.kind b.kind c.kind)
  | types => if types.any (·.kind == .any) then .unknown else .unsupported

/-- The text of a signature is made of declared types alone. -/
theorem signatureText_eq (operands : List Operand) : signatureText operands =
    ", ".intercalate ((operands.map Operand.type).map Ty.qualifiedName) := by
  rw [signatureText, List.map_map]
  rfl

/-- What applies to the operands is looked for by the kinds of the values. -/
theorem Yields.admits {name : String} {operands : List Operand} {kind? : Option Kind}
    {result : Except Fault (Option Literal)} (h : Yields kind? result) :
    (Resolution.ofKind? kind?).Admits name (operands.map Operand.type)
      ((result.mapError OperationError.fault).bind fun value =>
        value.elim (.error (.unknownSignature name (signatureText operands))) .ok) := by
  cases result with
  | error fault =>
    obtain ⟨kind, rfl⟩ := Option.isSome_iff_exists.mp h
    exact .inr ⟨fault, rfl⟩
  | ok value =>
    obtain rfl : value.map Literal.kind = kind? := h
    cases value with
    | none =>
      rw [signatureText_eq]
      rfl
    | some value => exact .inl ⟨value, rfl, rfl⟩

namespace Resolution.Admits

variable {name : String} {types : List Ty} {resolution : Resolution}
  {result : Except OperationError Literal}

/-- A signature is reported unknown exactly if the types resolve to nothing, and then as it was
written. -/
theorem eq_unknownSignature_iff (h : resolution.Admits name types result) {other text : String} :
    result = .error (.unknownSignature other text) ↔ resolution = .unknown ∧ other = name ∧
      text = ", ".intercalate (types.map Ty.qualifiedName) := by
  cases resolution with
  | unsupported =>
    obtain rfl := h
    simp
  | unknown =>
    obtain rfl := h
    simp [eq_comm]
  | gives kind => rcases h with ⟨value, rfl, -⟩ | ⟨fault, rfl⟩ <;> simp

theorem eq_unsupportedArity_iff (h : resolution.Admits name types result) {other : String}
    {arity : Nat} : result = .error (.unsupportedArity other arity) ↔
      resolution = .unsupported ∧ other = name ∧ arity = types.length := by
  cases resolution with
  | unsupported =>
    obtain rfl := h
    simp [eq_comm]
  | unknown =>
    obtain rfl := h
    simp
  | gives kind => rcases h with ⟨value, rfl, -⟩ | ⟨fault, rfl⟩ <;> simp

/-- Nothing that the table leaves open is about a value of another kind than declared. -/
theorem ne_operandMismatch (h : resolution.Admits name types result) (declared found : String) :
    result ≠ .error (.operandMismatch declared found) := by
  cases resolution with
  | unsupported =>
    obtain rfl := h
    simp
  | unknown =>
    obtain rfl := h
    simp
  | gives kind => rcases h with ⟨value, rfl, -⟩ | ⟨fault, rfl⟩ <;> simp

/-- A value is of the kind that was resolved. -/
theorem eq_gives (h : resolution.Admits name types result) {value : Literal}
    (hok : result = .ok value) : resolution = .gives value.kind := by
  subst hok
  cases resolution with
  | unsupported | unknown => cases h
  | gives kind =>
    rcases h with ⟨other, heq, rfl⟩ | ⟨fault, heq⟩
    · rw [Except.ok.inj heq]
    · cases heq

end Resolution.Admits

/-! ## Looking up by values -/

/-- Some operand is loose exactly if one is declared to be anything. -/
theorem any_isLoose_iff {operands : List Operand} :
    operands.any Operand.isLoose ↔ ∃ operand ∈ operands, operand.type.kind = .any := by
  simp only [List.any_eq_true, Operand.isLoose_iff]

/-- Without loose operands every value has its declared kind. -/
theorem kind_eq_of_strict {operands : List Operand}
    (h : ∀ operand ∈ operands, operand.HasDeclaredKind)
    (hstrict : ¬ operands.any Operand.isLoose) :
    ∀ operand ∈ operands, operand.value.kind = operand.type.kind := by
  intro operand hmem
  refine (h operand hmem).resolve_left fun hany => ?_
  exact hstrict (any_isLoose_iff.mpr ⟨operand, hmem, hany⟩)

/-- Where no operand is loose, nothing is held back. -/
theorem allowsLoose_of_strict {name : String} {operands : List Operand}
    (h : ¬ operands.any Operand.isLoose) : allowsLoose name operands = true := by
  unfold allowsLoose
  rw [if_neg h]

/-- Only pairs of operands may have one of any kind. -/
theorem allowsLoose_of_loose {name : String} {operands : List Operand}
    (h : operands.any Operand.isLoose) (hlength : operands.length ≠ 2) :
    allowsLoose name operands = false := by
  unfold allowsLoose
  rw [if_pos h]
  split
  · exact absurd rfl hlength
  · rfl

/-- A pair is allowed to have one exactly where the table has a row for it. -/
theorem allowsLoose_pair_iff {name : String} {op : BinaryOp}
    (hop : BinaryOp.ofName? name = some op) {a b : Operand}
    (hloose : [a, b].any Operand.isLoose) :
    allowsLoose name [a, b] ↔ (op.resultKind? a.type.kind b.type.kind).isSome := by
  -- Names are exchanged for the operation they stand for, which has one row to compare with.
  have hmem : ∀ other : BinaryOp, name ∈ other.names ↔ op = other := by
    intro other
    rw [← BinaryOp.ofName?_eq_some_iff, hop, Option.some_inj]
  have hsame : name = "equals" ∨ name = "EQEQ" ↔ op = .same := by
    rw [← hmem .same]
    simp [BinaryOp.names]
  have hplus : name = "plus" ↔ op = .arith .plus := by
    rw [← hmem (.arith .plus)]
    simp [BinaryOp.names]
  have hany : a.type.kind = .any ∨ b.type.kind = .any := by
    simpa using any_isLoose_iff.mp hloose
  rw [BinaryOp.isSome_resultKind?_iff hany]
  unfold allowsLoose
  rw [if_pos hloose]
  simp only [Bool.or_eq_true, Bool.and_eq_true, beq_iff_eq, Ty.isString, hsame, hplus]

/-- Operands that are held back find no operation. -/
theorem applyByName_of_refused {name : String} {operands : List Operand}
    (h : allowsLoose name operands = false) : applyByName name operands = .ok none := by
  unfold applyByName
  rw [h]
  rfl

/-- One operand finds what its declared type has in the table. -/
theorem exists_yields_unary (name : String) {a : Operand}
    (h : ∀ operand ∈ [a], operand.HasDeclaredKind) :
    ∃ result, applyByName name [a] = result.mapError OperationError.fault ∧
      Yields ((UnaryOp.ofName? name).bind (·.resultKind? a.type.kind)) result := by
  by_cases hloose : [a].any Operand.isLoose
  -- A loose operand is refused, and has no row either.
  · have hany : a.type.kind = .any := by simpa using any_isLoose_iff.mp hloose
    refine ⟨.ok none, applyByName_of_refused (allowsLoose_of_loose hloose (by simp)), ?_⟩
    rw [hany]
    simp only [UnaryOp.resultKind?_any]
    cases UnaryOp.ofName? name <;> rfl
  · refine ⟨.ok ((UnaryOp.ofName? name).bind (·.result? a.value)), ?_, ?_⟩
    · simp only [applyByName, if_pos (allowsLoose_of_strict hloose)]
      rfl
    · rw [← kind_eq_of_strict h hloose a (by simp)]
      cases UnaryOp.ofName? name with
      | none => rfl
      | some op => exact op.kind_result? a.value

/-- Two operands find what their declared types have in the table. -/
theorem exists_yields_binary (name : String) {a b : Operand}
    (h : ∀ operand ∈ [a, b], operand.HasDeclaredKind) :
    ∃ result, applyByName name [a, b] = result.mapError OperationError.fault ∧
      Yields ((BinaryOp.ofName? name).bind (·.resultKind? a.type.kind b.type.kind)) result := by
  cases hop : BinaryOp.ofName? name with
  | none =>
    refine ⟨.ok none, ?_, rfl⟩
    simp only [applyByName, hop, ite_self]
    rfl
  | some op =>
    rw [Option.bind_some]
    have hyields := op.yields_result a.value b.value
    by_cases hloose : [a, b].any Operand.isLoose
    · have hallowed := allowsLoose_pair_iff hop hloose
      cases hkind : op.resultKind? a.type.kind b.type.kind with
      | some kind =>
        -- The operands are let through, and the values find the row of their declarations.
        rw [hkind, Option.isSome_some, eq_self, iff_true] at hallowed
        refine ⟨op.result a.value b.value, by simp only [applyByName, hop, if_pos hallowed], ?_⟩
        rw [BinaryOp.resultKind?_of_declared (h a (by simp)) (h b (by simp)) hkind] at hyields
        exact hyields
      | none =>
        have hrefused : allowsLoose name [a, b] = false := by
          rw [← Bool.not_eq_true, hallowed, hkind]
          exact Bool.false_ne_true
        exact ⟨.ok none, applyByName_of_refused hrefused, rfl⟩
    · refine ⟨op.result a.value b.value,
        by simp only [applyByName, hop, if_pos (allowsLoose_of_strict hloose)], ?_⟩
      have hkind := kind_eq_of_strict h hloose
      rw [hkind a (by simp), hkind b (by simp)] at hyields
      exact hyields

/-- Three operands find what their declared types have in the table. -/
theorem exists_yields_ternary (name : String) {a b c : Operand}
    (h : ∀ operand ∈ [a, b, c], operand.HasDeclaredKind) :
    ∃ result, applyByName name [a, b, c] = result.mapError OperationError.fault ∧
      Yields (ternaryKind? name a.type.kind b.type.kind c.type.kind) result := by
  by_cases hloose : [a, b, c].any Operand.isLoose
  · have hany := any_isLoose_iff.mp hloose
    have hnone : ternaryKind? name a.type.kind b.type.kind c.type.kind = none := by
      refine if_neg ?_
      rintro ⟨-, hstring, hstart, hstop⟩
      simp [hstring, hstart, hstop] at hany
    refine ⟨.ok none, applyByName_of_refused (allowsLoose_of_loose hloose (by simp)), ?_⟩
    rw [hnone]
    rfl
  · have hyields := yields_applyTernary name a.value b.value c.value
    have hkind := kind_eq_of_strict h hloose
    rw [hkind a (by simp), hkind b (by simp), hkind c (by simp)] at hyields
    exact ⟨_, by simp only [applyByName, if_pos (allowsLoose_of_strict hloose)], hyields⟩

/-- More than three operands are refused in one way or the other. -/
theorem admits_many (name : String) (a b c d : Operand) (rest : List Operand) :
    let operands := a :: b :: c :: d :: rest
    (resolve name (operands.map Operand.type)).Admits name (operands.map Operand.type)
      ((applyByName name operands).bind fun value =>
        value.elim (.error (.unknownSignature name (signatureText operands))) .ok) := by
  intro operands
  have hresolve : resolve name (operands.map Operand.type) =
      if (operands.map Operand.type).any (·.kind == .any) then .unknown else .unsupported := rfl
  have hany : (operands.map Operand.type).any (·.kind == .any) ↔
      operands.any Operand.isLoose := by
    rw [any_isLoose_iff]
    simp [List.any_map]
  -- Operands of any kind are refused before the operands are counted.
  by_cases hloose : operands.any Operand.isLoose
  · have hrefused : allowsLoose name operands = false :=
      allowsLoose_of_loose hloose (by simp [operands])
    rw [hresolve, if_pos (hany.mpr hloose), applyByName_of_refused hrefused, signatureText_eq]
    rfl
  · have happlied : applyByName name operands =
        .error (.unsupportedArity name operands.length) := by
      unfold applyByName
      rw [if_pos (allowsLoose_of_strict hloose)]
    rw [hresolve, if_neg (mt hany.mp hloose), happlied, ← List.length_map Operand.type]
    rfl

/-- What is done with operands as they are declared is what their types resolve to. -/
theorem admits_dispatch (name : String) {operands : List Operand}
    (h : ∀ operand ∈ operands, operand.HasDeclaredKind) :
    (resolve name (operands.map Operand.type)).Admits name (operands.map Operand.type)
      (dispatch name operands) := by
  rw [dispatch_of_declared h]
  -- By the number of operands, as the table is laid out.
  rcases operands with _ | ⟨a, _ | ⟨b, _ | ⟨c, _ | ⟨d, rest⟩⟩⟩⟩
  · rfl
  · obtain ⟨result, happlied, hyields⟩ := exists_yields_unary name h
    rw [happlied]
    exact hyields.admits
  · obtain ⟨result, happlied, hyields⟩ := exists_yields_binary name h
    rw [happlied]
    exact hyields.admits
  · obtain ⟨result, happlied, hyields⟩ := exists_yields_ternary name h
    rw [happlied]
    exact hyields.admits
  · exact admits_many name a b c d rest

/-- **Operations are resolved by declared types alone.** On two lists of operands that are declared
alike, and whose values are as they are declared, an operation is missing on both or on neither, and
so is support for their number; no value is found to be of another kind than declared; and if there
are results, they are of one type. All this can be read off the table. -/
theorem dispatch_by_type (name : String) {xs ys : List Operand}
    (htypes : xs.map Operand.type = ys.map Operand.type)
    (hxs : ∀ operand ∈ xs, operand.HasDeclaredKind)
    (hys : ∀ operand ∈ ys, operand.HasDeclaredKind) :
    (∀ other text, dispatch name xs = .error (.unknownSignature other text) ↔
      dispatch name ys = .error (.unknownSignature other text)) ∧
    (∀ other arity, dispatch name xs = .error (.unsupportedArity other arity) ↔
      dispatch name ys = .error (.unsupportedArity other arity)) ∧
    (∀ declared found, dispatch name xs ≠ .error (.operandMismatch declared found) ∧
      dispatch name ys ≠ .error (.operandMismatch declared found)) ∧
    (∀ x y, dispatch name xs = .ok x → dispatch name ys = .ok y → x.type = y.type) ∧
    (resolve name (xs.map Operand.type)).Admits name (xs.map Operand.type)
      (dispatch name xs) := by
  have hx := admits_dispatch name hxs
  have hy := admits_dispatch name hys
  -- Both calls are now held against one entry of the table.
  rw [htypes] at hx
  refine ⟨?_, ?_, ?_, ?_, admits_dispatch name hxs⟩
  · intro other text
    rw [hx.eq_unknownSignature_iff, hy.eq_unknownSignature_iff]
  · intro other arity
    rw [hx.eq_unsupportedArity_iff, hy.eq_unsupportedArity_iff]
  · intro declared found
    exact ⟨hx.ne_operandMismatch declared found, hy.ne_operandMismatch declared found⟩
  · intro x y hokx hoky
    have hgives := (hx.eq_gives hokx).symm.trans (hy.eq_gives hoky)
    have hkind : x.kind = y.kind := Resolution.gives.inj hgives
    rw [Literal.type, Literal.type, hkind]

/-- What is appended to a string may differ in kind where anything may be appended. -/
theorem dispatch_by_type_appended :
    let xs : List Operand := [⟨.string, .string "n"⟩, ⟨.anything, .int 1⟩]
    let ys : List Operand := [⟨.string, .string ""⟩, ⟨.anything, .boolean true⟩]
    xs.map Operand.type = ys.map Operand.type ∧
    (∀ operand ∈ xs, operand.HasDeclaredKind) ∧ (∀ operand ∈ ys, operand.HasDeclaredKind) ∧
    (dispatch "plus" xs).toOption = some (.string "n1") ∧
    (dispatch "plus" ys).toOption = some (.string "true") ∧
    ∀ x y, dispatch "plus" xs = .ok x → dispatch "plus" ys = .ok y → x.type = y.type := by
  intro xs ys
  have htypes : xs.map Operand.type = ys.map Operand.type := rfl
  have hxs : ∀ operand ∈ xs, operand.HasDeclaredKind := by
    simp [xs, Operand.HasDeclaredKind, Ty.string, Ty.anything, Literal.kind]
  have hys : ∀ operand ∈ ys, operand.HasDeclaredKind := by
    simp [ys, Operand.HasDeclaredKind, Ty.string, Ty.anything, Literal.kind]
  exact ⟨htypes, hxs, hys, by decide +kernel, by decide +kernel,
    (dispatch_by_type "plus" htypes hxs hys).2.2.2.1⟩

end CallFolding
