import CallFolding.Proofs.Residue

/-!
Conversions of integers and characters are reductions modulo the width of the target.

So a conversion on the way to a target that is not wider changes nothing, and a value that went up
to the widest target comes back as it was. Floating-point numbers are converted to the narrow
targets by way of 32 bits: their whole part is held within 32 bits first, and reduced from there.
-/

set_option autoImplicit false

namespace CallFolding

namespace Conversion

/-- The name of a conversion; nothing is converted to an unsigned integer. -/
def name? : Conversion → Option String
  | char => some "toChar"
  | integral .byte => some "toByte"
  | integral .short => some "toShort"
  | integral .int => some "toInt"
  | integral .long => some "toLong"
  | integral _ => none
  | float => some "toFloat"
  | double => some "toDouble"

variable {target : Conversion} {name : String} {window : Window}

/-- The operation of this name is the conversion. -/
theorem ofName?_of_name? (h : target.name? = some name) :
    UnaryOp.ofName? name = some (.convert target) := by
  cases target with
  | integral kind => cases kind <;> cases h <;> rfl
  | char | float | double =>
    cases h
    rfl

/-- An integer is converted to its residue. -/
theorem isResidue_ofInt (hwindow : target.kind.window? = some window) (n : Int) :
    (target.ofInt n).IsResidue target.kind n := by
  cases target with
  | char => exact Literal.isResidue_char n
  | integral kind => exact kind.isResidue_literal n
  | float | double => cases hwindow

/-- No target is wider than the widest. -/
theorem width_le (hwindow : target.kind.window? = some window) : window.width ≤ 64 := by
  cases target with
  | integral kind => cases kind <;> cases hwindow <;> decide
  | char =>
    cases hwindow
    decide
  | float | double => cases hwindow

/-- The targets of at most 32 bits see no more of a floating-point number than its whole part
within 32 bits. -/
theorem ofBinary_eq {f : BinaryFormat} (x : Binary f) (hwindow : target.kind.window? = some window)
    (hwidth : window.width ≤ 32) : target.ofBinary x =
      target.ofInt (x.truncate Int32.minValue.toInt Int32.maxValue.toInt) := by
  cases target with
  | char => rfl
  | integral kind =>
    have hnarrow : kind.width ≠ 64 := by
      cases kind <;> cases hwindow <;> revert hwidth <;> decide
    exact if_neg hnarrow
  | float | double => cases hwindow

end Conversion

namespace Literal

variable {s : Literal} {x : Int}

/-- Characters and integers are converted by their values alone. -/
theorem convert?_of_whole? (h : s.whole? = some x) (target : Conversion) :
    s.convert? target = some (target.ofInt x) := by
  cases s <;> cases h <;> rfl

/-- The kinds with a range are those whose literals have values. -/
theorem exists_whole?_of_window? {window : Window} (h : s.kind.window? = some window) :
    ∃ n, s.whole? = some n := by
  cases s with
  | unit | boolean | float | double | string => cases h
  | _ => exact ⟨_, rfl⟩

/-- Floating-point literals of both formats are converted alike. -/
theorem exists_binary_of_isReal (h : s.kind.isReal) :
    ∃ (f : BinaryFormat) (x : Binary f), ∀ target : Conversion,
      s.convert? target = some (target.ofBinary x) := by
  cases s with
  | float x => exact ⟨.single, x, fun _ => rfl⟩
  | double x => exact ⟨.double, x, fun _ => rfl⟩
  | _ => cases h

end Literal

/-! ## Conversions by name -/

section Named

variable {target : Conversion} {name : String} {window : Window} {a b : Operand} {s t : Literal}

/-- A conversion that is called by its name. -/
theorem dispatch_convert (hname : target.name? = some name) (ha : a.Is s)
    (ht : s.convert? target = some t) : dispatch name [a] = .ok t := by
  rw [dispatch_unary (Conversion.ofName?_of_name? hname) ha, UnaryOp.result?, ht]
  rfl

/-- Such a conversion leaves the residue of the value. -/
theorem exists_residue_of_convert (hname : target.name? = some name)
    (hwindow : target.kind.window? = some window) (ha : a.Is s) {x : Int}
    (hx : s.whole? = some x) :
    ∃ t, dispatch name [a] = .ok t ∧ t.IsResidue target.kind x :=
  ⟨target.ofInt x, dispatch_convert hname ha (Literal.convert?_of_whole? hx target),
    Conversion.isResidue_ofInt hwindow x⟩

/-- A conversion of a residue is one of the integer itself, if it is not the wider one. -/
theorem dispatch_convert_of_isResidue (hname : target.name? = some name)
    (hwindow : target.kind.window? = some window) {kind : Kind} {wide : Window}
    (hwide : kind.window? = some wide) (hle : window.width ≤ wide.width) {x : Int}
    (hs : s.IsResidue kind x) (hb : b.Is s) (ht : t.IsResidue target.kind x) :
    dispatch name [b] = .ok t := by
  obtain ⟨m, hm, -, hmod⟩ := hs.exists_whole? hwide
  obtain ⟨t', hconvert, ht'⟩ := exists_residue_of_convert hname hwindow hb hm
  rw [hconvert, (ht'.congr hwindow (Window.modEq_of_le hle hmod)).unique ht]

end Named

/-- **Conversions of integers reduce modulo the width of the target.** An intermediate target that
is not narrower makes no difference, the widest one loses nothing, and floating-point numbers reach
the narrow targets by way of `toInt`. -/
theorem dispatch_convert_modulo {target : Conversion} {name : String} {window : Window}
    (hname : target.name? = some name) (hwindow : target.kind.window? = some window)
    {a : Operand} {s : Literal} (ha : a.Is s) :
    (∀ {x : Int}, s.whole? = some x →
      ∃ t, dispatch name [a] = .ok t ∧ t.IsResidue target.kind x) ∧
    (∀ {x : Int} {between : Conversion} {first : String} {wide : Window}, s.whole? = some x →
      between.name? = some first → between.kind.window? = some wide → window.width ≤ wide.width →
      ∃ u t, dispatch first [a] = .ok u ∧ dispatch name [a] = .ok t ∧
        ∀ b : Operand, b.Is u → dispatch name [b] = .ok t) ∧
    (s.kind = target.kind → ∃ u, dispatch "toLong" [a] = .ok u ∧
      ∀ b : Operand, b.Is u → dispatch name [b] = .ok s) ∧
    (s.kind.isReal → window.width ≤ 32 → ∃ u t, dispatch "toInt" [a] = .ok u ∧
      dispatch name [a] = .ok t ∧ ∀ b : Operand, b.Is u → dispatch name [b] = .ok t) := by
  refine ⟨?_, ?_, ?_, ?_⟩
  · intro x hx
    exact exists_residue_of_convert hname hwindow ha hx
  · intro x between first wide hx hfirst hwide hle
    obtain ⟨u, hu, hresidue⟩ := exists_residue_of_convert hfirst hwide ha hx
    obtain ⟨t, ht, hresidue'⟩ := exists_residue_of_convert hname hwindow ha hx
    refine ⟨u, t, hu, ht, ?_⟩
    intro b hb
    exact dispatch_convert_of_isResidue hname hwindow hwide hle hresidue hb hresidue'
  · intro hkind
    have hlong : (Conversion.integral .long).name? = some "toLong" := rfl
    obtain ⟨x, hx⟩ := Literal.exists_whole?_of_window? (hkind ▸ hwindow)
    obtain ⟨u, hu, hresidue⟩ := exists_residue_of_convert hlong rfl ha hx
    refine ⟨u, hu, ?_⟩
    intro b hb
    -- The value is its own residue, which is what comes back.
    have hself := Literal.IsResidue.of_whole? hx
    rw [hkind] at hself
    exact dispatch_convert_of_isResidue hname hwindow rfl (Conversion.width_le hwindow) hresidue hb
      hself
  · intro hreal hwidth
    have hint : (Conversion.integral .int).name? = some "toInt" := rfl
    -- Both conversions cut the number to the same whole part within 32 bits.
    obtain ⟨f, x, hconvert⟩ := Literal.exists_binary_of_isReal hreal
    have hu := hconvert (.integral .int)
    have ht := hconvert target
    rw [Conversion.ofBinary_eq x rfl (by decide)] at hu
    rw [Conversion.ofBinary_eq x hwindow hwidth] at ht
    refine ⟨_, _, dispatch_convert hint ha hu, dispatch_convert hname ha ht, ?_⟩
    intro b hb
    exact dispatch_convert_of_isResidue hname hwindow rfl hwidth
      (Conversion.isResidue_ofInt rfl _) hb (Conversion.isResidue_ofInt hwindow _)

/-- An unsigned integer with its top bit set, as a byte and as a byte by way of a character. The
numbers `200.5` and `-70000.75` are cut to their whole parts, and these to a byte and to a
character. -/
theorem dispatch_convert_modulo_topBit :
    let a : Operand := .ofLiteral (.uLong (-129))
    let c : Operand := .ofLiteral (.char 65407)
    let single : Literal := .float (Binary.round false 401 2)
    let double : Literal := .double (Binary.round true 280003 4)
    a.Is (.uLong (-129)) ∧ (Literal.uLong (-129)).whole? = some (2 ^ 64 - 129) ∧
    (Literal.byte 127).IsResidue .byte (2 ^ 64 - 129) ∧
    dispatch "toByte" [a] = .ok (.byte 127) ∧ dispatch "toChar" [a] = .ok (.char 65407) ∧
    dispatch "toByte" [c] = .ok (.byte 127) ∧
    single.kind.isReal ∧ dispatch "toInt" [.ofLiteral single] = .ok (.int 200) ∧
    dispatch "toByte" [.ofLiteral single] = .ok (.byte (-56)) ∧
    dispatch "toByte" [.ofLiteral (.int 200)] = .ok (.byte (-56)) ∧
    double.kind.isReal ∧ dispatch "toInt" [.ofLiteral double] = .ok (.int (-70000)) ∧
    dispatch "toChar" [.ofLiteral double] = .ok (.char 61072) ∧
    dispatch "toChar" [.ofLiteral (.int (-70000))] = .ok (.char 61072) := by
  intro a c single double
  have hname : (Conversion.integral .byte).name? = some "toByte" := rfl
  have hchar : Conversion.char.name? = some "toChar" := rfl
  have ha : a.Is (.uLong (-129)) := ⟨rfl, rfl⟩
  have hwhole : (Literal.uLong (-129)).whole? = some (2 ^ 64 - 129) := by decide
  obtain ⟨hreduces, hbetween, -, -⟩ := dispatch_convert_modulo hname rfl ha
  obtain ⟨t, ht, hresidue⟩ := hreduces hwhole
  obtain ⟨u, t', hu, ht', hback⟩ := hbetween hwhole hchar rfl (by decide)
  have hbyte : dispatch "toByte" [a] = .ok (.byte 127) := by rfl
  have hunit : dispatch "toChar" [a] = .ok (.char 65407) := by rfl
  obtain rfl : t = .byte 127 := Except.ok.inj (ht.symm.trans hbyte)
  obtain rfl : t' = .byte 127 := Except.ok.inj (ht'.symm.trans hbyte)
  obtain rfl : u = .char 65407 := Except.ok.inj (hu.symm.trans hunit)
  have hsingle : dispatch "toInt" [.ofLiteral single] = .ok (.int 200) := by decide +kernel
  have hsingle' : dispatch "toByte" [.ofLiteral single] = .ok (.byte (-56)) := by decide +kernel
  have hdouble : dispatch "toInt" [.ofLiteral double] = .ok (.int (-70000)) := by decide +kernel
  have hdouble' : dispatch "toChar" [.ofLiteral double] = .ok (.char 61072) := by decide +kernel
  -- What the whole parts are cut to is what the numbers themselves are converted to.
  obtain ⟨-, -, -, hsource⟩ :=
    dispatch_convert_modulo hname rfl (a := .ofLiteral single) (s := single) ⟨rfl, rfl⟩
  obtain ⟨v, w, hv, hw, hcut⟩ := hsource rfl (by decide)
  obtain rfl : v = .int 200 := Except.ok.inj (hv.symm.trans hsingle)
  obtain rfl : w = .byte (-56) := Except.ok.inj (hw.symm.trans hsingle')
  obtain ⟨-, -, -, hsource⟩ :=
    dispatch_convert_modulo hchar rfl (a := .ofLiteral double) (s := double) ⟨rfl, rfl⟩
  obtain ⟨v, w, hv, hw, hcut'⟩ := hsource rfl (by decide)
  obtain rfl : v = .int (-70000) := Except.ok.inj (hv.symm.trans hdouble)
  obtain rfl : w = .char 61072 := Except.ok.inj (hw.symm.trans hdouble')
  exact ⟨ha, hwhole, hresidue, hbyte, hunit, hback c ⟨rfl, rfl⟩, rfl, hsingle, hsingle',
    hcut _ ⟨rfl, rfl⟩, rfl, hdouble, hdouble', hcut' _ ⟨rfl, rfl⟩⟩

end CallFolding
