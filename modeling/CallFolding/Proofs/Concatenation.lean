import CallFolding.Proofs.Faults
import CallFolding.Proofs.Surrogates

/-!
Strings put together.

A string is a sequence of characters, but its length and its indices count units. Appending suits
both views: the units of two strings in a row are their units in a row (`Text.units_append`). So
lengths add up, and an index falls on one side or on the other (`dispatch_plus_units`).

What is taken out of a string is a unit, and it may be half of a pair. Its text is then the
replacement character and not the unit, since no string has half of a pair in it. A string that is
put together again from its own units is therefore the same only if there are no pairs in it
(`spell_eq_iff`).
-/

set_option autoImplicit false

namespace CallFolding

/-! ## Operations on strings by name -/

/-- The operand holds this value, and is declared with its kind or to be anything. -/
def Operand.Holds (operand : Operand) (value : Literal) : Prop :=
  operand.value = value ∧ operand.HasDeclaredKind

/-- What is declared with its own kind is held. -/
theorem Operand.Is.holds {operand : Operand} {value : Literal} (h : operand.Is value) :
    operand.Holds value :=
  ⟨h.2, .inr (by rw [h.1, h.2])⟩

section

variable {a b : Operand} {s : String} {x : Literal}

/-- The length of a string is the number of its units. -/
theorem dispatch_length (ha : a.Is (.string s)) :
    dispatch "length" [a] = .ok (.int (Int32.ofNat (Text.length s))) := by
  have hop : UnaryOp.ofName? "length" = some .length := rfl
  rw [dispatch_unary hop ha]
  rfl

theorem dispatch_toString (ha : a.Is x) : dispatch "toString" [a] = .ok (.string x.display) := by
  have hop : UnaryOp.ofName? "toString" = some .display := rfl
  rw [dispatch_unary hop ha]
  rfl

/-- At an index within the units there is one. -/
theorem dispatch_get {i : Int32} {index : Nat} {u : UInt16} (ha : a.Is (.string s))
    (hb : b.Is (.int i)) (hi : i.toInt = index) (hu : (Text.units s)[index]? = some u) :
    dispatch "get" [a, b] = .ok (.char u) := by
  have hop : BinaryOp.ofName? "get" = some .charAt :=
    BinaryOp.ofName?_eq_some_iff.mpr (by decide)
  have hcharAt : Literal.charAt s i = .ok (.char u) := by
    simp only [Literal.charAt, hi, Int.toNat_natCast, hu]
    rw [if_neg (by omega)]
  rw [dispatch_binary hop ha hb, BinaryOp.result, hcharAt]
  rfl

/-- At any other index there is none, and the length is quoted as it is. -/
theorem dispatch_get_outside {i : Int32} (ha : a.Is (.string s)) (hb : b.Is (.int i))
    (h : i.toInt < 0 ∨ (Text.length s : Int) ≤ i.toInt) :
    dispatch "get" [a, b] =
      .error (.fault (.indexOutOfBounds i (Int32.ofNat (Text.length s)))) := by
  have hdeclared : ∀ operand ∈ [a, b], operand.HasDeclaredKind := by
    simpa using ⟨ha.holds.2, hb.holds.2⟩
  rw [dispatch_eq_fault_iff_apply hdeclared]
  exact applyByName_of_charAt ha hb (Literal.charAt_eq_error_iff.mpr ⟨rfl, h⟩)

/-- Anything can be appended to a string, and what is appended is its text. -/
theorem dispatch_plus (ha : a.Is (.string s)) (hb : b.Holds x) :
    dispatch "plus" [a, b] = .ok (.string (s ++ x.display)) := by
  have hop : BinaryOp.ofName? "plus" = some (.arith .plus) :=
    BinaryOp.ofName?_eq_some_iff.mpr (by decide)
  have hdeclared : ∀ operand ∈ [a, b], operand.HasDeclaredKind := by
    simpa using ⟨ha.holds.2, hb.2⟩
  -- Operands that may be anything are held back, except behind a string.
  have hallowed : allowsLoose "plus" [a, b] := by
    by_cases hloose : [a, b].any Operand.isLoose
    · have hany : a.type.kind = .any ∨ b.type.kind = .any := by
        simpa using any_isLoose_iff.mp hloose
      rw [allowsLoose_pair_iff hop hloose, BinaryOp.isSome_resultKind?_iff hany]
      exact .inr ⟨rfl, ha.1⟩
    · exact allowsLoose_of_strict hloose
  rw [dispatch_of_declared hdeclared, applyByName, if_pos hallowed]
  simp only [hop, ha.2, hb.1, BinaryOp.result]
  rfl

end

/-! ## Lengths and indices -/

section

variable {a d e position rest : Operand} {s t : String} {i j : Int32}

/-- An index of the first string is one of the whole. -/
theorem dispatch_get_append_left (ha : a.Is (.string s)) (he : e.Is (.string (s ++ t)))
    (hposition : position.Is (.int i)) (hnonneg : 0 ≤ i.toInt)
    (hlt : i.toInt < Text.length s) :
    ∃ u, dispatch "get" [a, position] = .ok (.char u) ∧
      dispatch "get" [e, position] = .ok (.char u) := by
  obtain ⟨index, hindex⟩ := Int.eq_ofNat_of_zero_le hnonneg
  have hinside : index < (Text.units s).length := by
    rw [← Text.length]
    omega
  have hu := List.getElem?_eq_getElem hinside
  refine ⟨_, dispatch_get ha hposition hindex hu, dispatch_get he hposition hindex ?_⟩
  rw [Text.units_append, List.getElem?_append_left hinside, hu]

/-- An index of the second one is found in the whole behind the first. -/
theorem dispatch_get_append_right (hd : d.Is (.string t)) (he : e.Is (.string (s ++ t)))
    (hposition : position.Is (.int i)) (hrest : rest.Is (.int j))
    (hj : j.toInt = i.toInt - Text.length s) (hle : Text.length s ≤ i.toInt)
    (hlt : i.toInt < Text.length s + Text.length t) :
    ∃ u, dispatch "get" [d, rest] = .ok (.char u) ∧
      dispatch "get" [e, position] = .ok (.char u) := by
  obtain ⟨index, hindex⟩ := Int.eq_ofNat_of_zero_le (show 0 ≤ j.toInt by omega)
  have hinside : index < (Text.units t).length := by
    rw [← Text.length]
    omega
  have hu := List.getElem?_eq_getElem hinside
  have hwhole : i.toInt = (Text.length s + index : Nat) := by omega
  refine ⟨_, dispatch_get hd hrest hindex hu, dispatch_get he hposition hwhole ?_⟩
  rw [Text.units_append, Text.length, List.getElem?_append_right (by omega),
    Nat.add_sub_cancel_left, hu]

end

/-- The difference of two lengths does not overflow. -/
theorem toInt_sub_of_le {i m : Int32} (hm : 0 ≤ m.toInt) (hle : m.toInt ≤ i.toInt) :
    (i - m).toInt = i.toInt - m.toInt := by
  have hlt := i.toInt_lt
  rw [Int32.toInt_sub]
  exact Int.bmod_eq_of_le (by omega) (by omega)

/-- **Appending is appending of units.** Whatever is appended to a string, it is as good as its
text, and a string is its own text. If the lengths have a sum, that is the length of the whole, and
an index of the whole is one of the string or, less the length of the string, one of the text. -/
theorem dispatch_plus_units {s : String} {x : Literal} {a b c : Operand} (ha : a.Is (.string s))
    (hb : b.Holds x) (hc : c.Is x) :
    ∃ t whole : String, dispatch "toString" [c] = .ok (.string t) ∧
      (∀ r : String, x = .string r → t = r) ∧ dispatch "plus" [a, b] = .ok (.string whole) ∧
      (∀ d : Operand, d.Holds (.string t) → dispatch "plus" [a, d] = .ok (.string whole)) ∧
      (Text.length s + Text.length t < 2 ^ 31 →
        ∀ d e : Operand, d.Is (.string t) → e.Is (.string whole) →
        ∃ m n total : Int32, dispatch "length" [a] = .ok (.int m) ∧
          dispatch "length" [d] = .ok (.int n) ∧ dispatch "length" [e] = .ok (.int total) ∧
          total.toInt = m.toInt + n.toInt ∧
          ∀ (i : Int32) (position : Operand), position.Is (.int i) →
            (0 ≤ i.toInt → i.toInt < m.toInt → ∃ u, dispatch "get" [a, position] = .ok (.char u) ∧
              dispatch "get" [e, position] = .ok (.char u)) ∧
            (m.toInt ≤ i.toInt → i.toInt < total.toInt →
              ∀ rest : Operand, rest.Is (.int (i - m)) →
                ∃ u, dispatch "get" [d, rest] = .ok (.char u) ∧
                  dispatch "get" [e, position] = .ok (.char u)) ∧
            (i.toInt < 0 ∨ total.toInt ≤ i.toInt →
              dispatch "get" [e, position] = .error (.fault (.indexOutOfBounds i total)))) := by
  refine ⟨x.display, s ++ x.display, dispatch_toString hc, ?_, dispatch_plus ha hb, ?_, ?_⟩
  · rintro r rfl
    rfl
  · intro d hd
    rw [dispatch_plus ha hd]
    rfl
  · intro hshort d e hd he
    -- None of the three lengths is too long for an integer.
    have hm : (Int32.ofNat (Text.length s)).toInt = Text.length s :=
      Int32.toInt_ofNat_of_lt (by omega)
    have hn : (Int32.ofNat (Text.length x.display)).toInt = Text.length x.display :=
      Int32.toInt_ofNat_of_lt (by omega)
    have htotal : (Int32.ofNat (Text.length (s ++ x.display))).toInt =
        Text.length s + Text.length x.display := by
      rw [Text.length_append, Int32.toInt_ofNat_of_lt hshort]
      rfl
    refine ⟨_, _, _, dispatch_length ha, dispatch_length hd, dispatch_length he, ?_, ?_⟩
    · rw [hm, hn, htotal]
    · intro i position hposition
      rw [hm, htotal]
      refine ⟨?_, ?_, ?_⟩
      · intro hnonneg hlt
        exact dispatch_get_append_left ha he hposition hnonneg hlt
      · intro hle hlt rest hrest
        have hless :=
          toInt_sub_of_le (i := i) (m := Int32.ofNat (Text.length s)) (by omega) (by omega)
        rw [hm] at hless
        exact dispatch_get_append_right hd he hposition hrest hless hle hlt
      · intro houtside
        apply dispatch_get_outside he hposition
        rw [Text.length_append]
        omega

/-- Half of a pair is appended as one unit, and not as itself. A whole pair is appended as it is,
and a number as its digits. -/
theorem dispatch_plus_units_half :
    let a : Operand := .ofLiteral (.string "a😀")
    let b : Operand := ⟨.anything, .char 0xDE00⟩
    let c : Operand := .ofLiteral (.char 0xDE00)
    let d : Operand := .ofLiteral (.string "\uFFFD")
    let pair : Operand := .ofLiteral (.string "😀")
    let number : Operand := .ofLiteral (.int (-12))
    a.Is (.string "a😀") ∧ b.Holds (.char 0xDE00) ∧ c.Is (.char 0xDE00) ∧
    dispatch "toString" [c] = .ok d.value ∧
    Text.length "a😀" + Text.length "\uFFFD" < 2 ^ 31 ∧
    (∃ whole : String, dispatch "plus" [a, b] = .ok (.string whole) ∧
      dispatch "plus" [a, d] = .ok (.string whole) ∧
      dispatch "length" [.ofLiteral (.string whole)] = .ok (.int 4) ∧
      dispatch "get" [.ofLiteral (.string whole), .ofLiteral (.int 3)] = .ok (.char 0xFFFD) ∧
      dispatch "get" [.ofLiteral (.string whole), .ofLiteral (.int 4)] =
        .error (.fault (.indexOutOfBounds 4 4))) ∧
    pair.Is (.string "😀") ∧ dispatch "toString" [pair] = .ok pair.value ∧
    (∃ whole : String, dispatch "plus" [a, pair] = .ok (.string whole) ∧
      dispatch "length" [.ofLiteral (.string whole)] = .ok (.int 5) ∧
      dispatch "get" [.ofLiteral (.string whole), .ofLiteral (.int 4)] = .ok (.char 0xDE00)) ∧
    number.Is (.int (-12)) ∧ dispatch "toString" [number] = .ok (.string "-12") ∧
    dispatch "plus" [a, number] = dispatch "plus" [a, .ofLiteral (.string "-12")] := by
  intro a b c d pair number
  have ha : a.Is (.string "a😀") := ⟨rfl, rfl⟩
  have hb : b.Holds (.char 0xDE00) := ⟨rfl, .inl rfl⟩
  have hc : c.Is (.char 0xDE00) := ⟨rfl, rfl⟩
  have hd : d.Is (.string "\uFFFD") := ⟨rfl, rfl⟩
  have hpair : pair.Is (.string "😀") := ⟨rfl, rfl⟩
  have hnumber : number.Is (.int (-12)) := ⟨rfl, rfl⟩
  obtain ⟨t, whole, ht, -, hwhole, hsame, hunits⟩ := dispatch_plus_units ha hb hc
  obtain rfl : "\uFFFD" = t := by
    rw [dispatch_toString hc] at ht
    exact Literal.string.inj (Except.ok.inj ht)
  have hshort : Text.length "a😀" + Text.length "\uFFFD" < 2 ^ 31 := by decide +kernel
  obtain ⟨m, n, total, hm, hn, htotal, hsum, hget⟩ :=
    hunits hshort d (.ofLiteral (.string whole)) hd ⟨rfl, rfl⟩
  obtain rfl : 3 = m := by
    rw [dispatch_length ha] at hm
    rw [← Literal.int.inj (Except.ok.inj hm)]
    decide +kernel
  obtain rfl : 1 = n := by
    rw [dispatch_length hd] at hn
    rw [← Literal.int.inj (Except.ok.inj hn)]
    decide +kernel
  obtain rfl : 4 = total := Int32.toInt_inj.mp hsum.symm
  have hlast : dispatch "get" [d, .ofLiteral (.int 0)] = .ok (.char 0xFFFD) :=
    dispatch_get hd ⟨rfl, rfl⟩ Int32.toInt_zero (by decide +kernel)
  obtain ⟨u, hu, hthird⟩ := (hget 3 (.ofLiteral (.int 3)) ⟨rfl, rfl⟩).2.1 (by decide) (by decide)
    (.ofLiteral (.int 0)) ⟨rfl, rfl⟩
  rw [hlast] at hu
  have hhalf := (hget 4 (.ofLiteral (.int 4)) ⟨rfl, rfl⟩).2.2 (.inr (by decide))
  -- The pair keeps both of its units, the second at the end of the whole.
  obtain ⟨t, both, ht', hself, hboth, -, hunits⟩ := dispatch_plus_units ha hpair.holds hpair
  obtain rfl := hself "😀" rfl
  obtain ⟨m, n, total, hm', hn', htotal', hsum', hget'⟩ :=
    hunits (by decide +kernel) pair (.ofLiteral (.string both)) hpair ⟨rfl, rfl⟩
  obtain rfl : 3 = m := Literal.int.inj (Except.ok.inj (hm.symm.trans hm'))
  obtain rfl : 2 = n := by
    rw [dispatch_length hpair] at hn'
    rw [← Literal.int.inj (Except.ok.inj hn')]
    decide +kernel
  obtain rfl : 5 = total := Int32.toInt_inj.mp hsum'.symm
  have hlow : dispatch "get" [pair, .ofLiteral (.int 1)] = .ok (.char 0xDE00) :=
    dispatch_get hpair ⟨rfl, rfl⟩ Int32.toInt_one (by decide +kernel)
  obtain ⟨v, hv, hfourth⟩ := (hget' 4 (.ofLiteral (.int 4)) ⟨rfl, rfl⟩).2.1 (by decide) (by decide)
    (.ofLiteral (.int 1)) ⟨rfl, rfl⟩
  rw [hlow] at hv
  obtain ⟨digits, sum, hdigits, -, hplus, hdigit, -⟩ :=
    dispatch_plus_units ha hnumber.holds hnumber
  have htext : digits = "-12" := by
    rw [dispatch_toString hnumber] at hdigits
    rw [← Literal.string.inj (Except.ok.inj hdigits)]
    decide +kernel
  subst htext
  exact ⟨ha, hb, hc, ht, hshort,
    ⟨whole, hwhole, hsame d hd.holds, htotal, hthird.trans hu.symm, hhalf⟩,
    hpair, ht', ⟨both, hboth, htotal', hfourth.trans hv.symm⟩,
    hnumber, hdigits, hplus.trans (hdigit _ ⟨rfl, .inr rfl⟩).symm⟩

/-! ## Strings from their own units -/

/-- Appends the unit of a string at an index to what has been put together, `type` being declared
for what is appended. -/
def appendUnit (s : String) (type : Ty) (text : Literal) (index : Nat) :
    Except OperationError Literal := do
  let value ← dispatch "get" [.ofLiteral (.string s), .ofLiteral (.int (Int32.ofNat index))]
  dispatch "plus" [.ofLiteral text, ⟨type, value⟩]

/-- The first units of a string, appended one after the other to the empty string. -/
def spell (s : String) (type : Ty) (count : Nat) : Except OperationError Literal :=
  (List.range count).foldlM (appendUnit s type) (.string "")

section

variable {s : String} {type : Ty} (htype : type.kind = .any ∨ type.kind = .char)
  (hshort : Text.length s < 2 ^ 31)

include htype hshort

/-- A step appends one unit, as it is read alone. -/
theorem exists_appendUnit {index : Nat} {u : UInt16} (hu : (Text.units s)[index]? = some u)
    (text : String) :
    ∃ longer, appendUnit s type (.string text) index = .ok (.string longer) ∧
      Text.units longer = Text.units text ++ [Text.alone u] := by
  have hlt : index < Text.length s := (List.getElem?_eq_some_iff.mp hu).1
  have hindex : (Int32.ofNat index).toInt = index := Int32.toInt_ofNat_of_lt (by omega)
  have hget : dispatch "get" [.ofLiteral (.string s), .ofLiteral (.int (Int32.ofNat index))] =
      .ok (.char u) := dispatch_get ⟨rfl, rfl⟩ ⟨rfl, rfl⟩ hindex hu
  -- A unit is held whether it is declared as a character or as anything.
  have hheld : Operand.Holds ⟨type, .char u⟩ (.char u) := ⟨rfl, htype.imp_right Eq.symm⟩
  have hplus := dispatch_plus (a := .ofLiteral (.string text)) ⟨rfl, rfl⟩ hheld
  refine ⟨text ++ (Literal.char u).display, ?_, ?_⟩
  · rw [appendUnit, hget]
    exact hplus
  · rw [Text.units_append, Literal.display, Text.units_singleton, Text.charUnits_ofUnit]

/-- After some steps there is that much of the string, with every unit read alone. -/
theorem exists_spell {count : Nat} (hcount : count ≤ Text.length s) :
    ∃ text, spell s type count = .ok (.string text) ∧
      Text.units text = ((Text.units s).take count).map Text.alone := by
  induction count with
  | zero => exact ⟨"", rfl, rfl⟩
  | succ count ih =>
    obtain ⟨text, hspell, hunits⟩ := ih (by omega)
    have hu := List.getElem?_eq_getElem (l := Text.units s) hcount
    obtain ⟨longer, happend, hlonger⟩ := exists_appendUnit htype hshort hu text
    refine ⟨longer, ?_, ?_⟩
    -- The last of the indices is the one that is appended last.
    · rw [spell, List.range_succ, List.foldlM_append, ← spell, hspell]
      change (appendUnit s type (.string text) count >>= pure) = _
      rw [bind_pure, happend]
    · rw [hlonger, hunits, List.take_add_one, hu, List.map_append]
      rfl

/-- **A string is put together from its own units exactly if it has no pairs.** In general every
surrogate has become the replacement character. -/
theorem spell_eq_iff :
    ∃ text, spell s type (Text.length s) = .ok (.string text) ∧
      Text.units text = (Text.units s).map Text.alone ∧
      (text = s ↔ ∀ index, ¬ Text.PairAt (Text.units s) index) := by
  obtain ⟨text, hspell, hunits⟩ := exists_spell htype hshort (Nat.le_refl _)
  rw [Text.length, List.take_length] at hunits
  refine ⟨text, hspell, hunits, ?_⟩
  rw [← Text.units_inj, hunits, Text.map_alone_eq_iff]

end

/-- A pair does not come together again. -/
theorem spell_pair :
    (spell "😀" .anything (Text.length "😀")).toOption = some (.string "\uFFFD\uFFFD") ∧
      "\uFFFD\uFFFD" ≠ "😀" := by
  decide +kernel

/-- Characters of one unit do. -/
theorem spell_eq_iff_basic :
    Ty.anything.kind = .any ∧ Text.length "a\uFFFF" < 2 ^ 31 ∧
    (∀ index, ¬ Text.PairAt (Text.units "a\uFFFF") index) ∧
    spell "a\uFFFF" .anything (Text.length "a\uFFFF") = .ok (.string "a\uFFFF") := by
  have hshort : Text.length "a\uFFFF" < 2 ^ 31 := by decide +kernel
  have hpairs : ∀ index, ¬ Text.PairAt (Text.units "a\uFFFF") index := by
    rw [← Text.map_alone_eq_iff]
    decide +kernel
  have htype : Ty.anything.kind = .any ∨ Ty.anything.kind = .char := .inl rfl
  obtain ⟨text, hspell, -, heq⟩ := spell_eq_iff htype hshort
  rw [heq.mpr hpairs] at hspell
  exact ⟨rfl, hshort, hpairs, hspell⟩

end CallFolding
