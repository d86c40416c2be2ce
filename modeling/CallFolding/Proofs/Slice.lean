import CallFolding.Proofs.Concatenation

/-!
Parts of strings.

A part is taken out of the units of a string and read as a string of its own. All surrogates of a
string are in pairs, so the only ones that are alone in the part are those whose other half was left
outside: a low unit in front, and a high one at the end. Each of them has become the replacement
character, which is one unit too, so lengths and indices are what they would be anyway
(`dispatch_subSequence_units`).
-/

set_option autoImplicit false

namespace CallFolding

/-! ## Units of a slice -/

namespace Text

/-- The unit at this index of a slice is half of a pair, and the slice ends between the halves. -/
def Halved (us : List UInt16) (start stop index : Nat) : Prop :=
  index = 0 ∧ CutsPair us start ∨ start + index + 1 = stop ∧ CutsPair us stop

section

variable {us : List UInt16} {start stop index : Nat}

/-- The units of a slice are those of the whole, counted from its start. -/
theorem getElem?_drop_take (h : start + index < stop) :
    ((us.take stop).drop start)[index]? = us[start + index]? := by
  rw [List.getElem?_drop, List.getElem?_take_of_lt h]

/-- The pairs of a slice are those of the whole that lie inside with both halves. -/
theorem pairAt_drop_take : PairAt ((us.take stop).drop start) index ↔
    start + index + 1 < stop ∧ PairAt us (start + index) := by
  rw [pairAt_drop]
  by_cases h : start + index + 1 < stop
  · simp [PairAt, List.getElem?_take_of_lt h, List.getElem?_take_of_lt (Nat.lt_of_succ_lt h), h]
  · refine iff_of_false ?_ fun hpair => h hpair.1
    rintro ⟨-, v, -, hv, -, -⟩
    rw [List.getElem?_take_eq_none (Nat.not_lt.mp h)] at hv
    cases hv

/-- A cut inside of a slice goes through a pair where it does in the whole. -/
theorem cutsPair_drop_take (h : start + index < stop) :
    CutsPair ((us.take stop).drop start) index ↔ index ≠ 0 ∧ CutsPair us (start + index) := by
  constructor
  · rintro ⟨first, rfl, hpair⟩
    exact ⟨Nat.succ_ne_zero first, start + first, rfl, (pairAt_drop_take.mp hpair).2⟩
  · rintro ⟨hne, first, hfirst, hpair⟩
    refine ⟨index - 1, by omega, pairAt_drop_take.mpr ⟨by omega, ?_⟩⟩
    obtain rfl : first = start + (index - 1) := by omega
    exact hpair

/-- The first half of a pair in the slice was not halved. -/
theorem not_halved_of_pairAt (h : PairAt ((us.take stop).drop start) index) :
    ¬ Halved us start stop index := by
  obtain ⟨hlt, hpair⟩ := pairAt_drop_take.mp h
  rintro (⟨rfl, hcut⟩ | ⟨hend, -⟩)
  · exact hpair.not_cutsPair hcut
  · omega

theorem not_halved_of_cutsPair (hlt : start + index < stop)
    (h : CutsPair ((us.take stop).drop start) index) : ¬ Halved us start stop index := by
  obtain ⟨hne, hcut⟩ := (cutsPair_drop_take hlt).mp h
  rintro (⟨rfl, -⟩ | ⟨rfl, last, hlast, hpair⟩)
  · exact hne rfl
  -- The unit would end one pair and begin another.
  · obtain rfl : last = start + index := by omega
    exact hpair.not_cutsPair hcut

end

section

variable {s : String} {start stop : Nat}

/-- A slice is as long as its bounds are apart, whatever becomes of its ends. -/
theorem length_slice (hstop : stop ≤ length s) : length (slice s start stop) = stop - start := by
  rw [length] at hstop
  rw [slice, length_ofUnits, List.length_drop, List.length_take, Nat.min_eq_left hstop]

theorem slice_zero_length (s : String) : slice s 0 (length s) = s := by
  rw [slice, List.drop_zero, length, List.take_length, ofUnits_units]

/-- Two slices that meet between pairs make up the string. -/
theorem slice_append_slice {middle : Nat} (hmiddle : middle ≤ length s)
    (h : ¬ CutsPair (units s) middle) : slice s 0 middle ++ slice s middle (length s) = s := by
  rw [slice, slice, List.drop_zero, length, List.take_length, ofUnits_take_append_drop h hmiddle,
    ofUnits_units]

/-- What is alone in a slice without having been halved is no surrogate, for in the string it would
be in a pair. -/
theorem halved_iff {index : Nat} {u : UInt16} (hlt : start + index < stop)
    (hu : (units s)[start + index]? = some u)
    (hpair : ¬ PairAt (((units s).take stop).drop start) index)
    (hcut : ¬ CutsPair (((units s).take stop).drop start) index) :
    Halved (units s) start stop index ↔ isHigh u ∨ isLow u := by
  constructor
  · rintro (⟨rfl, first, rfl, -, low, -, hlow, -, hislow⟩ |
      ⟨rfl, last, hlast, high, -, hhigh, -, hishigh, -⟩)
    · obtain rfl : u = low := Option.some.inj (hu.symm.trans hlow)
      exact .inr hislow
    · obtain rfl : last = start + index := by omega
      obtain rfl : u = high := Option.some.inj (hu.symm.trans hhigh)
      exact .inl hishigh
  · -- In the string the other half is next to it. Inside of the slice that would be a pair.
    rintro (hhigh | hlow)
    · have hstring := pairAt_of_isHigh hu hhigh
      by_cases hinside : start + index + 1 < stop
      · exact absurd (pairAt_drop_take.mpr ⟨hinside, hstring⟩) hpair
      · have hend : start + index + 1 = stop := by omega
        exact .inr ⟨hend, start + index, hend, hstring⟩
    · have hstring := cutsPair_of_isLow hu hlow
      by_cases hfront : index = 0
      · rw [hfront] at hstring
        exact .inl ⟨hfront, hstring⟩
      · exact absurd ((cutsPair_drop_take hlt).mpr ⟨hfront, hstring⟩) hcut

/-- **A slice has the units of the string**, except for what is left of a pair that was halved. -/
theorem getElem?_units_slice {index : Nat} {u : UInt16} (hlt : start + index < stop)
    (hu : (units s)[start + index]? = some u) :
    (Halved (units s) start stop index → (units (slice s start stop))[index]? = some 0xFFFD) ∧
      (¬ Halved (units s) start stop index → (units (slice s start stop))[index]? = some u) := by
  have hunit : (((units s).take stop).drop start)[index]? = some u := by
    rw [getElem?_drop_take hlt, hu]
  -- In the slice the unit is the first half of a pair, the second half of one, or alone.
  by_cases hpair : PairAt (((units s).take stop).drop start) index
  · refine ⟨fun hhalved => absurd hhalved (not_halved_of_pairAt hpair), fun _ => ?_⟩
    rw [slice, (getElem?_units_ofUnits hpair).1, hunit]
  · by_cases hcut : CutsPair (((units s).take stop).drop start) index
    · refine ⟨fun hhalved => absurd hhalved (not_halved_of_cutsPair hlt hcut), fun _ => ?_⟩
      obtain ⟨first, rfl, hpair'⟩ := hcut
      rw [slice, (getElem?_units_ofUnits hpair').2, hunit]
    · rw [halved_iff hlt hu hpair hcut, slice, getElem?_units_ofUnits_alone hunit hpair hcut]
      refine ⟨fun hsurrogate => ?_, fun hbasic => ?_⟩
      · rw [alone_of_surrogate hsurrogate]
      · rw [alone_eq_self_iff.mpr hbasic]

end

end Text

/-! ## Parts by name -/

section

variable {text first last : Operand} {s : String} {start stop : Nat}

/-- Bounds inside the string and in order give the slice. -/
theorem dispatch_subSequence (htext : text.Is (.string s)) (hshort : Text.length s < 2 ^ 31)
    (hle : start ≤ stop) (hstop : stop ≤ Text.length s)
    (hfirst : first.Is (.int (Int32.ofNat start))) (hlast : last.Is (.int (Int32.ofNat stop))) :
    dispatch "subSequence" [text, first, last] = .ok (.string (Text.slice s start stop)) := by
  have hlength : (Int32.ofNat (Text.length s)).toInt = Text.length s :=
    Int32.toInt_ofNat_of_lt hshort
  have hstartInt : (Int32.ofNat start).toInt = start := Int32.toInt_ofNat_of_lt (by omega)
  have hstopInt : (Int32.ofNat stop).toInt = stop := Int32.toInt_ofNat_of_lt (by omega)
  have hslice : Literal.subSequence s (Int32.ofNat start) (Int32.ofNat stop) =
      .ok (.string (Text.slice s start stop)) := by
    simp only [Literal.subSequence, Int32.lt_iff_toInt_lt, hlength, hstartInt, hstopInt,
      Int32.toInt_zero, Int.toNat_natCast]
    rw [if_neg (by omega), if_neg (by omega)]
  have hdeclared : ∀ operand ∈ [text, first, last], operand.HasDeclaredKind := by
    simpa using ⟨htext.holds.2, hfirst.holds.2, hlast.holds.2⟩
  have hallowed : allowsLoose "subSequence" [text, first, last] :=
    allowsLoose_of_kinds (by simpa using ⟨⟨_, htext.1⟩, ⟨_, hfirst.1⟩, ⟨_, hlast.1⟩⟩)
  rw [dispatch_of_declared hdeclared, applyByName, if_pos hallowed]
  simp only [htext.2, hfirst.2, hlast.2, applyTernary, hslice]
  rfl

/-- **A part of a string has its units and its length.** A unit that stands at one end of the part,
and has the other half of its pair outside, is the replacement character. The whole string is a part
of itself, and two parts that meet between pairs make up the string. -/
theorem dispatch_subSequence_units (htext : text.Is (.string s))
    (hshort : Text.length s < 2 ^ 31) :
    (∀ (start stop : Nat) (first last : Operand), start ≤ stop → stop ≤ Text.length s →
      first.Is (.int (Int32.ofNat start)) → last.Is (.int (Int32.ofNat stop)) →
      ∃ t, dispatch "subSequence" [text, first, last] = .ok (.string t) ∧
        ∀ part : Operand, part.Is (.string t) →
          dispatch "length" [part] = .ok (.int (Int32.ofNat (stop - start))) ∧
          ∀ (i : Nat) (here there : Operand), i < stop - start →
            here.Is (.int (Int32.ofNat i)) → there.Is (.int (Int32.ofNat (start + i))) →
            ∃ u, dispatch "get" [text, there] = .ok (.char u) ∧
              (Text.Halved (Text.units s) start stop i →
                dispatch "get" [part, here] = .ok (.char 0xFFFD)) ∧
              (¬ Text.Halved (Text.units s) start stop i →
                dispatch "get" [part, here] = .ok (.char u))) ∧
    (∀ first last : Operand, first.Is (.int 0) →
      last.Is (.int (Int32.ofNat (Text.length s))) →
      dispatch "subSequence" [text, first, last] = .ok (.string s) ∧
      ∀ (k : Nat) (middle : Operand), k ≤ Text.length s → middle.Is (.int (Int32.ofNat k)) →
        ¬ Text.CutsPair (Text.units s) k →
        ∃ front back, dispatch "subSequence" [text, first, middle] = .ok (.string front) ∧
          dispatch "subSequence" [text, middle, last] = .ok (.string back) ∧
          ∀ a b : Operand, a.Is (.string front) → b.Holds (.string back) →
            dispatch "plus" [a, b] = .ok (.string s)) := by
  constructor
  · intro start stop first last hle hstop hfirst hlast
    refine ⟨_, dispatch_subSequence htext hshort hle hstop hfirst hlast, ?_⟩
    intro part hpart
    refine ⟨?_, ?_⟩
    · rw [dispatch_length hpart, Text.length_slice hstop]
    · intro i here there hi hhere hthere
      have hlt : start + i < stop := by omega
      -- An index of the part is one of the string, once the start is added.
      have hinside : start + i < (Text.units s).length := by
        rw [← Text.length]
        omega
      have hhereInt : (Int32.ofNat i).toInt = i := Int32.toInt_ofNat_of_lt (by omega)
      have hthereInt : (Int32.ofNat (start + i)).toInt = (start + i : Nat) :=
        Int32.toInt_ofNat_of_lt (by omega)
      have hu := List.getElem?_eq_getElem hinside
      obtain ⟨hhalved, hkept⟩ := Text.getElem?_units_slice hlt hu
      refine ⟨_, dispatch_get htext hthere hthereInt hu, ?_, ?_⟩
      · intro h
        exact dispatch_get hpart hhere hhereInt (hhalved h)
      · intro h
        exact dispatch_get hpart hhere hhereInt (hkept h)
  · intro first last hfirst hlast
    refine ⟨?_, ?_⟩
    · rw [dispatch_subSequence htext hshort (Nat.zero_le _) (Nat.le_refl _) hfirst hlast,
        Text.slice_zero_length]
    · intro k middle hk hmiddle hcut
      refine ⟨_, _, dispatch_subSequence htext hshort (Nat.zero_le _) hk hfirst hmiddle,
        dispatch_subSequence htext hshort hk (Nat.le_refl _) hmiddle hlast, ?_⟩
      intro a b ha hb
      rw [dispatch_plus ha hb, Literal.display, Text.slice_append_slice hk hcut]

end

/-- A part that begins with the second half of a pair. -/
theorem dispatch_subSequence_units_half :
    let text : Operand := .ofLiteral (.string "a😀b")
    text.Is (.string "a😀b") ∧ Text.length "a😀b" < 2 ^ 31 ∧
    Text.Halved (Text.units "a😀b") 2 4 0 ∧ ¬ Text.Halved (Text.units "a😀b") 2 4 1 ∧
    ∃ t, dispatch "subSequence" [text, .ofLiteral (.int 2), .ofLiteral (.int 4)] =
        .ok (.string t) ∧
      dispatch "length" [.ofLiteral (.string t)] = .ok (.int 2) ∧
      dispatch "get" [.ofLiteral (.string t), .ofLiteral (.int 0)] = .ok (.char 0xFFFD) ∧
      ∃ u, dispatch "get" [text, .ofLiteral (.int 3)] = .ok (.char u) ∧
        dispatch "get" [.ofLiteral (.string t), .ofLiteral (.int 1)] = .ok (.char u) := by
  intro text
  have htext : text.Is (.string "a😀b") := ⟨rfl, rfl⟩
  have hunits : Text.units "a😀b" = [0x61, 0xD83D, 0xDE00, 0x62] := by decide +kernel
  have hshort : Text.length "a😀b" < 2 ^ 31 := by decide +kernel
  have hhalved : Text.Halved (Text.units "a😀b") 2 4 0 := by
    rw [hunits]
    exact .inl ⟨rfl, 1, rfl, 0xD83D, 0xDE00, rfl, rfl, by decide, by decide⟩
  -- The second unit of the slice is at neither end of a pair.
  have hkept : ¬ Text.Halved (Text.units "a😀b") 2 4 1 := by
    rw [hunits]
    rintro (⟨hfront, -⟩ | ⟨-, last, hlast, -, v, -, hv, -⟩)
    · omega
    · rw [hlast] at hv
      cases hv
  obtain ⟨t, ht, hpart⟩ := (dispatch_subSequence_units htext hshort).1 2 4 (.ofLiteral (.int 2))
    (.ofLiteral (.int 4)) (by decide) (by decide +kernel) ⟨rfl, rfl⟩ ⟨rfl, rfl⟩
  obtain ⟨hlength, hget⟩ := hpart (.ofLiteral (.string t)) ⟨rfl, rfl⟩
  obtain ⟨-, -, hfirst, -⟩ := hget 0 (.ofLiteral (.int 0)) (.ofLiteral (.int 2)) (by decide)
    ⟨rfl, rfl⟩ ⟨rfl, rfl⟩
  obtain ⟨u, hu, -, hsecond⟩ := hget 1 (.ofLiteral (.int 1)) (.ofLiteral (.int 3)) (by decide)
    ⟨rfl, rfl⟩ ⟨rfl, rfl⟩
  exact ⟨htext, hshort, hhalved, hkept, t, ht, hlength, hfirst hhalved, u, hu, hsecond hkept⟩

end CallFolding
