import CallFolding.Proofs.Units

/-!
Pairs of surrogates in sequences of units.

Reading goes from left to right, but it has no choice: a high unit with a low one right behind it is
a pair, and every other surrogate is alone, whatever stands around. So a sequence can be cut
anywhere but inside a pair and its two sides read apart (`charsOfUnits_append`), and all that is
said about an index below comes from cuts next to it.

Reading and writing again changes the surrogates that are alone and nothing else
(`getElem?_units_ofUnits`, `getElem?_units_ofUnits_alone`). A string does not change, so its
surrogates are all in pairs (`pairAt_of_isHigh`, `cutsPair_of_isLow`).
-/

set_option autoImplicit false

namespace CallFolding.Text

/-! ## Units of what was read -/

/-- The units of two strings in a row are their units in a row. -/
theorem units_append (s t : String) : units (s ++ t) = units s ++ units t := by
  rw [units, String.toList_append, List.flatMap_append, units, units]

/-- So lengths add up. -/
theorem length_append (s t : String) : length (s ++ t) = length s + length t := by
  rw [length, units_append, List.length_append, length, length]

theorem units_singleton (c : Char) : units (String.singleton c) = charUnits c := by
  rw [units, String.toList_singleton, List.flatMap_singleton]

/-- What is written again is what was read, character by character. -/
theorem units_ofUnits (us : List UInt16) :
    units (ofUnits us) = (charsOfUnits us).flatMap charUnits := by
  rw [units, ofUnits, String.toList_ofList]

/-- The two ranges of surrogates do not meet. -/
theorem not_isLow_of_isHigh {u : UInt16} (h : isHigh u) : ¬ isLow u := by
  rw [isHigh_iff] at h
  rw [isLow_iff]
  omega

/-- What a unit is once it has been read alone. -/
def alone (u : UInt16) : UInt16 :=
  if isHigh u || isLow u then 0xFFFD else u

theorem alone_of_surrogate {u : UInt16} (h : isHigh u ∨ isLow u) : alone u = 0xFFFD :=
  if_pos (by simpa using h)

/-- Everything else stays, and nothing but surrogates changes. -/
theorem alone_eq_self_iff {u : UInt16} : alone u = u ↔ ¬ (isHigh u ∨ isLow u) := by
  by_cases h : isHigh u ∨ isLow u
  · rw [alone_of_surrogate h]
    -- The replacement character lies above the surrogates.
    refine iff_of_false ?_ (not_not_intro h)
    rintro rfl
    exact absurd h (by decide)
  · exact iff_of_true (if_neg (by simpa using h)) h

theorem toNat_charOfNat {n : Nat} (h : n.isValidChar) : (Char.ofNat n).toNat = n := by
  rw [Char.ofNat, dif_pos h]
  rfl

/-- A unit read alone is written as one unit. -/
theorem charUnits_ofUnit (u : UInt16) : charUnits (ofUnit u) = [alone u] := by
  by_cases h : isHigh u ∨ isLow u
  · -- The replacement character has one unit.
    have hsurrogate : (isHigh u || isLow u) = true := by simpa using h
    rw [ofUnit, alone, if_pos hsurrogate, if_pos hsurrogate]
    decide
  · -- Units outside of both ranges are numbers of characters.
    have hbasic : ¬ (isHigh u || isLow u) = true := by simpa using h
    have hlt := u.toNat_lt
    have hvalid : u.toNat.isValidChar := by
      rw [isHigh_iff, isLow_iff] at h
      unfold Nat.isValidChar
      omega
    rw [ofUnit, alone, if_neg hbasic, if_neg hbasic, charUnits, toNat_charOfNat hvalid,
      if_pos (by omega), UInt16.ofNat_toNat]

/-- A pair read together is written as the same pair. -/
theorem charUnits_ofPair {u v : UInt16} (hu : isHigh u) (hv : isLow v) :
    charUnits (ofPair u v) = [u, v] := by
  rw [isHigh_iff] at hu
  rw [isLow_iff] at hv
  -- Each half has ten bits of the character, counted from where its range begins.
  obtain ⟨high, hhigh⟩ : ∃ high, u.toNat = 0xD800 + high := ⟨u.toNat - 0xD800, by omega⟩
  obtain ⟨low, hlow⟩ : ∃ low, v.toNat = 0xDC00 + low := ⟨v.toNat - 0xDC00, by omega⟩
  have hcode : (ofPair u v).toNat = 0x10000 + high * 0x400 + low := by
    rw [ofPair, hhigh, hlow, Nat.add_sub_cancel_left, Nat.add_sub_cancel_left]
    apply toNat_charOfNat
    unfold Nat.isValidChar
    omega
  have hfirst : 0xD800 + (0x10000 + high * 0x400 + low - 0x10000) / 0x400 = u.toNat := by omega
  have hsecond : 0xDC00 + (0x10000 + high * 0x400 + low - 0x10000) % 0x400 = v.toNat := by omega
  rw [charUnits, hcode, if_neg (by omega), hfirst, hsecond, UInt16.ofNat_toNat, UInt16.ofNat_toNat]

/-- Reading keeps the length: an unpaired surrogate becomes a character of one unit. -/
theorem length_ofUnits (us : List UInt16) : length (ofUnits us) = us.length := by
  rw [length, units_ofUnits]
  fun_induction charsOfUnits us with
  | case1 => rfl
  | case2 u =>
    rw [List.flatMap_singleton, charUnits_ofUnit]
    rfl
  | case3 u v rest hpair ih =>
    obtain ⟨hu, hv⟩ := Bool.and_eq_true_iff.mp hpair
    rw [List.flatMap_cons, charUnits_ofPair hu hv, List.length_append, ih]
    simp only [List.length_cons, List.length_nil]
    omega
  | case4 u v rest hpair ih =>
    rw [List.flatMap_cons, charUnits_ofUnit, List.length_append, ih]
    simp only [List.length_cons, List.length_nil]
    omega

/-! ## Cuts -/

/-- A pair begins at this index. -/
def PairAt (us : List UInt16) (index : Nat) : Prop :=
  ∃ u v, us[index]? = some u ∧ us[index + 1]? = some v ∧ isHigh u ∧ isLow v

/-- A pair is in two when the sequence is cut in front of this index. -/
def CutsPair (us : List UInt16) (index : Nat) : Prop :=
  ∃ start, start + 1 = index ∧ PairAt us start

theorem pairAt_cons_succ {u : UInt16} {us : List UInt16} {index : Nat} :
    PairAt (u :: us) (index + 1) ↔ PairAt us index := by
  simp [PairAt]

/-- A cut stays where it is when a unit is put in front. -/
theorem cutsPair_cons {u : UInt16} {us : List UInt16} {index : Nat} (h : CutsPair us index) :
    CutsPair (u :: us) (index + 1) := by
  obtain ⟨start, rfl, hpair⟩ := h
  exact ⟨start + 1, rfl, pairAt_cons_succ.mpr hpair⟩

/-- **Both sides of a cut are read apart**, unless the cut goes through a pair. -/
theorem charsOfUnits_append {us vs : List UInt16} (h : ¬ CutsPair (us ++ vs) us.length) :
    charsOfUnits (us ++ vs) = charsOfUnits us ++ charsOfUnits vs := by
  -- Along the first side. Only its last unit could make a pair with what is behind the cut.
  fun_induction charsOfUnits us with
  | case1 => rfl
  | case2 u =>
    cases vs with
    | nil => rfl
    | cons v vs =>
      have hpair : ¬ (isHigh u && isLow v) = true := by
        intro hpair
        obtain ⟨hu, hv⟩ := Bool.and_eq_true_iff.mp hpair
        exact h ⟨0, rfl, u, v, rfl, rfl, hu, hv⟩
      rw [List.singleton_append, charsOfUnits, if_neg hpair]
      rfl
  | case3 u v rest hpair ih =>
    have hrest : ¬ CutsPair (rest ++ vs) rest.length := by
      intro hcut
      exact h (cutsPair_cons (cutsPair_cons hcut))
    rw [List.cons_append, List.cons_append, charsOfUnits, if_pos hpair, ih hrest, List.cons_append]
  | case4 u v rest hpair ih =>
    have hrest : ¬ CutsPair (v :: rest ++ vs) (v :: rest).length := by
      intro hcut
      exact h (cutsPair_cons hcut)
    rw [List.cons_append, List.cons_append, charsOfUnits, if_neg hpair, ← List.cons_append,
      ih hrest, List.cons_append]

/-- The strings on both sides of a cut make up the whole. -/
theorem ofUnits_append {us vs : List UInt16} (h : ¬ CutsPair (us ++ vs) us.length) :
    ofUnits (us ++ vs) = ofUnits us ++ ofUnits vs := by
  rw [ofUnits, charsOfUnits_append h, String.ofList_append, ofUnits, ofUnits]

/-- The same for a sequence that is cut at an index. -/
theorem ofUnits_take_append_drop {us : List UInt16} {index : Nat} (h : ¬ CutsPair us index)
    (hindex : index ≤ us.length) :
    ofUnits (us.take index) ++ ofUnits (us.drop index) = ofUnits us := by
  have hlength : (us.take index).length = index := by
    rw [List.length_take]
    omega
  have hcut : ¬ CutsPair (us.take index ++ us.drop index) (us.take index).length := by
    rwa [List.take_append_drop, hlength]
  rw [← ofUnits_append hcut, List.take_append_drop]

/-! ## Single units -/

/-- Pairs are counted from where the sequence was cut. -/
theorem pairAt_drop {us : List UInt16} {start index : Nat} :
    PairAt (us.drop start) index ↔ PairAt us (start + index) := by
  simp only [PairAt, List.getElem?_drop, Nat.add_assoc]

/-- Pairs do not overlap, so in front of one there is no other to cut. -/
theorem PairAt.not_cutsPair {us : List UInt16} {index : Nat} (h : PairAt us index) :
    ¬ CutsPair us index := by
  rintro ⟨start, rfl, -, low, -, hlow, -, hislow⟩
  obtain ⟨high, -, hhigh, -, hishigh, -⟩ := h
  obtain rfl : low = high := Option.some.inj (hlow.symm.trans hhigh)
  exact not_isLow_of_isHigh hishigh hislow

/-- From a cut on, reading can forget what was in front. -/
theorem getElem?_units_ofUnits_drop {us : List UInt16} {start : Nat} (h : ¬ CutsPair us start)
    (hstart : start ≤ us.length) (index : Nat) :
    (units (ofUnits us))[start + index]? = (units (ofUnits (us.drop start)))[index]? := by
  have hfront : (units (ofUnits (us.take start))).length = start := by
    rw [← length, length_ofUnits, List.length_take]
    omega
  rw [← ofUnits_take_append_drop h hstart, units_append, List.getElem?_append_right (by omega),
    hfront, Nat.add_sub_cancel_left]

/-- A pair is still there when a sequence has been read and written again. -/
theorem getElem?_units_ofUnits {us : List UInt16} {index : Nat} (h : PairAt us index) :
    (units (ofUnits us))[index]? = us[index]? ∧
      (units (ofUnits us))[index + 1]? = us[index + 1]? := by
  -- What is in front of the pair is cut off, so that the pair is what is read first.
  have hcut := h.not_cutsPair
  obtain ⟨u, v, hu, hv, hhigh, hlow⟩ := h
  obtain ⟨hlt, rfl⟩ := List.getElem?_eq_some_iff.mp hu
  obtain ⟨hlt', rfl⟩ := List.getElem?_eq_some_iff.mp hv
  have hread : units (ofUnits (us.drop index)) =
      us[index] :: us[index + 1] :: units (ofUnits (us.drop (index + 2))) := by
    rw [List.drop_eq_getElem_cons hlt, List.drop_eq_getElem_cons hlt', units_ofUnits,
      charsOfUnits_pair hhigh hlow, List.flatMap_cons, charUnits_ofPair hhigh hlow, ← units_ofUnits]
    rfl
  have hdrop := getElem?_units_ofUnits_drop hcut (Nat.le_of_lt hlt)
  constructor
  · rw [hu]
    simpa [hread] using hdrop 0
  · rw [hv]
    simpa [hread] using hdrop 1

/-- A unit that is no half of a pair is read alone. -/
theorem getElem?_units_ofUnits_alone {us : List UInt16} {index : Nat} {u : UInt16}
    (hu : us[index]? = some u) (hpair : ¬ PairAt us index) (hcut : ¬ CutsPair us index) :
    (units (ofUnits us))[index]? = some (alone u) := by
  -- The sequence may be cut on both sides of the unit.
  obtain ⟨hlt, rfl⟩ := List.getElem?_eq_some_iff.mp hu
  have hnext : ¬ CutsPair ([us[index]] ++ us.drop (index + 1)) 1 := by
    rintro ⟨start, hstart, hpair'⟩
    obtain rfl : start = 0 := by omega
    rw [List.singleton_append, ← List.drop_eq_getElem_cons hlt, pairAt_drop] at hpair'
    exact hpair hpair'
  have hread : units (ofUnits (us.drop index)) =
      alone us[index] :: units (ofUnits (us.drop (index + 1))) := by
    rw [List.drop_eq_getElem_cons hlt, ← List.singleton_append, ofUnits_append hnext, units_append,
      units_ofUnits [us[index]], charsOfUnits, List.flatMap_singleton, charUnits_ofUnit]
    rfl
  simpa [hread] using getElem?_units_ofUnits_drop hcut (Nat.le_of_lt hlt) 0

/-! ## Strings -/

section

variable {s : String} {index : Nat} {u : UInt16} (hu : (units s)[index]? = some u)

include hu

/-- A surrogate that were alone would not be there any more when the string has been read back. -/
theorem pairAt_or_cutsPair (h : isHigh u ∨ isLow u) :
    PairAt (units s) index ∨ CutsPair (units s) index := by
  by_cases hpair : PairAt (units s) index
  · exact .inl hpair
  · by_cases hcut : CutsPair (units s) index
    · exact .inr hcut
    · have halone := getElem?_units_ofUnits_alone hu hpair hcut
      rw [ofUnits_units, hu] at halone
      exact absurd h (alone_eq_self_iff.mp (Option.some.inj halone).symm)

/-- In a string every high unit begins a pair. -/
theorem pairAt_of_isHigh (h : isHigh u) : PairAt (units s) index := by
  refine (pairAt_or_cutsPair hu (.inl h)).resolve_right ?_
  rintro ⟨start, rfl, -, v, -, hv, -, hlow⟩
  obtain rfl : u = v := Option.some.inj (hu.symm.trans hv)
  exact not_isLow_of_isHigh h hlow

/-- In a string every low unit ends one. -/
theorem cutsPair_of_isLow (h : isLow u) : CutsPair (units s) index := by
  refine (pairAt_or_cutsPair hu (.inr h)).resolve_left ?_
  rintro ⟨v, -, hv, -, hhigh, -⟩
  obtain rfl : u = v := Option.some.inj (hu.symm.trans hv)
  exact not_isLow_of_isHigh hhigh h

end

/-- Reading every unit alone spares the strings without pairs, and no others. -/
theorem map_alone_eq_iff (s : String) :
    (units s).map alone = units s ↔ ∀ index, ¬ PairAt (units s) index := by
  constructor
  · rintro h index ⟨u, -, hu, -, hhigh, -⟩
    have halone : ((units s).map alone)[index]? = some (alone u) := by
      rw [List.getElem?_map, hu]
      rfl
    rw [h, hu] at halone
    exact alone_eq_self_iff.mp (Option.some.inj halone).symm (.inl hhigh)
  · intro h
    apply List.ext_getElem?
    intro index
    rw [List.getElem?_map]
    cases hu : (units s)[index]? with
    | none => rfl
    | some u =>
      have hbasic : alone u = u := by
        refine alone_eq_self_iff.mpr fun hsurrogate => ?_
        rcases pairAt_or_cutsPair hu hsurrogate with hpair | ⟨start, -, hpair⟩
        · exact h index hpair
        · exact h start hpair
      rw [Option.map_some, hbasic]

end CallFolding.Text
