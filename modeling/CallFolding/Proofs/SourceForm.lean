import CallFolding.Literal.Text
import CallFolding.Proofs.Residue
import CallFolding.Proofs.Surrogates

/-!
The source form tells literals apart.

The first character says which of four forms a source text has: a word, a character between single
quotes, a string between double quotes, or a numeral. Numerals differ in the digits or in what
stands behind them, which is never a digit. Between quotes the argument is that every escape can be
read without knowing where it ends: `Text.readEscape?` cuts the first one off and gives the
character it stands for, whatever comes after it. A backslash of the text is itself escaped, so what
looks like an escape in the text is never taken for one.

Floating-point numbers are left out, and so are characters that are half of a pair: these are all
written as the replacement character.
-/

set_option autoImplicit false

namespace CallFolding

/-! ## Reading escapes -/

namespace Text

/-- The value of a hexadecimal digit. -/
def hexValue (c : Char) : Nat :=
  if c.isDigit then c.toNat - '0'.toNat else c.toNat - 'a'.toNat + 10

/-- Reads a code point to its closing brace. The digits so far have the value `n`. -/
def readCodePoint? (n : Nat) : List Char → Option (Char × List Char)
  | [] => none
  | c :: cs =>
    if c = '\x7d' then some (Char.ofNat n, cs) else readCodePoint? (16 * n + hexValue c) cs

/-- Reads what stands behind a backslash. -/
def readMarked? : List Char → Option (Char × List Char)
  | [] => none
  | c :: cs =>
    if c = 't' then some ('\t', cs)
    else if c = 'r' then some ('\r', cs)
    else if c = 'n' then some ('\n', cs)
    else if c = 'u' then readCodePoint? 0 (cs.drop 1)
    else some (c, cs)

/-- Reads the first character of a text in source form. -/
def readEscape? : List Char → Option (Char × List Char)
  | [] => none
  | c :: cs => if c = '\\' then readMarked? cs else some (c, cs)

/-- Hexadecimal digits are read as they are written. -/
theorem hexValue_digitChar : ∀ d < 16, hexValue d.digitChar = d := by
  decide

theorem readCodePoint?_digit {d : Nat} (h : d < 16) (n : Nat) (cs : List Char) :
    readCodePoint? n (d.digitChar :: cs) = readCodePoint? (16 * n + d) cs := by
  have hbrace : ∀ d < 16, d.digitChar ≠ '\x7d' := by decide
  rw [readCodePoint?, if_neg (hbrace d h), hexValue_digitChar d h]

/-- All digits of a number are read before anything else is. The induction is on the number, which
loses its last digit. -/
theorem readCodePoint?_toDigits (n : Nat) (cs : List Char) :
    readCodePoint? 0 (Nat.toDigits 16 n ++ cs) = readCodePoint? n cs := by
  induction n using Nat.strongRecOn generalizing cs with
  | ind n ih =>
    rw [Nat.toDigits_eq_if (by decide)]
    split
    · rename_i hlt
      rw [List.singleton_append, readCodePoint?_digit hlt, Nat.mul_zero, Nat.zero_add]
    · rename_i hge
      have hless : n / 16 < n := by omega
      rw [List.append_assoc, ih _ hless, List.singleton_append,
        readCodePoint?_digit (Nat.mod_lt n (by decide)), Nat.div_add_mod]

/-- A code point is read to its closing brace. -/
theorem readEscape?_codePoint (c : Char) (cs : List Char) :
    readEscape? (escapeCodePoint c ++ cs) = some (c, cs) := by
  have hcode : readEscape? (escapeCodePoint c ++ cs) =
      readCodePoint? 0 (Nat.toDigits 16 c.toNat ++ '\x7d' :: cs) := by
    simp [escapeCodePoint, readEscape?, readMarked?]
  rw [hcode, readCodePoint?_toDigits, readCodePoint?, if_pos rfl, Char.ofNat_toNat]

/-- **An escape is read whatever comes after it.** -/
theorem readEscape?_escapeForSource (c : Char) (cs : List Char) :
    readEscape? (escapeForSource c ++ cs) = some (c, cs) := by
  -- The escapes are tried in the order in which they are written.
  unfold escapeForSource
  split
  · subst c; rfl
  split
  · subst c; rfl
  split
  · subst c; rfl
  split
  · rename_i hquote
    rcases hquote with rfl | rfl | rfl <;> rfl
  · rename_i hquote
    split
    · have hplain : c ≠ '\\' := fun h => hquote (.inr (.inr h))
      rw [List.singleton_append, readEscape?, if_neg hplain]
    · exact readEscape?_codePoint c cs

/-- No two characters have the same escape. -/
theorem escapeForSource_inj {c d : Char} (h : escapeForSource c = escapeForSource d) : c = d := by
  have hread := readEscape?_escapeForSource c []
  rw [h, readEscape?_escapeForSource d []] at hread
  exact (congrArg Prod.fst (Option.some.inj hread)).symm

/-- No two texts have the same escapes, since the first one can be cut off on both sides. -/
theorem flatMap_escapeForSource_inj {cs ds : List Char}
    (h : cs.flatMap escapeForSource = ds.flatMap escapeForSource) : cs = ds := by
  induction cs generalizing ds with
  | nil =>
    cases ds with
    | nil => rfl
    | cons d ds =>
      -- An escape is never empty, so only the empty text has none.
      have hread := readEscape?_escapeForSource d (ds.flatMap escapeForSource)
      rw [← List.flatMap_cons, ← h] at hread
      cases hread
  | cons c cs ih =>
    have hread := readEscape?_escapeForSource c (cs.flatMap escapeForSource)
    rw [← List.flatMap_cons, h] at hread
    cases ds with
    | nil => cases hread
    | cons d ds =>
      rw [List.flatMap_cons, readEscape?_escapeForSource d] at hread
      obtain ⟨rfl, hrest⟩ := Prod.mk.inj (Option.some.inj hread)
      rw [ih hrest.symm]

/-- A unit that is not half of a pair is known by its character. -/
theorem ofUnit_inj {u v : UInt16} (hu : ¬ (isHigh u ∨ isLow u)) (hv : ¬ (isHigh v ∨ isLow v))
    (h : ofUnit u = ofUnit v) : u = v := by
  have hunits := congrArg charUnits h
  rw [charUnits_ofUnit, charUnits_ofUnit, alone_eq_self_iff.mpr hu, alone_eq_self_iff.mpr hv]
    at hunits
  exact List.singleton_inj.mp hunits

end Text

/-! ## Numerals -/

/-- What stands behind the digits of an integer of this kind. -/
def IntegralKind.suffix : IntegralKind → String
  | .byte => ".toByte()"
  | .short => ".toShort()"
  | .int => ""
  | .long => "L"
  | .uByte => "u.toUByte()"
  | .uShort => "u.toUShort()"
  | .uInt => "u"
  | .uLong => "uL"

theorem IntegralKind.suffix_inj {k l : IntegralKind} (h : k.suffix = l.suffix) : k = l := by
  cases k <;> cases l <;> first | rfl | exact absurd h (by decide)

/-- The characters of an integer in decimal. -/
def isNumeral (c : Char) : Bool :=
  c.isDigit || c == '-'

/-- The decimal of an integer: a minus sign if it is negative, and the digits of its size. -/
theorem toList_toString (n : Int) :
    (toString n).toList = (if n < 0 then ['-'] else []) ++ Nat.toDigits 10 n.natAbs := by
  rw [Int.toString_eq_repr, Int.repr_eq_if]
  by_cases hneg : n < 0
  · have habs : (-n).toNat = n.natAbs := by omega
    rw [if_neg (by omega), if_pos hneg, String.toList_append, Nat.toList_repr, habs]
    rfl
  · have habs : n.toNat = n.natAbs := by omega
    rw [if_pos (by omega), if_neg hneg, Nat.toList_repr, habs, List.nil_append]

/-- Digits in base ten are decimal digits. -/
theorem isDigit_of_mem_toDigits {n : Nat} {c : Char} (h : c ∈ Nat.toDigits 10 n) :
    c.isDigit = true :=
  Nat.isDigit_of_mem_toDigits (by decide) (by decide) h

/-- Nothing else is in the decimal of an integer. -/
theorem isNumeral_of_mem {n : Int} {c : Char} (h : c ∈ (toString n).toList) : isNumeral c := by
  rw [toList_toString, List.mem_append] at h
  rcases h with hsign | hdigit
  · split at hsign
    · rw [List.mem_singleton.mp hsign]
      decide
    · cases hsign
  · rw [isNumeral, isDigit_of_mem_toDigits hdigit, Bool.true_or]

theorem toList_toString_ne_nil (n : Int) : (toString n).toList ≠ [] := by
  rw [toList_toString]
  exact List.append_ne_nil_of_right_ne_nil _ Nat.toDigits_ne_nil

/-- An integer is known by its decimal: the sign by the minus, the size by the digits. -/
theorem toString_inj {m n : Int} (h : toString m = toString n) : m = n := by
  -- No digit is a minus sign, so the sign and the digits can be told apart in the text.
  have hsign : ∀ k : Int, '-' ∈ (toString k).toList ↔ k < 0 := by
    intro k
    have hdigits : '-' ∉ Nat.toDigits 10 k.natAbs := fun hmem =>
      absurd (isDigit_of_mem_toDigits hmem) (by decide)
    rw [toList_toString, List.mem_append, or_iff_left hdigits]
    split <;> simp [*]
  have hsize : ∀ k : Int,
      Nat.ofDigitChars 10 ((toString k).toList.filter Char.isDigit) 0 = k.natAbs := by
    intro k
    have hnone : (if k < 0 then ['-'] else []).filter Char.isDigit = [] := by split <;> rfl
    rw [toList_toString, List.filter_append, hnone, List.nil_append,
      List.filter_eq_self.mpr fun c hc => isDigit_of_mem_toDigits hc,
      Nat.ofDigitChars_ten_toDigits]
  have hneg : m < 0 ↔ n < 0 := by rw [← hsign m, h, hsign n]
  have habs : m.natAbs = n.natAbs := by rw [← hsize m, h, hsize n]
  omega

theorem IntegralKind.takeWhile_suffix (k : IntegralKind) :
    k.suffix.toList.takeWhile isNumeral = [] := by
  cases k <;> decide

/-- The digits end where the suffix begins, so both can be told from the text. -/
theorem numeral_inj {m n : Int} {k l : IntegralKind}
    (h : toString m ++ k.suffix = toString n ++ l.suffix) : m = n ∧ k = l := by
  have hnumeral : ∀ (n : Int) (k : IntegralKind),
      (toString n ++ k.suffix).toList.takeWhile isNumeral = (toString n).toList := by
    intro n k
    rw [String.toList_append, List.takeWhile_append_of_pos fun c hc => isNumeral_of_mem hc,
      k.takeWhile_suffix, List.append_nil]
  have hdigits : toString m = toString n := by
    rw [← String.toList_inj, ← hnumeral m k, h, hnumeral n l]
  have hsuffix : k.suffix = l.suffix := by
    rw [hdigits] at h
    exact String.append_right_inj _ |>.mp h
  exact ⟨toString_inj hdigits, IntegralKind.suffix_inj hsuffix⟩

namespace Literal

variable {a b : Literal}

/-- The source of an integer is its decimal with the suffix of its kind. -/
theorem source_of_integral? {k : IntegralKind} {n : Int} (h : a.integral? = some (k, n)) :
    a.source = toString n ++ k.suffix := by
  cases a <;> cases h <;> first | rfl | exact (String.append_empty).symm

/-! ## Forms -/

/-- What a source text looks like. -/
inductive Form where
  | word
  | character
  | text
  | numeral
deriving DecidableEq

/-- The form of a text, from its first character. -/
def Form.ofText (s : String) : Form :=
  match s.toList with
  | [] => .word
  | c :: _ =>
    if c = '\'' then .character else if c = '"' then .text else if isNumeral c then .numeral
    else .word

/-- The form that a literal is written in. -/
def form : Literal → Form
  | unit | boolean _ => .word
  | char _ => .character
  | string _ => .text
  | _ => .numeral

/-- Neither a floating-point number nor half of a pair. -/
def IsLegible : Literal → Prop
  | float _ | double _ => False
  | char u => ¬ (Text.isHigh u ∨ Text.isLow u)
  | _ => True

/-- What is written as a numeral is an integer, if it is no floating-point number. -/
theorem exists_integral?_of_form (h : a.IsLegible) (hform : a.form = .numeral) :
    ∃ k n, a.integral? = some (k, n) := by
  cases a with
  | unit | boolean | char | string => cases hform
  | float | double => exact h.elim
  | _ => exact ⟨_, _, rfl⟩

/-- A numeral begins with a digit or a minus sign. -/
theorem Form.ofText_numeral (n : Int) (k : IntegralKind) :
    ofText (toString n ++ k.suffix) = .numeral := by
  obtain ⟨c, cs, hcs⟩ := List.exists_cons_of_ne_nil (toList_toString_ne_nil n)
  have hnumeral : isNumeral c := isNumeral_of_mem (by rw [hcs]; exact List.mem_cons_self)
  have hquote : c ≠ '\'' ∧ c ≠ '"' := by
    constructor <;> rintro rfl <;> exact absurd hnumeral (by decide)
  simp only [ofText, String.toList_append, hcs, List.cons_append, if_neg hquote.1,
    if_neg hquote.2, if_pos hnumeral]

/-- The first character of a source text says what form it has. -/
theorem ofText_source (h : a.IsLegible) : Form.ofText a.source = a.form := by
  -- Quotes and words are seen at once. A numeral begins with a digit or a sign, whatever its value.
  cases hform : a.form with
  | numeral =>
    obtain ⟨k, n, hintegral⟩ := exists_integral?_of_form h hform
    rw [source_of_integral? hintegral, Form.ofText_numeral]
  | word =>
    cases a with
    | unit => rfl
    | boolean b => cases b <;> rfl
    | _ => cases hform
  | character =>
    cases a with
    | char u => simp [source, Form.ofText]
    | _ => cases hform
  | text =>
    cases a with
    | string s => simp [source, Text.quoteForSource, Form.ofText]
    | _ => cases hform

/-! ## Literals from their source -/

/-- Characters are known by what is between their quotes. -/
theorem source_char_inj {u v : UInt16} (hu : (char u).IsLegible) (hv : (char v).IsLegible)
    (h : (char u).source = (char v).source) : u = v := by
  simp only [source, ← String.toList_inj, String.toList_append, String.toList_ofList] at h
  exact Text.ofUnit_inj hu hv
    (Text.escapeForSource_inj (List.append_cancel_left (List.append_cancel_right h)))

theorem source_string_inj {s t : String} (h : (string s).source = (string t).source) : s = t := by
  simp only [source, Text.quoteForSource, ← String.toList_inj, String.toList_append,
    String.toList_ofList] at h
  exact String.toList_inj.mp
    (Text.flatMap_escapeForSource_inj (List.append_cancel_left (List.append_cancel_right h)))

theorem mem_of_form_word (h : a.form = .word) : a ∈ [unit, boolean false, boolean true] := by
  cases a with
  | unit => decide
  | boolean x => cases x <;> decide
  | _ => cases h

theorem source_word_inj (ha : a.form = .word) (hb : b.form = .word) (h : a.source = b.source) :
    a = b := by
  have hwords : ∀ a ∈ [unit, boolean false, boolean true],
      ∀ b ∈ [unit, boolean false, boolean true], a.source = b.source → a = b := by decide
  exact hwords a (mem_of_form_word ha) b (mem_of_form_word hb) h

/-- The digits and the suffix give the value and the kind back. -/
theorem source_integral_inj {k l : IntegralKind} {m n : Int} (ha : a.integral? = some (k, m))
    (hb : b.integral? = some (l, n)) (h : a.source = b.source) : a = b := by
  rw [source_of_integral? ha, source_of_integral? hb] at h
  obtain ⟨rfl, rfl⟩ := numeral_inj h
  have hkind : a.kind = b.kind := by rw [kind_of_integral? ha, kind_of_integral? hb]
  exact eq_of_whole? hkind (whole?_of_integral? ha) (whole?_of_integral? hb)

/-- **The source form tells literals apart**: two literals that are neither floating-point numbers
nor halves of pairs have the same source text only if they are the same. -/
theorem source_eq_iff (ha : a.IsLegible) (hb : b.IsLegible) : a.source = b.source ↔ a = b := by
  refine ⟨fun h => ?_, fun h => h ▸ rfl⟩
  -- The texts begin alike, so the literals have one form and need only be compared within it.
  have hform : a.form = b.form := by rw [← ofText_source ha, h, ofText_source hb]
  cases hkind : a.form with
  | word => exact source_word_inj hkind (hform.symm.trans hkind) h
  | character =>
    cases a with
    | char u =>
      cases b with
      | char v => rw [source_char_inj ha hb h]
      | _ => cases hform
    | _ => cases hkind
  | text =>
    cases a with
    | string s =>
      cases b with
      | string t => rw [source_string_inj h]
      | _ => cases hform
    | _ => cases hkind
  | numeral =>
    obtain ⟨k, m, hk⟩ := exists_integral?_of_form ha hkind
    obtain ⟨l, n, hl⟩ := exists_integral?_of_form hb (hform.symm.trans hkind)
    exact source_integral_inj hk hl h

/-- The source of a string with a character that has to be escaped, and the source of the string
that its escape is. -/
theorem source_eq_iff_escape : let accented := string "\u00e9"
    let spelled := string "\\u\x7be9\x7d"
    accented.source = "\"\\u\x7be9\x7d\"" ∧ accented.IsLegible ∧ spelled.IsLegible ∧
    accented.source ≠ spelled.source := by
  intro accented spelled
  have haccented : accented.IsLegible := trivial
  have hspelled : spelled.IsLegible := trivial
  exact ⟨by decide, haccented, hspelled, (source_eq_iff haccented hspelled).not.mpr (by decide)⟩

end Literal

end CallFolding
