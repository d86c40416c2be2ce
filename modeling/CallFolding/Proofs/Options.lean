import CallFolding.Options
import Mathlib.Data.List.Induction
import Mathlib.Data.Nat.Digits.Defs

/-!
Options from text.

What the texts of options mean is said here without reading them: `Denotes` gives the numbers that
a text stands for, and `Field.Reads` the content that it gives an option. An option is a field of
`Options` with a key of its own; the three are treated as one, through what `get` sees of a field
and what `put` does to it.

Setting an option does what its text means and leaves the other fields alone, or it fails and leaves
all of them alone (`Exact`). The rest is about lists, by induction on the last pair: a field has the
content that the last pair with its key gives it, because the pairs before that one are overwritten
and those after it are about other fields.
-/

set_option autoImplicit false

namespace CallFolding

/-! ## Numbers -/

/-- The text is the number `n` in decimal: one or more digits, with a plus sign before them or
not. -/
def Denotes (text : String) (n : Nat) : Prop :=
  ∃ sign ∈ ["", "+"], ∃ digits : List (Fin 10), digits ≠ [] ∧
    text = sign ++ String.ofList (digits.map fun d => d.val.digitChar) ∧
    Nat.ofDigits 10 (digits.reverse.map Fin.val) = n

section

variable {digits : List (Fin 10)} {cs : List Char}

/-- Reading digits from the left gives the number that they denote. -/
theorem foldl_digits (digits : List (Fin 10)) :
    (digits.map fun d => d.val.digitChar).foldl (fun n c => 10 * n + (c.toNat - '0'.toNat)) 0 =
      Nat.ofDigits 10 (digits.reverse.map Fin.val) := by
  induction digits using List.reverseRecOn with
  | nil => rfl
  | append_singleton digits d ih =>
    have hd : d.val.digitChar.toNat - '0'.toNat = d.val :=
      Nat.toNat_digitChar_sub_48_of_lt_ten d.isLt
    rw [List.map_append, List.foldl_append, ih, List.reverse_append, List.map_append,
      List.map_singleton, List.foldl_cons, List.foldl_nil, hd]
    simp [Nat.ofDigits_cons, Nat.add_comm]

/-- A character is a digit only if it is the character of one. -/
theorem exists_digit {c : Char} (h : c.isDigit) : ∃ d : Fin 10, d.val.digitChar = c := by
  obtain ⟨hlow, hhigh⟩ := Char.isDigit_iff_toNat.mp h
  have hzero : '0'.toNat = 48 := rfl
  have hnine : '9'.toNat = 57 := rfl
  have hlt : c.toNat - 48 < 10 := by omega
  refine ⟨⟨c.toNat - 48, hlt⟩, Char.toNat_inj.mp ?_⟩
  rw [Nat.toNat_digitChar_of_lt_ten hlt]
  omega

/-- A text of such characters is a list of digits. -/
theorem exists_digits (h : cs.all Char.isDigit) :
    ∃ digits : List (Fin 10), digits.map (fun d => d.val.digitChar) = cs := by
  induction cs with
  | nil => exact ⟨[], rfl⟩
  | cons c cs ih =>
    rw [List.all_cons, Bool.and_eq_true] at h
    obtain ⟨d, rfl⟩ := exists_digit h.1
    obtain ⟨digits, rfl⟩ := ih h.2
    exact ⟨d :: digits, rfl⟩

/-- The text without a plus sign in front. -/
def unsigned : List Char → List Char
  | '+' :: cs => cs
  | cs => cs

/-- Digits are read only if there are some and their number is not too large. -/
theorem parseWord?_eq_some {text : String} {n : Nat} :
    parseWord? text = some n ↔ ∃ digits : List (Fin 10), digits ≠ [] ∧
      unsigned text.toList = digits.map (fun d => d.val.digitChar) ∧
      Nat.ofDigits 10 (digits.reverse.map Fin.val) = n ∧ n < 2 ^ 64 := by
  have hparse : parseWord? text =
      let value := (unsigned text.toList).foldl (fun n c => 10 * n + (c.toNat - '0'.toNat)) 0
      if !(unsigned text.toList).isEmpty && (unsigned text.toList).all Char.isDigit &&
        value < UInt64.size then some value else none := rfl
  rw [hparse]
  -- Only the text without its sign matters from here on.
  generalize unsigned text.toList = cs
  constructor
  · intro h
    rw [Option.ite_none_right_eq_some] at h
    obtain ⟨hcond, hvalue⟩ := h
    simp only [Bool.and_eq_true, Bool.not_eq_true', decide_eq_true_eq] at hcond
    obtain ⟨⟨hne, hdigits⟩, hlt⟩ := hcond
    obtain ⟨digits, rfl⟩ := exists_digits hdigits
    rw [Option.some.injEq, foldl_digits] at hvalue
    rw [foldl_digits, hvalue] at hlt
    exact ⟨digits, by simpa using hne, rfl, hvalue, hlt⟩
  · rintro ⟨digits, hne, rfl, rfl, hlt⟩
    rw [foldl_digits, if_pos]
    simpa [hne, UInt64.size] using hlt

theorem unsigned_of_ne {c : Char} (h : c ≠ '+') : unsigned (c :: cs) = c :: cs := by
  unfold unsigned
  split
  · rename_i heq
    exact absurd (List.cons.inj heq).1 h
  · rfl

/-- No digit is a plus sign, so at most one is taken away. -/
theorem unsigned_eq_digits (hne : digits ≠ []) :
    unsigned cs = digits.map (fun d => d.val.digitChar) ↔
      cs = digits.map (fun d => d.val.digitChar) ∨
      cs = '+' :: digits.map fun d => d.val.digitChar := by
  constructor
  · intro h
    cases cs with
    | nil => exact .inl h
    | cons c cs =>
      by_cases hplus : c = '+'
      · subst hplus
        exact .inr (congrArg ('+' :: ·) h)
      · exact .inl ((unsigned_of_ne hplus).symm.trans h)
  · rintro (rfl | rfl)
    · obtain ⟨d, digits, rfl⟩ := List.exists_cons_of_ne_nil hne
      have hplus : ∀ d : Fin 10, d.val.digitChar ≠ '+' := by decide
      exact unsigned_of_ne (hplus d)
    · rfl

/-- **A text is read as a number below `2 ^ 64` exactly if it denotes one.** -/
theorem parseWord?_eq_some_iff {text : String} {n : Nat} :
    parseWord? text = some n ↔ Denotes text n ∧ n < 2 ^ 64 := by
  rw [parseWord?_eq_some]
  constructor
  · rintro ⟨digits, hne, hunsigned, hvalue, hlt⟩
    refine ⟨?_, hlt⟩
    rcases (unsigned_eq_digits hne).mp hunsigned with htext | htext
    · exact ⟨"", by simp, digits, hne, String.toList_inj.mp (by simpa using htext), hvalue⟩
    · exact ⟨"+", by simp, digits, hne, String.toList_inj.mp (by simpa using htext), hvalue⟩
  · rintro ⟨⟨sign, hsign, digits, hne, rfl, hvalue⟩, hlt⟩
    refine ⟨digits, hne, (unsigned_eq_digits hne).mpr ?_, hvalue, hlt⟩
    have hsign' : sign = "" ∨ sign = "+" := by simpa using hsign
    rcases hsign' with rfl | rfl
    · exact .inl (by simp)
    · exact .inr (by simp)

end

namespace Options

/-! ## Fields -/

/-- The fields that can be set from text. -/
inductive Field where
  | marker
  | steps
  | depth
deriving DecidableEq

namespace Field

/-- What a field holds. -/
abbrev Content : Field → Type
  | marker => String
  | steps => Nat
  | depth => Nat

/-- The key that the field is set by. -/
def key : Field → String
  | marker => "prefix"
  | steps => "step-limit"
  | depth => "stack-limit"

/-- What is asked of the text of a field. -/
def expected : Field → String
  | marker => "a non-empty prefix"
  | steps => "a non-negative integer"
  | depth => "a non-negative integer"

/-- The content of the field. -/
def get : (field : Field) → Options → field.Content
  | marker, options => options.marker
  | steps, options => options.limits.steps
  | depth, options => options.limits.depth

/-- Gives the field another content. -/
def put : (field : Field) → field.Content → Options → Options
  | marker, content, options => { options with marker := content }
  | steps, content, options => { options with limits := { options.limits with steps := content } }
  | depth, content, options => { options with limits := { options.limits with depth := content } }

/-- The text gives the field this content. -/
def Reads : (field : Field) → String → field.Content → Prop
  | marker, text, content => text ≠ "" ∧ content = text
  | steps, text, content => Denotes text content ∧ content < 2 ^ 64
  | depth, text, content => Denotes text content ∧ content < 2 ^ 64

theorem key_inj {field other : Field} (h : field.key = other.key) : field = other := by
  cases field <;> cases other <;> first | rfl | exact absurd h (by decide)

@[simp] theorem get_put_self (field : Field) (content : field.Content) (options : Options) :
    field.get (field.put content options) = content := by
  cases field <;> rfl

/-- Fields do not share their contents. -/
theorem get_put_of_ne {field other : Field} (h : other ≠ field) (content : field.Content)
    (options : Options) : other.get (field.put content options) = other.get options := by
  cases field <;> cases other <;> first | rfl | exact absurd rfl h

end Field

/-! ## One option -/

section

variable {field : Field} {text key : String} (options : Options)

/-- A text that means something for the field is put there. -/
theorem set_of_reads {content : field.Content} (h : field.Reads text content) :
    set field.key text options = .ok () (field.put content options) := by
  cases field with
  | marker =>
    obtain ⟨hne, hcontent⟩ := h
    simp [set, Field.key, prefixKey, hne, hcontent, Field.put]
  | steps =>
    have hparse := parseWord?_eq_some_iff.mpr h
    simp [set, Field.key, prefixKey, stepLimitKey, hparse, Field.put]
  | depth =>
    have hparse := parseWord?_eq_some_iff.mpr h
    simp [set, Field.key, prefixKey, stepLimitKey, stackLimitKey, hparse, Field.put]

/-- A text that means nothing for the field is refused before anything is changed. -/
theorem set_of_not_reads (h : ∀ content, ¬ field.Reads text content) :
    set field.key text options =
      .error (.invalidValue field.key text field.expected) options := by
  -- What denotes no number that fits is not read as one.
  have hparse : (∀ n, ¬ (Denotes text n ∧ n < 2 ^ 64)) → parseWord? text = none := by
    intro hnone
    cases hword : parseWord? text with
    | none => rfl
    | some n => exact absurd (parseWord?_eq_some_iff.mp hword) (hnone n)
  cases field with
  | marker =>
    have hempty : text = "" := by
      by_contra hne
      exact h text ⟨hne, rfl⟩
    simp [set, Field.key, prefixKey, hempty, Field.expected]
  | steps => simp [set, Field.key, prefixKey, stepLimitKey, hparse h, Field.expected]
  | depth => simp [set, Field.key, prefixKey, stepLimitKey, stackLimitKey, hparse h, Field.expected]

/-- A key of no field is refused, whatever the text. -/
theorem set_of_unknown (h : ∀ field : Field, field.key ≠ key) :
    set key text options = .error (.unknownKey key) options := by
  have hprefix : key ≠ prefixKey := (h .marker).symm
  have hsteps : key ≠ stepLimitKey := (h .steps).symm
  have hdepth : key ≠ stackLimitKey := (h .depth).symm
  rw [set, if_neg hprefix, if_neg hsteps, if_neg hdepth]

end

/-- The pair sets an option: its key is that of a field, and its text gives the field a content. -/
def IsValid (pair : String × String) : Prop :=
  ∃ (field : Field) (content : field.Content), field.key = pair.1 ∧ field.Reads pair.2 content

/-- The error says what is wrong with the pair. -/
def Explains (pair : String × String) : OptionError → Prop
  | .unknownKey key => key = pair.1 ∧ ∀ field : Field, field.key ≠ pair.1
  | .invalidValue key value expected =>
    key = pair.1 ∧ value = pair.2 ∧ ∃ field : Field, field.key = pair.1 ∧ expected = field.expected

section

variable {pair : String × String}

/-- A valid pair puts the same content into whatever options there are. -/
theorem set_of_isValid (h : IsValid pair) : ∃ (field : Field) (content : field.Content),
    field.key = pair.1 ∧ field.Reads pair.2 content ∧
      ∀ options : Options, set pair.1 pair.2 options = .ok () (field.put content options) := by
  obtain ⟨field, content, hkey, hreads⟩ := h
  refine ⟨field, content, hkey, hreads, fun options => ?_⟩
  rw [← hkey]
  exact options.set_of_reads hreads

/-- The error does not depend on the options that are there, and these stay as they are. -/
theorem set_of_not_isValid (h : ¬ IsValid pair) : ∃ error, Explains pair error ∧
    ∀ options : Options, set pair.1 pair.2 options = .error error options := by
  by_cases hkey : ∃ field : Field, field.key = pair.1
  · obtain ⟨field, hfield⟩ := hkey
    have hreads : ∀ content, ¬ field.Reads pair.2 content := fun content hcontent =>
      h ⟨field, content, hfield, hcontent⟩
    refine ⟨.invalidValue pair.1 pair.2 field.expected, ⟨rfl, rfl, field, hfield, rfl⟩, ?_⟩
    intro options
    rw [← hfield]
    exact options.set_of_not_reads hreads
  · have hunknown : ∀ field : Field, field.key ≠ pair.1 := fun field hfield =>
      hkey ⟨field, hfield⟩
    exact ⟨.unknownKey pair.1, ⟨rfl, hunknown⟩, fun options => options.set_of_unknown hunknown⟩

end

/-- The options that an attempt to set one of them leaves, whether or not it fails. -/
def attempt (options : Options) (pair : String × String) : Options :=
  match set pair.1 pair.2 options with
  | .ok () after => after
  | .error _ after => after

section

variable {options options' : Options} {pair : String × String}

/-- An attempt that succeeds leaves what it set. -/
theorem attempt_of_ok (h : set pair.1 pair.2 options = .ok () options') :
    options.attempt pair = options' := by
  rw [attempt, h]

/-- One that fails leaves what the failure left. -/
theorem attempt_of_error {error : OptionError}
    (h : set pair.1 pair.2 options = .error error options') :
    options.attempt pair = options' := by
  rw [attempt, h]

end

/-- What an attempt to set an option from a pair comes to. -/
structure Exact (options : Options) (pair : String × String) : Prop where
  succeeds_iff : (∃ options', set pair.1 pair.2 options = .ok () options') ↔ IsValid pair
  /-- The field with that key has the content that the text gives it, and the others are as they
  were. -/
  changes : ∀ options', set pair.1 pair.2 options = .ok () options' →
    options.attempt pair = options' ∧ ∃ field : Field, field.key = pair.1 ∧
      field.Reads pair.2 (field.get options') ∧
      ∀ other, other ≠ field → other.get options' = other.get options
  /-- The options that are left are those there were. -/
  refuses : ∀ error options', set pair.1 pair.2 options = .error error options' →
    options' = options ∧ options.attempt pair = options ∧ Explains pair error

/-- Setting an option does what the text means, or nothing. -/
theorem exact_set (options : Options) (pair : String × String) : options.Exact pair := by
  by_cases hvalid : IsValid pair
  · obtain ⟨field, content, hkey, hreads, hset⟩ := set_of_isValid hvalid
    refine ⟨⟨fun _ => hvalid, fun _ => ⟨_, hset options⟩⟩, fun options' h => ?_,
      fun error options' h => ?_⟩
    · refine ⟨attempt_of_ok h, field, hkey, ?_, fun other hne => ?_⟩
      -- In both goals the options that are left are those with the content put into them.
      all_goals
        rw [hset] at h
        cases h
      · rw [Field.get_put_self]
        exact hreads
      · exact Field.get_put_of_ne hne content options
    · rw [hset] at h
      cases h
  · obtain ⟨error, hexplains, hset⟩ := set_of_not_isValid hvalid
    refine ⟨⟨fun ⟨_, h⟩ => ?_, fun h => absurd h hvalid⟩, fun options' h => ?_,
      fun other options' h => ?_⟩
    · rw [hset] at h
      cases h
    · rw [hset] at h
      cases h
    · rw [hset] at h
      cases h
      exact ⟨rfl, attempt_of_error (hset options), hexplains⟩

instance (pair : String × String) : Decidable (IsValid pair) :=
  match h : set pair.1 pair.2 {} with
  | .ok () options => .isTrue ((exact_set {} pair).succeeds_iff.mp ⟨options, h⟩)
  | .error _ _ => .isFalse fun hvalid => by
    obtain ⟨options, hset⟩ := (exact_set {} pair).succeeds_iff.mpr hvalid
    rw [h] at hset
    cases hset

/-! ## Lists of pairs -/

/-- The text of the last pair with this key. -/
def lastText? (key : String) (pairs : List (String × String)) : Option String :=
  (pairs.filter (·.1 = key)).getLast?.map (·.2)

/-- The field has the content that the last pair with its key gives it, or the default. -/
def Field.IsLast (field : Field) (pairs : List (String × String)) (options : Options) : Prop :=
  match lastText? field.key pairs with
  | some text => field.Reads text (field.get options)
  | none => field.get options = field.get {}

/-- What a list of pairs comes to. -/
structure Collected (pairs : List (String × String)) : Prop where
  /-- The error is that of the first pair that is not valid, whatever the options are then. -/
  fails : ∀ before pair after, pairs = before ++ pair :: after → (∀ p ∈ before, IsValid p) →
    ¬ IsValid pair →
      ∃ error, (∀ options : Options, set pair.1 pair.2 options = .error error options) ∧
        ofPairs pairs = .error error
  succeeds : (∀ p ∈ pairs, IsValid p) →
    ∃ options, ofPairs pairs = .ok options ∧ ∀ field : Field, field.IsLast pairs options
  /-- Going on after errors is leaving out the pairs that are not valid. -/
  attempts : ofPairs (pairs.filter IsValid) = .ok (pairs.foldl attempt {})

section

variable {pairs : List (String × String)} {pair : String × String} {options : Options}

/-- One pair more counts for its own key only. -/
theorem lastText?_append (key : String) : lastText? key (pairs ++ [pair]) =
    if pair.1 = key then some pair.2 else lastText? key pairs := by
  unfold lastText?
  rw [List.filter_append]
  by_cases hkey : pair.1 = key
  · simp [hkey]
  · simp [hkey]

/-- A pair that is set is followed by the others. -/
theorem setEach_cons_of_ok {options' : Options} (h : set pair.1 pair.2 options = .ok () options')
    (more : List (String × String)) : setEach (pair :: more) options = setEach more options' := by
  simp only [setEach, bind, EStateM.bind, h]

/-- A pair that fails is the last one that is tried. -/
theorem setEach_cons_of_error {error : OptionError} {options' : Options}
    (h : set pair.1 pair.2 options = .error error options') (more : List (String × String)) :
    setEach (pair :: more) options = .error error options' := by
  simp only [setEach, bind, EStateM.bind, h]

/-- What comes after pairs that were all set starts from the options that they left. -/
theorem setEach_append {start : Options} (h : setEach pairs start = .ok () options)
    (more : List (String × String)) : setEach (pairs ++ more) start = setEach more options := by
  induction pairs generalizing start with
  | nil =>
    cases h
    rfl
  | cons pair pairs ih =>
    cases hset : set pair.1 pair.2 start with
    | error error options' =>
      rw [setEach_cons_of_error hset] at h
      cases h
    | ok _ options' =>
      rw [setEach_cons_of_ok hset] at h
      rw [List.cons_append, setEach_cons_of_ok hset]
      exact ih h

/-- Pairs make options if all of them can be set in order, starting from the defaults. -/
theorem ofPairs_eq_ok : ofPairs pairs = .ok options ↔ setEach pairs {} = .ok () options := by
  unfold ofPairs ofChange
  cases setEach pairs {} with
  | ok _ after => simp
  | error error after => simp

/-- They fail with the error of the first one that cannot be. -/
theorem ofPairs_eq_error {error : OptionError} (h : setEach pairs {} = .error error options) :
    ofPairs pairs = .error error := by
  rw [ofPairs, ofChange, h]

/-- One pair more is the last one for its field, and nothing changes for the others. -/
theorem Field.IsLast.append {field other : Field} {content : field.Content}
    (h : other.IsLast pairs options) (hkey : field.key = pair.1)
    (hreads : field.Reads pair.2 content) :
    other.IsLast (pairs ++ [pair]) (field.put content options) := by
  unfold IsLast
  rw [lastText?_append]
  -- The field of the pair has its new content, and the others keep theirs.
  by_cases hsame : other = field
  · subst hsame
    rw [if_pos hkey.symm, Field.get_put_self]
    exact hreads
  · have hother : pair.1 ≠ other.key := fun h => hsame (Field.key_inj (h.symm.trans hkey.symm))
    rw [if_neg hother, Field.get_put_of_ne hsame]
    exact h

/-- Valid pairs are all taken, one after the other. -/
theorem exists_ofPairs (h : ∀ p ∈ pairs, IsValid p) :
    ∃ options, ofPairs pairs = .ok options ∧ ∀ field : Field, field.IsLast pairs options := by
  induction pairs using List.reverseRecOn with
  | nil => exact ⟨{}, rfl, fun _ => rfl⟩
  | append_singleton pairs pair ih =>
    obtain ⟨options, hoptions, hlast⟩ := ih fun p hp => h p (List.mem_append_left _ hp)
    obtain ⟨field, content, hkey, hreads, hset⟩ := set_of_isValid (h pair (by simp))
    -- The last pair has the last word on its own field.
    refine ⟨field.put content options, ?_, fun other => (hlast other).append hkey hreads⟩
    rw [ofPairs_eq_ok, setEach_append (ofPairs_eq_ok.mp hoptions), setEach_cons_of_ok (hset _)]
    rfl

/-- Behind valid pairs, one that is not valid stops them all. -/
theorem ofPairs_of_first {before after : List (String × String)} {error : OptionError}
    (hbefore : ∀ p ∈ before, IsValid p)
    (hpair : ∀ options : Options, set pair.1 pair.2 options = .error error options) :
    ofPairs (before ++ pair :: after) = .error error := by
  obtain ⟨options, hoptions, -⟩ := exists_ofPairs hbefore
  have hstops : setEach (before ++ pair :: after) {} = .error error options := by
    rw [setEach_append (ofPairs_eq_ok.mp hoptions), setEach_cons_of_error (hpair options)]
  exact ofPairs_eq_error hstops

/-- Attempts leave what the valid pairs among them make. -/
theorem ofPairs_filter (pairs : List (String × String)) :
    ofPairs (pairs.filter IsValid) = .ok (pairs.foldl attempt {}) := by
  induction pairs using List.reverseRecOn with
  | nil => rfl
  | append_singleton pairs pair ih =>
    rw [ofPairs_eq_ok] at ih ⊢
    rw [List.filter_append, List.foldl_append, setEach_append ih, List.foldl_cons, List.foldl_nil]
    -- The last pair is kept and put, or left out and without effect.
    by_cases hvalid : IsValid pair
    · obtain ⟨field, content, -, -, hset⟩ := set_of_isValid hvalid
      rw [attempt_of_ok (hset _), List.filter_cons, if_pos (by simpa using hvalid),
        setEach_cons_of_ok (hset _)]
      rfl
    · obtain ⟨error, -, hset⟩ := set_of_not_isValid hvalid
      rw [attempt_of_error (hset _), List.filter_cons, if_neg (by simpa using hvalid)]
      rfl

end

/-- **Options are set exactly, each on its own, and the last text wins.** -/
theorem exact_collected : (∀ (options : Options) (pair : String × String), options.Exact pair) ∧
    ∀ pairs : List (String × String), Collected pairs := by
  refine ⟨exact_set, fun pairs => ⟨?_, exists_ofPairs, ofPairs_filter pairs⟩⟩
  rintro before pair after rfl hbefore hinvalid
  obtain ⟨error, -, hset⟩ := set_of_not_isValid hinvalid
  exact ⟨error, hset, ofPairs_of_first hbefore hset⟩

end Options

end CallFolding
