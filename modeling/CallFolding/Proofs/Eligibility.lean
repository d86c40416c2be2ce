import CallFolding.Proofs.Walk
import Mathlib.Data.Finset.Card

/-!
What an eligible call has been checked for.

`Fits` says what evaluation supports, without a walk: variables and returns belong to the function
around them, jumps to a loop around them, and calls are of primitive operations or of functions that
are known to be vetted. The walk does not enter a function that is on its trail. That is no loss:
the body of such a function is being walked already, so it may count as vetted as long as the walk
comes to a good end. `exists_vetted_of_check` puts this together: around an eligible call there is a
set of functions that call only each other and primitive operations, all of them vetted.
-/

set_option autoImplicit false

namespace CallFolding

/-- Functions stand at the positions that their numbers say. -/
def Program.IsNumbered (program : Program) : Prop :=
  ∀ id function, program.function? id = some function → function.id = id

/-- The positions can be looked through one by one. -/
theorem Program.isNumbered_iff (program : Program) : program.IsNumbered ↔
    ∀ i : Fin program.functions.size, program.functions[i].id = ⟨i⟩ := by
  constructor
  · intro h i
    exact h ⟨i⟩ _ (Array.getElem?_eq_getElem i.isLt)
  · intro h id function hfound
    obtain ⟨hlt, rfl⟩ := Array.getElem?_eq_some_iff.mp hfound
    exact h ⟨id.index, hlt⟩

instance (program : Program) : Decidable program.IsNumbered :=
  decidable_of_iff _ program.isNumbered_iff.symm

namespace Eligibility

/-! ## What evaluation supports -/

section

variable (program : Program) (marker : String) (known : Function → Prop)

/-- A call of this function with this number of operands is supported. -/
def CallFits (id : FunctionId) (operands : Nat) : Prop :=
  ∃ function, program.function? id = some function ∧ operands = function.arity ∧
    (function.classify marker = .primitive ∨ function.classify marker = .marked ∧ known function)

mutual

/-- Evaluation supports the expression at this place, if the functions in `known` can be called. -/
def Fits (place : Place) : Expr → Prop
  | .const _ => True
  | .read _ owner => place.owner = some owner
  | .declare _ _ none => False
  | .declare _ type (some init) => type.isConstant ∧ Fits place init
  | .assign _ owner value => place.owner = some owner ∧ Fits place value
  | .call id receiver args =>
    CallFits program marker known id (Call.operands ⟨id, receiver, args⟩).length ∧
      FitsOption place receiver ∧ FitsEach place args
  | .block statements => FitsEach place statements
  | .branch arms => FitsArms place arms
  | .loop _ id _ test body => Fits (place.inLoop id) test ∧ FitsOption (place.inLoop id) body
  | .returnFrom target value => place.owner = some target ∧ Fits place value
  | .breakLoop target => target ∈ place.loops
  | .continueLoop target => target ∈ place.loops

def FitsOption (place : Place) : Option Expr → Prop
  | none => True
  | some e => Fits place e

def FitsEach (place : Place) : List Expr → Prop
  | [] => True
  | e :: es => Fits place e ∧ FitsEach place es

def FitsArms (place : Place) : List (Expr × Expr) → Prop
  | [] => True
  | (test, result) :: arms => Fits place test ∧ Fits place result ∧ FitsArms place arms

end

/-- The function has constant types, and a body that evaluation supports. -/
def IsVetted (function : Function) : Prop :=
  hasConstantSignature function ∧
    ∃ body, function.body = some body ∧ Fits program marker known (.body function.id) body

end

section

variable {program : Program} {marker : String} {known known' : Function → Prop}

/-- A list fits if each of its expressions does. -/
theorem fitsEach_iff {place : Place} (es : List Expr) :
    FitsEach program marker known place es ↔ ∀ e ∈ es, Fits program marker known place e := by
  induction es with
  | nil => simp [FitsEach]
  | cons e es ih => simp [FitsEach, ih]

theorem fitsArms_iff {place : Place} (arms : List (Expr × Expr)) :
    FitsArms program marker known place arms ↔ ∀ arm ∈ arms,
      Fits program marker known place arm.1 ∧ Fits program marker known place arm.2 := by
  induction arms with
  | nil => simp [FitsArms]
  | cons arm arms ih => simp [FitsArms, ih, and_assoc]

/-- A call fits if it is allowed wherever it stands and the function is known. -/
theorem callFits_iff {id : FunctionId} {receiver : Option Expr} {args : List Expr}
    (owner : Option FunctionId) (loops : List LoopId) :
    CallFits program marker known id (Call.operands ⟨id, receiver, args⟩).length ↔
      Allowed program marker owner loops (.call id receiver args) ∧
        KnowsCallee program marker known (.call id receiver args) := by
  constructor
  · rintro ⟨function, hfound, hlength, hclass⟩
    refine ⟨⟨function, hfound, ?_, hlength⟩, fun other hother hmarked => ?_⟩
    · rcases hclass with hprimitive | ⟨hmarked, -⟩
      · exact .inr hprimitive
      · exact .inl hmarked
    · obtain rfl := Option.some.inj (hfound.symm.trans hother)
      rcases hclass with hprimitive | ⟨-, hknown⟩
      · exact nomatch hprimitive.symm.trans hmarked
      · exact hknown
  · rintro ⟨⟨function, hfound, hclass, hlength⟩, hknows⟩
    refine ⟨function, hfound, hlength, ?_⟩
    rcases hclass with hmarked | hprimitive
    · exact .inr ⟨hmarked, hknows function hfound hmarked⟩
    · exact .inl hprimitive

/-- An expression fits if it is allowed itself, and its parts fit where they are. -/
theorem fits_iff_parts {place : Place} (e : Expr) : Fits program marker known place e ↔
    (Allowed program marker place.owner place.loops e ∧ KnowsCallee program marker known e) ∧
      ∀ part ∈ e.parts, Fits program marker known (place.within part.1.toList) part.2 := by
  -- Both sides say the same of each kind of expression; lists and arms are said part by part.
  cases e with
  | const value => simp [Fits, Allowed, KnowsCallee, Expr.parts]
  | read name owner => simp [Fits, Allowed, KnowsCallee, Expr.parts]
  | declare name type init =>
    cases init <;> simp [Fits, Allowed, KnowsCallee, Expr.parts, Place.within]
  | assign name owner value => simp [Fits, Allowed, KnowsCallee, Expr.parts, Place.within]
  | call id receiver args =>
    rw [Fits, callFits_iff place.owner place.loops]
    cases receiver <;>
      simp [FitsOption, fitsEach_iff, Expr.parts, Call.operands, Place.within]
  | block statements => simp [Fits, Allowed, KnowsCallee, Expr.parts, Place.within, fitsEach_iff]
  | branch arms =>
    simp only [Fits, Allowed, KnowsCallee, Expr.parts, fitsArms_iff, List.forall_mem_flatMap]
    simp [Place.within]
  | loop kind id label test body =>
    cases body <;>
      simp [Fits, FitsOption, Allowed, KnowsCallee, Expr.parts, Place.within, Place.inLoop]
  | returnFrom target value => simp [Fits, Allowed, KnowsCallee, Expr.parts, Place.within]
  | breakLoop target => simp [Fits, Allowed, KnowsCallee, Expr.parts]
  | continueLoop target => simp [Fits, Allowed, KnowsCallee, Expr.parts]

/-- With more functions known, more fits. -/
theorem Fits.mono (h : ∀ id f, program.function? id = some f → known f → known' f) {place : Place}
    {e : Expr} (he : Fits program marker known place e) : Fits program marker known' place e := by
  induction e using Expr.induction_on_parts generalizing place with
  | h e ih =>
    obtain ⟨⟨hallowed, hknows⟩, hparts⟩ := (fits_iff_parts e).mp he
    refine (fits_iff_parts e).mpr ⟨⟨hallowed, hknows.mono h⟩, fun part hmem => ?_⟩
    exact ih part hmem (hparts part hmem)

end

/-! ## What a walk has seen

The walk is taken apart under one assumption: whenever it lets a call of a marked function pass, the
function is known. Inside an expression only loops are added to the trail, so the assumption is
about trails with the same functions. -/

/-- What a walk through an expression lets pass fits, by induction on the parts. -/
theorem fits_of_checkExpr {program : Program} {marker : String} {known : Function → Prop}
    {enter : Expr → Walk} (start : Trail)
    (hknown : ∀ trail : Trail, (∀ id, trail.Enters id ↔ start.Enters id) →
      ∀ id function, program.function? id = some function →
        enterFunction enter function trail = .ok () → known function)
    {e : Expr} {trail : Trail} (htrail : ∀ id, trail.Enters id ↔ start.Enters id)
    (h : checkExpr program marker enter e trail = .ok ()) :
    Fits program marker known trail.place e := by
  induction e using Expr.induction_on_parts generalizing trail with
  | h e ih =>
    obtain ⟨⟨hallowed, hknows⟩, hparts⟩ := (checkExpr_eq_ok_iff e).mp h
    refine (fits_iff_parts e).mpr ⟨⟨hallowed, hknows.mono (hknown trail htrail)⟩, ?_⟩
    intro part hmem
    rw [← Trail.place_append_loops]
    refine ih part hmem (fun id => ?_) (hparts part hmem)
    rw [Trail.enters_append_loops, htrail]

/-! ## Functions on the trail -/

section

variable (program : Program) (marker : String)

/-- Vetting the function rests on nothing but the functions on the trail: it is in a set of
functions that are vetted as soon as the set and those on the trail are known. -/
def Admissible (trail : Trail) (function : Function) : Prop :=
  ∃ set : Function → Prop, set function ∧
    ∀ f, set f → IsVetted program marker (fun g => trail.Enters g.id ∨ set g) f

/-- How many functions are not on the trail. -/
def outside (trail : Trail) : Nat :=
  ((Finset.range program.size).filter fun i => Enclosing.function ⟨i⟩ ∉ trail).card

end

section

variable {program : Program} {marker : String}

/-- With more functions known, more are vetted. -/
theorem IsVetted.mono {known known' : Function → Prop}
    (h : ∀ id f, program.function? id = some f → known f → known' f) {function : Function}
    (hf : IsVetted program marker known function) : IsVetted program marker known' function := by
  obtain ⟨hsignature, body, hbody, hfits⟩ := hf
  exact ⟨hsignature, body, hbody, hfits.mono h⟩

/-- Entering a function leaves fewer outside. -/
theorem outside_lt {trail : Trail} {function : Function}
    (hfound : program.function? function.id = some function) (hnew : ¬ trail.Enters function.id) :
    outside program (.function function.id :: trail) < outside program trail := by
  have hlt : function.id.index < program.size := (Array.getElem?_eq_some_iff.mp hfound).1
  refine Finset.card_lt_card (Finset.ssubset_iff_of_subset ?_ |>.mpr ⟨function.id.index, ?_, ?_⟩)
  · intro i
    simp only [Finset.mem_filter, List.mem_cons, not_or]
    exact fun ⟨hi, _, hi'⟩ => ⟨hi, hi'⟩
  · exact Finset.mem_filter.mpr ⟨Finset.mem_range.mpr hlt, hnew⟩
  · simp

/-- The count depends only on the functions on the trail. -/
theorem outside_congr {trail trail' : Trail} (h : ∀ id, trail'.Enters id ↔ trail.Enters id) :
    outside program trail' = outside program trail := by
  unfold outside
  congr 1
  ext i
  simp only [Finset.mem_filter]
  exact and_congr_right fun _ => not_congr (h ⟨i⟩)

/-- If the body of a function fits when the function itself is on the trail, the function need not
be on the trail. The set that shows this has the function and all that was found admissible with
it on the trail. -/
theorem admissible_of_body (hnumbered : program.IsNumbered) {trail : Trail} {function : Function}
    {body : Expr} (hfound : program.function? function.id = some function)
    (hsignature : hasConstantSignature function) (hbody : function.body = some body)
    (h : Fits program marker (fun g => Trail.Enters (.function function.id :: trail) g.id ∨
      Admissible program marker (.function function.id :: trail) g) (.body function.id) body) :
    Admissible program marker trail function := by
  refine ⟨fun g => program.function? function.id = some g ∨
    Admissible program marker (.function function.id :: trail) g, .inl hfound, ?_⟩
  -- Of the functions on the longer trail, only the one that was added is not on the shorter one,
  -- and no other function stands at its position.
  have hentered : ∀ id f, program.function? id = some f →
      Trail.Enters (.function function.id :: trail) f.id →
        trail.Enters f.id ∨ program.function? function.id = some f := by
    intro id f hf henters
    rcases Trail.enters_function.mp henters with heq | henters
    · rw [← heq, hnumbered id f hf]
      exact .inr hf
    · exact .inl henters
  rintro g (hg | ⟨set, hg, hset⟩)
  · obtain rfl : function = g := Option.some.inj (hfound.symm.trans hg)
    refine ⟨hsignature, body, hbody, h.mono fun id f hf hf' => ?_⟩
    rcases hf' with henters | hadmissible
    · exact (hentered id f hf henters).imp_right .inl
    · exact .inr (.inr hadmissible)
  · refine (hset g hg).mono fun id f hf hf' => ?_
    rcases hf' with henters | hmember
    · exact (hentered id f hf henters).imp_right .inl
    · exact .inr (.inr ⟨set, hmember, hset⟩)

/-- A function that a walk passes, with these functions on its trail, is on the trail or
admissible. -/
theorem known_of_enterFunction (hnumbered : program.IsNumbered) {n : Nat} {trail : Trail}
    (ih : ∀ {trail' : Trail} {e : Expr}, outside program trail' < outside program trail →
      checkAt program marker n e trail' = .ok () → Fits program marker
        (fun g => trail'.Enters g.id ∨ Admissible program marker trail' g) trail'.place e)
    {function : Function} (hfound : program.function? function.id = some function)
    (h : enterFunction (checkAt program marker n) function trail = .ok ()) :
    trail.Enters function.id ∨ Admissible program marker trail function := by
  by_cases hnew : trail.Enters function.id
  · exact .inl hnew
  · obtain ⟨hsignature, body, hbody, h⟩ := (enterFunction_eq_ok_iff.mp h).resolve_left hnew
    have hfits := ih (outside_lt hfound hnew) h
    exact .inr (admissible_of_body hnumbered hfound hsignature hbody hfits)

theorem Admissible.congr {trail trail' : Trail} (h : ∀ id, trail'.Enters id ↔ trail.Enters id)
    {function : Function} (hf : Admissible program marker trail' function) :
    Admissible program marker trail function := by
  obtain ⟨set, hmember, hset⟩ := hf
  refine ⟨set, hmember, fun g hg => (hset g hg).mono fun _ f _ hf => ?_⟩
  exact hf.imp_left (h f.id).mp

/-- **What the walk lets pass fits**, where functions are known that are on the trail or admissible.
The induction is on the room; when there is none left, all functions are on the trail. -/
theorem fits_of_checkAt (hnumbered : program.IsNumbered) : ∀ (n : Nat) {trail : Trail} {e : Expr},
    outside program trail ≤ n → checkAt program marker n e trail = .ok () →
      Fits program marker (fun g => trail.Enters g.id ∨ Admissible program marker trail g)
        trail.place e := by
  intro n
  induction n with
  | zero =>
    intro trail e hroom h
    refine fits_of_checkExpr trail ?_ (fun _ => Iff.rfl) h
    intro trail' htrail id function hfound _
    obtain rfl := hnumbered id function hfound
    -- A function that is not on the trail would count as one outside.
    refine .inl (by_contra fun hnew => ?_)
    have hlt := outside_lt hfound hnew
    omega
  | succ n ih =>
    intro trail e hroom h
    refine fits_of_checkExpr trail ?_ (fun _ => Iff.rfl) h
    intro trail' htrail id function hfound henter
    obtain rfl := hnumbered id function hfound
    -- Between the start of the walk and the call only loops were added to the trail.
    have hsame : outside program trail' = outside program trail := outside_congr htrail
    refine (known_of_enterFunction hnumbered ?_ hfound henter).imp (htrail _).mp (.congr htrail)
    intro inner body hless hbody
    exact ih (by omega) hbody

/-- **Everything an eligible call reaches was checked.** There is a set of vetted functions that
call no marked function outside of it, and the call itself fits with them. -/
theorem exists_vetted_of_check (hnumbered : program.IsNumbered) {call : Call}
    (h : check program marker call = .ok ()) :
    ∃ known : Function → Prop, (∀ f, known f → IsVetted program marker known f) ∧
      Fits program marker known {} call.expr := by
  obtain ⟨-, h⟩ := check_eq_ok_iff_checkAt.mp h
  have hroom : outside program [] ≤ program.size := by
    refine (Finset.card_filter_le _ _).trans ?_
    rw [Finset.card_range]
  have hnone : ∀ f : Function, ¬ Trail.Enters [] f.id := fun _ => List.not_mem_nil
  -- With an empty trail, what is admissible rests on nothing but other functions of that kind.
  refine ⟨Admissible program marker [], ?_, ?_⟩
  · rintro f ⟨set, hf, hset⟩
    refine (hset f hf).mono fun _ g _ hg => ?_
    exact ⟨set, hg.resolve_left (hnone g), hset⟩
  · exact (fits_of_checkAt hnumbered _ hroom h).mono fun _ g _ hg => hg.resolve_left (hnone g)

end

end Eligibility

end CallFolding
