import CallFolding.Proofs.Outside

/-!
Eligibility as a rule, without a walk. The rule looks at every expression inside the operands of a
call and inside the bodies of the functions that can be reached from it, and asks something of each
of them on its own (`Allowed`). The walk finds a call eligible just if the rule is kept and the call
has as many operands as its function takes (`check_eq_ok_iff`).

What a walk does at a place depends on the way it came there, the rule does not. Between them stands
`Fits`, which follows the tree as the walk does and has no trail as the rule has none. On one side,
an expression fits if and only if all expressions inside it are allowed (`fits_iff_forall_within`).
On the other, what fits is passed from any trail (`checkAt_of_fits`), and what is passed fits
(`exists_vetted_of_check`).
-/

set_option autoImplicit false

namespace CallFolding

/-! ## Expressions inside expressions -/

namespace Expr

/-- The second expression is the first one or somewhere inside of it, and these are the loops of the
first around it, innermost first. -/
inductive Within : Expr → List LoopId → Expr → Prop
  | self (e : Expr) : Within e [] e
  | part {e inner : Expr} {part : Option LoopId × Expr} {loops : List LoopId} : part ∈ e.parts →
    Within part.2 loops inner → Within e (loops ++ part.1.toList) inner

end Expr

namespace Eligibility

/-! ## The rule -/

section

variable (program : Program) (marker : String)

/-- The call is one of this marked function. -/
def Calls (call : Call) (function : Function) : Prop :=
  program.function? call.callee = some function ∧ function.classify marker = .marked

variable (call : Call)

/-- The marked functions that can be reached from a call: the one it calls itself, and those called
somewhere in its operands and in the bodies of functions that can be reached. -/
inductive Reached : Function → Prop
  | callee {function : Function} : Calls program marker call function → Reached function
  | operand {e : Expr} {loops : List LoopId} {inner : Call} {function : Function} :
    e ∈ call.operands → e.Within loops inner.expr → Calls program marker inner function →
      Reached function
  | body {caller : Function} {e : Expr} {loops : List LoopId} {inner : Call}
    {function : Function} : Reached caller → caller.body = some e →
    e.Within loops inner.expr → Calls program marker inner function → Reached function

/-- The code that the rule is about: the operands of the call, and the bodies of the functions that
can be reached, each with its owner. -/
def Covers (owner : Option FunctionId) (e : Expr) : Prop :=
  owner = none ∧ e ∈ call.operands ∨
    ∃ function, Reached program marker call function ∧ owner = some function.id ∧
      function.body = some e

/-- The call keeps the rule. -/
structure Conforms : Prop where
  callee : ∃ function, Calls program marker call function
  /-- Functions that can be reached have a body and constant types. -/
  functions : ∀ function, Reached program marker call function →
    function.body.isSome ∧ hasConstantSignature function
  /-- Everything inside the code that can be reached is allowed where it is. -/
  code : ∀ (owner : Option FunctionId) (e : Expr), Covers program marker call owner e →
    ∀ (loops : List LoopId) (inner : Expr), e.Within loops inner →
      Allowed program marker owner loops inner

end

/-! ## From the rule to what fits -/

section

variable {program : Program} {marker : String} {known : Function → Prop}

/-- An expression fits if everything inside of it is allowed where it is, and all marked functions
that are called in it are known. -/
theorem fits_iff_forall_within {place : Place} (e : Expr) :
    Fits program marker known place e ↔ ∀ (loops : List LoopId) (inner : Expr),
      e.Within loops inner → Allowed program marker place.owner (loops ++ place.loops) inner ∧
        KnowsCallee program marker known inner := by
  constructor
  · intro hfits loops inner hwithin
    -- Along the way inside, the place goes into the same loops as the expression.
    induction hwithin generalizing place with
    | self e => exact ((fits_iff_parts e).mp hfits).1
    | part hmem _ ih =>
      have hpart := ih (((fits_iff_parts _).mp hfits).2 _ hmem)
      simpa only [Place.within, List.append_assoc] using hpart
  · intro hwithin
    induction e using Expr.induction_on_parts generalizing place with
    | h e ih =>
      refine (fits_iff_parts e).mpr ⟨hwithin [] e (.self e), fun part hmem => ih part hmem ?_⟩
      intro loops inner hinner
      have hpart := hwithin _ inner (.part hmem hinner)
      simpa only [Place.within, List.append_assoc] using hpart

/-- At the start of a body or an operand there are no loops around. -/
theorem fits_iff_within (owner : Option FunctionId) (e : Expr) :
    Fits program marker known { owner } e ↔ ∀ (loops : List LoopId) (inner : Expr),
      e.Within loops inner →
        Allowed program marker owner loops inner ∧ KnowsCallee program marker known inner := by
  rw [fits_iff_forall_within]
  simp only [List.append_nil]

/-! ## From what fits to the walk -/

variable {enter : Expr → Walk}

/-- What fits is passed, if known functions can be entered, with whatever is on the trail. -/
theorem checkExpr_of_fits {e : Expr} {trail : Trail}
    (henter : ∀ function, known function → ∀ trail : Trail,
      enterFunction enter function trail = .ok ())
    (hfits : Fits program marker known trail.place e) :
    checkExpr program marker enter e trail = .ok () := by
  induction e using Expr.induction_on_parts generalizing trail with
  | h e ih =>
    obtain ⟨⟨hallowed, hknows⟩, hparts⟩ := (fits_iff_parts e).mp hfits
    have hentered := hknows.mono fun _ f _ hf => henter f hf trail
    refine (checkExpr_eq_ok_iff e).mpr ⟨⟨hallowed, hentered⟩, fun part hmem => ih part hmem ?_⟩
    rw [Trail.place_append_loops]
    exact hparts part hmem

/-- Vetted functions can be entered, if the walk passes bodies that fit. -/
theorem enterFunction_of_vetted {function : Function} {trail : Trail}
    (henter : ∀ {body : Expr} {trail : Trail}, Fits program marker known trail.place body →
      enter body trail = .ok ())
    (hvetted : IsVetted program marker known function) :
    enterFunction enter function trail = .ok () := by
  obtain ⟨hsignature, body, hbody, hfits⟩ := hvetted
  exact enterFunction_eq_ok_iff.mpr (.inr ⟨hsignature, body, hbody, henter hfits⟩)

/-- **What fits is passed from any trail**, however many functions are on it, if all functions that
are known are vetted. -/
theorem checkAt_of_fits (hvetted : ∀ f, known f → IsVetted program marker known f) (room : Nat)
    {e : Expr} {trail : Trail} (hfits : Fits program marker known trail.place e) :
    checkAt program marker room e trail = .ok () := by
  induction room generalizing e trail with
  -- Without room bodies are not walked through, so they pass in any case.
  | zero =>
    refine checkExpr_of_fits (fun f hf trail => ?_) hfits
    exact enterFunction_of_vetted (fun _ => rfl) (hvetted f hf)
  | succ room ih =>
    refine checkExpr_of_fits (fun f hf trail => ?_) hfits
    exact enterFunction_of_vetted ih (hvetted f hf)

/-! ## The walk decides the rule -/

variable {call : Call}

section

variable (hvetted : ∀ f, known f → IsVetted program marker known f)
  (hcallee : ∀ f, Calls program marker call f → known f)
  (hoperands : ∀ e ∈ call.operands, Fits program marker known {} e)

include hvetted hcallee hoperands

/-- A set of vetted functions has every function that can be reached, as it is closed under
calls. -/
theorem known_of_reached {function : Function} (h : Reached program marker call function) :
    known function := by
  induction h with
  | callee hcalls => exact hcallee _ hcalls
  | operand hmem hwithin hcalls =>
    have hknows := ((fits_iff_within none _).mp (hoperands _ hmem) _ _ hwithin).2
    exact hknows _ hcalls.1 hcalls.2
  -- The caller is known by induction, so its body fits and knows whom it calls.
  | body _ hbody hwithin hcalls hcaller =>
    obtain ⟨-, body, hbody', hfits⟩ := hvetted _ hcaller
    obtain rfl := Option.some.inj (hbody.symm.trans hbody')
    have hknows := ((fits_iff_within _ _).mp hfits _ _ hwithin).2
    exact hknows _ hcalls.1 hcalls.2

theorem fits_of_covers {owner : Option FunctionId} {e : Expr}
    (h : Covers program marker call owner e) : Fits program marker known { owner } e := by
  rcases h with ⟨rfl, hmem⟩ | ⟨f, hreached, rfl, hbody⟩
  · exact hoperands e hmem
  · obtain ⟨-, body, hbody', hfits⟩ :=
      hvetted f (known_of_reached hvetted hcallee hoperands hreached)
    obtain rfl := Option.some.inj (hbody.symm.trans hbody')
    exact hfits

/-- A call keeps the rule if its operands fit, with a set of vetted functions that has the one it
calls. -/
theorem Conforms.of_vetted {function : Function} (hcalls : Calls program marker call function) :
    Conforms program marker call := by
  refine ⟨⟨function, hcalls⟩, fun f hreached => ?_, fun owner e hcovers loops inner hwithin => ?_⟩
  · obtain ⟨hsignature, body, hbody, -⟩ :=
      hvetted f (known_of_reached hvetted hcallee hoperands hreached)
    exact ⟨by rw [hbody, Option.isSome_some], hsignature⟩
  · have hfits := fits_of_covers hvetted hcallee hoperands hcovers
    exact ((fits_iff_within owner e).mp hfits loops inner hwithin).1

end

theorem Covers.reached {owner : Option FunctionId} {e : Expr}
    (h : Covers program marker call owner e) {loops : List LoopId} {inner : Call}
    (hwithin : e.Within loops inner.expr) {function : Function}
    (hcalls : Calls program marker inner function) : Reached program marker call function := by
  rcases h with ⟨-, hmem⟩ | ⟨caller, hcaller, -, hbody⟩
  · exact .operand hmem hwithin hcalls
  · exact .body hcaller hbody hwithin hcalls

/-- Where the rule is kept, all code that it is about fits, with the functions known that can be
reached. -/
theorem Conforms.fits (h : Conforms program marker call) {owner : Option FunctionId} {e : Expr}
    (hcovers : Covers program marker call owner e) :
    Fits program marker (Reached program marker call) { owner } e := by
  refine (fits_iff_within owner e).mpr fun loops inner hwithin => ?_
  refine ⟨h.code owner e hcovers loops inner hwithin, ?_⟩
  cases inner with
  | call id receiver args =>
    intro f hfound hmarked
    have hcalls : Calls program marker ⟨id, receiver, args⟩ f := ⟨hfound, hmarked⟩
    exact hcovers.reached hwithin hcalls
  | _ => trivial

theorem Conforms.isVetted (h : Conforms program marker call) {function : Function}
    (hreached : Reached program marker call function) :
    IsVetted program marker (Reached program marker call) function := by
  obtain ⟨hbody, hsignature⟩ := h.functions function hreached
  obtain ⟨body, hbody⟩ := Option.isSome_iff_exists.mp hbody
  exact ⟨hsignature, body, hbody, h.fits (.inr ⟨function, hreached, rfl, hbody⟩)⟩

/-- The expression of a call fits if the call does, and its operands. -/
theorem fits_call_iff : Fits program marker known {} call.expr ↔
    CallFits program marker known call.callee call.operands.length ∧
      ∀ e ∈ call.operands, Fits program marker known {} e := by
  obtain ⟨id, receiver, args⟩ := call
  show Fits program marker known {} (.call id receiver args) ↔ _
  rw [Fits, fitsEach_iff]
  cases receiver <;> simp [FitsOption, Call.operands]

/-- **The walk decides the rule**: a call is eligible if and only if it has as many operands as its
function takes and keeps the rule, whatever calls what in the program. -/
theorem check_eq_ok_iff (hnumbered : program.IsNumbered) :
    check program marker call = .ok () ↔
      (∃ function, program.function? call.callee = some function ∧
        call.operands.length = function.arity) ∧ Conforms program marker call := by
  constructor
  · intro h
    obtain ⟨known, hvetted, hfits⟩ := exists_vetted_of_check hnumbered h
    obtain ⟨⟨function, hcalls⟩, -⟩ := check_eq_ok_iff_checkAt.mp h
    obtain ⟨⟨function', hfound, hlength, hclass⟩, hoperands⟩ := fits_call_iff.mp hfits
    obtain rfl := Option.some.inj (hcalls.1.symm.trans hfound)
    refine ⟨⟨function, hfound, hlength⟩, .of_vetted hvetted (fun f hf => ?_) hoperands hcalls⟩
    obtain rfl := Option.some.inj (hfound.symm.trans hf.1)
    -- A marked function is not primitive, so it is among the known ones.
    rcases hclass with hprimitive | ⟨-, hknown⟩
    · exact nomatch hprimitive.symm.trans hcalls.2
    · exact hknown
  · rintro ⟨⟨function, hfound, hlength⟩, hconforms⟩
    refine check_eq_ok_iff_checkAt.mpr ⟨hconforms.callee, ?_⟩
    -- The trail is empty here, but to enter the bodies the walk may come with any.
    refine checkAt_of_fits (fun f hf => hconforms.isVetted hf) program.size (fits_call_iff.mpr ?_)
    obtain ⟨function', hcalls⟩ := hconforms.callee
    obtain rfl := Option.some.inj (hfound.symm.trans hcalls.1)
    exact ⟨⟨function, hfound, hlength, .inr ⟨hcalls.2, .callee hcalls⟩⟩,
      fun e hmem => hconforms.fits (.inl ⟨rfl, hmem⟩)⟩

/-- Two functions that call each other are both reached, and keep the rule. -/
theorem check_eq_ok_iff_parity : Setting.parity.IsNumbered ∧
    check Setting.parity "eval" ⟨⟨0⟩, none, [.int 7]⟩ = .ok () ∧
      Conforms Setting.parity "eval" ⟨⟨0⟩, none, [.int 7]⟩ := by
  have hnumbered : Setting.parity.IsNumbered := by decide +kernel
  have hcheck : check Setting.parity "eval" ⟨⟨0⟩, none, [.int 7]⟩ = .ok () := by decide +kernel
  exact ⟨hnumbered, hcheck, ((check_eq_ok_iff hnumbered).mp hcheck).2⟩

/-- The rule on its own does not count the operands of the call itself. A call of `evalF` without
the operand it takes keeps the rule, and is not eligible. -/
theorem conforms_identity_noOperands : Setting.identity.IsNumbered ∧
    Conforms Setting.identity "eval" ⟨⟨0⟩, none, []⟩ ∧
      check Setting.identity "eval" ⟨⟨0⟩, none, []⟩ = .error (.arityMismatch "evalF" 1 0) := by
  refine ⟨by decide +kernel, ?_, by decide +kernel⟩
  have hfound : Setting.identity.function? ⟨0⟩ = some ⟨⟨0⟩, "evalF", .package "", none,
      [⟨"x", .int⟩], .int, some (.block [.returnFrom ⟨0⟩ (.read "x" ⟨0⟩)])⟩ := rfl
  -- `evalF` calls nothing, so it is vetted whatever is known.
  have hvetted : ∀ f, Setting.identity.function? ⟨0⟩ = some f → IsVetted Setting.identity "eval"
      (fun f => Setting.identity.function? ⟨0⟩ = some f) f := by
    intro f hf
    obtain rfl := Option.some.inj (hfound.symm.trans hf)
    refine ⟨by decide +kernel, _, rfl, ?_⟩
    simp [Fits, FitsEach, Place.body]
  exact .of_vetted hvetted (fun _ hcalls => hcalls.1) (by simp [Call.operands])
    ⟨hfound, by decide +kernel⟩

end

end Eligibility

end CallFolding
