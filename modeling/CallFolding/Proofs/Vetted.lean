import CallFolding.Program.Builder
import CallFolding.Proofs.Eligibility
import CallFolding.Proofs.Origin

/-!
Eligible calls in evaluation. Everything that the evaluation of an eligible call reaches fits at its
place: the walk saw it, or something that has the same meaning for it (`exists_fits_of_check`). So
no call is refused, and no declaration lacks its initializer.
-/

set_option autoImplicit false

namespace CallFolding

open Eligibility (Fits FitsOption IsVetted)

namespace Site

/-- The place that is inside of these. -/
def place : List Site → Place
  | [] => {}
  | .body id :: _ => .body id
  | .test id :: sites => (place sites).inLoop id
  | .pass id :: sites => (place sites).inLoop id

/-- Outside of all bodies no function is around. -/
theorem owner_of_bodies_eq_zero : ∀ sites : List Site, bodies sites = 0 →
    (place sites).owner = none
  | [], _ => rfl
  | .test _ :: sites, h => owner_of_bodies_eq_zero sites h
  | .pass _ :: sites, h => owner_of_bodies_eq_zero sites h

end Site

namespace Eligibility

variable {program : Program} {marker : String} {known : Function → Prop} {place : Place}

/-- What is evaluated first fits where the whole does. -/
theorem Fits.inner {e e' : Expr} (h : Fits program marker known place e)
    (hinner : e.inner? = some e') : Fits program marker known place e' := by
  cases e with
  | declare name type init =>
    cases hinner
    exact h.2
  | assign name owner value =>
    cases hinner
    exact h.2
  | returnFrom target value =>
    cases hinner
    exact h.2
  | _ => cases hinner

theorem Fits.operand {call : Call} {e : Expr} (h : Fits program marker known place call.expr)
    (he : e ∈ call.operands) : Fits program marker known place e := by
  obtain ⟨id, receiver, args⟩ := call
  obtain ⟨_, hreceiver, hargs⟩ := h
  rcases List.mem_append.mp he with he | he
  · cases receiver with
    | none => cases he
    | some first =>
      obtain rfl := List.mem_singleton.mp he
      exact hreceiver
  · exact (fitsEach_iff args).mp hargs e he

theorem FitsOption.statement {body : Option Expr} {e : Expr}
    (h : FitsOption program marker known place body) (he : e ∈ Expr.statements body) :
    Fits program marker known place e := by
  cases body with
  | none => cases he
  | some whole =>
    cases whole with
    | block es => exact (fitsEach_iff es).mp h e he
    | _ =>
      obtain rfl := List.mem_singleton.mp he
      exact h

/-- Something can be done about a call that fits, since known functions have a body. -/
theorem supports_of_fits {setting : Setting}
    (hknown : ∀ f, known f → IsVetted setting.program setting.marker known f) {call : Call}
    (h : Fits setting.program setting.marker known place call.expr) : setting.Supports call := by
  obtain ⟨⟨function, hfound, hlength, hclass⟩, _⟩ := h
  rcases hclass with hprimitive | ⟨hmarked, hf⟩
  · exact .inr ⟨function, hfound, hlength, hprimitive⟩
  · obtain ⟨_, body, hbody, _⟩ := hknown function hf
    exact .inl ⟨function, body, hfound, hlength, hmarked, hbody⟩

end Eligibility

namespace Setting

variable {setting : Setting} {known : Function → Prop} {call : Call}

/-- What fits has parts that fit, and calls functions whose bodies fit. -/
theorem Next.fits (hknown : ∀ f, known f → IsVetted setting.program setting.marker known f)
    {a b : Moment} (h : setting.Next a b)
    (ha : Fits setting.program setting.marker known (Site.place a.sites) a.expr) :
    Fits setting.program setting.marker known (Site.place b.sites) b.expr := by
  cases h with
  | inner sites room m hinner => exact ha.inner hinner
  | operand sites _ hturn => exact ha.operand hturn.mem
  | body sites henters _ _ =>
    obtain ⟨⟨function, hfound, _, hclass⟩, _⟩ := ha
    obtain rfl := Option.some.inj (hfound.symm.trans henters.found)
    rcases hclass with hprimitive | ⟨_, hf⟩
    · exact nomatch hprimitive.symm.trans henters.marked
    · -- The body fits at the place of a body, wherever the call stands.
      obtain ⟨_, body, hbody, hfits⟩ := hknown function hf
      obtain rfl := Option.some.inj (hbody.symm.trans henters.body)
      exact hfits
  | firstOperand sites room m _ hoperands => exact ha.operand (hoperands ▸ List.mem_cons_self)
  | otherOperand sites _ hoperands _ _ hturn =>
    exact ha.operand (hoperands ▸ List.mem_cons_of_mem _ hturn.mem)
  | statement sites hturn => exact (Eligibility.fitsEach_iff _).mp ha _ hturn.mem
  | arm sites hturn =>
    obtain ⟨arm, hmem, rfl | rfl⟩ := hturn.mem
    · exact ((Eligibility.fitsArms_iff _).mp ha arm hmem).1
    · exact ((Eligibility.fitsArms_iff _).mp ha arm hmem).2
  | round sites label _ hturn =>
    rcases hturn.mem with ⟨rfl, rfl⟩ | ⟨rfl, hmem⟩
    · exact ha.1
    · exact ha.2.statement hmem

/-- **Everything an eligible call reaches fits.** -/
theorem exists_fits_of_check (hnumbered : setting.program.IsNumbered)
    (h : Eligibility.check setting.program setting.marker call = .ok ()) :
    ∃ known, (∀ f, known f → IsVetted setting.program setting.marker known f) ∧
      ∀ b, setting.Reaches (setting.start call) b →
        Fits setting.program setting.marker known (Site.place b.sites) b.expr := by
  obtain ⟨known, hknown, hcall⟩ := Eligibility.exists_vetted_of_check hnumbered h
  refine ⟨known, hknown, fun b hreach => ?_⟩
  induction hreach with
  | refl => exact hcall
  | tail _ hnext ih => exact hnext.fits hknown ih

/-- If every call that is reached can be called, no call is refused. -/
theorem evalCall_ne_refusal
    (h : ∀ b, setting.Reaches (setting.start call) b →
      ∀ inner : Call, b.expr = inner.expr → setting.Supports inner)
    {cause : Defect} (hcause : cause.IsRefusal) :
    setting.evalCall call ≠ .error (.defect cause) := by
  intro heq
  -- Each refusal comes from a call that nothing can be done about.
  cases cause with
  | unknownFunction _ | unsupportedCallee _ | missingBody _ | arityMismatch _ _ _ =>
    obtain ⟨b, hreach, _, inner, hexpr, hrefused⟩ :=
      exists_raises_of_evalCall heq not_false (fun _ => nofun) (fun _ => nofun)
    exact hrefused (h b hreach inner hexpr)
  | _ => exact hcause

/-- **Eligible calls reach only what was checked.** Whatever is called in the course of their
evaluation can be called, whatever is declared has an initializer, and so none of the defects that
speak of the opposite is ever their result. -/
theorem supports_of_check (setting : Setting) (hnumbered : setting.program.IsNumbered)
    (h : Eligibility.check setting.program setting.marker call = .ok ()) :
    (∀ b, setting.Reaches (setting.start call) b →
      (∀ inner : Call, b.expr = inner.expr → setting.Supports inner) ∧
        ∀ name type, b.expr ≠ .declare name type none) ∧
    (∀ id, setting.evalCall call ≠ .error (.defect (.unknownFunction id))) ∧
    (∀ name, setting.evalCall call ≠ .error (.defect (.unsupportedCallee name))) ∧
    (∀ name, setting.evalCall call ≠ .error (.defect (.missingBody name))) ∧
    (∀ name expected found,
      setting.evalCall call ≠ .error (.defect (.arityMismatch name expected found))) ∧
    ∀ name, setting.evalCall call ≠ .error (.defect (.missingInitializer name)) := by
  obtain ⟨known, hknown, hfits⟩ := exists_fits_of_check hnumbered h
  have hcalls : ∀ b, setting.Reaches (setting.start call) b →
      ∀ inner : Call, b.expr = inner.expr → setting.Supports inner := by
    intro b hreach inner hexpr
    have hb := hfits b hreach
    rw [hexpr] at hb
    exact Eligibility.supports_of_fits hknown hb
  -- A declaration without an initializer fits nowhere.
  have hdeclares : ∀ b, setting.Reaches (setting.start call) b →
      ∀ name type, b.expr ≠ .declare name type none := by
    intro b hreach name type hexpr
    have hb := hfits b hreach
    rw [hexpr] at hb
    exact hb
  refine ⟨fun b hreach => ⟨hcalls b hreach, hdeclares b hreach⟩,
    fun _ => evalCall_ne_refusal hcalls trivial, fun _ => evalCall_ne_refusal hcalls trivial,
    fun _ => evalCall_ne_refusal hcalls trivial, fun _ _ _ => evalCall_ne_refusal hcalls trivial,
    fun name heq => ?_⟩
  obtain ⟨b, hreach, name', type, hexpr⟩ :=
    exists_raises_of_evalCall heq not_false (fun _ => nofun) (fun _ => nofun)
  exact hdeclares b hreach name' type hexpr

/-- `evalEven` and `evalOdd` count down by calling each other. -/
def parity : Program :=
  Prod.snd <| Build.run do
    let even ← Build.declare "evalEven" [("n", .int)] .boolean
    let odd ← Build.declare "evalOdd" [("n", .int)] .boolean
    let last ← Build.sameTest (.read "n" even) (.int 0)
    let less ← Build.intOp "minus" (.read "n" even) (.int 1)
    Build.define even (.block [.returnFrom even
      (.ifThenElse last (.bool true) (.call odd none [less]))])
    let last ← Build.sameTest (.read "n" odd) (.int 0)
    let less ← Build.intOp "minus" (.read "n" odd) (.int 1)
    Build.define odd (.block [.returnFrom odd
      (.ifThenElse last (.bool false) (.call even none [less]))])

/-- The walk enters each of the two functions once, and evaluation each of them many times. -/
theorem supports_of_check_parity :
    parity.IsNumbered ∧ Eligibility.check parity "eval" ⟨⟨0⟩, none, [.int 7]⟩ = .ok () ∧
      evalCall ⟨parity, "eval", {}⟩ ⟨⟨0⟩, none, [.int 7]⟩ = .ok (.boolean false) ∧
      ∀ b, Reaches ⟨parity, "eval", {}⟩ (start ⟨parity, "eval", {}⟩ ⟨⟨0⟩, none, [.int 7]⟩) b →
        (∀ inner : Call, b.expr = inner.expr → Supports ⟨parity, "eval", {}⟩ inner) ∧
          ∀ name type, b.expr ≠ .declare name type none := by
  have hnumbered : parity.IsNumbered := by decide +kernel
  have hcheck : Eligibility.check parity "eval" ⟨⟨0⟩, none, [.int 7]⟩ = .ok () := by
    decide +kernel
  refine ⟨hnumbered, hcheck, by decide +kernel, ?_⟩
  exact (supports_of_check ⟨parity, "eval", {}⟩ hnumbered hcheck).1

end Setting

end CallFolding
