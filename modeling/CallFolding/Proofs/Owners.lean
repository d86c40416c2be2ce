import CallFolding.Proofs.Activation
import CallFolding.Proofs.Vetted

/-!
Whose variables and returns an evaluation comes to. Evaluation looks a variable up in the current
activation without asking whose it is, and a return goes outwards until some activation of its
target takes it. For eligible calls both are right: whatever has an owner is evaluated in an
activation of that owner, so a return is taken by the call that opened the activation it is raised
in, and none is left at the end.
-/

set_option autoImplicit false

namespace CallFolding

/-- The function that a variable or a return belongs to. -/
def Expr.owner? : Expr → Option FunctionId
  | read _ owner => some owner
  | assign _ owner _ => some owner
  | returnFrom target _ => some target
  | _ => none

theorem Site.owner_place : ∀ sites : List Site, (place sites).owner = activation? sites
  | [] => rfl
  | .body _ :: _ => rfl
  | .test _ :: sites => owner_place sites
  | .pass _ :: sites => owner_place sites

/-- Only a body takes a return. -/
theorem Site.not_catches_returned {target : FunctionId} {value : Literal} :
    ∀ (sites : List Site), ∀ site ∈ loops sites, ¬ site.Catches (.returned target value)
  | [], _, h => nomatch h
  | .body _ :: _, _, h => nomatch h
  | .test _ :: sites, _, h => by
    rcases List.mem_cons.mp h with rfl | h
    · exact not_false
    · exact not_catches_returned sites _ h
  | .pass _ :: sites, _, h => by
    rcases List.mem_cons.mp h with rfl | h
    · exact not_false
    · exact not_catches_returned sites _ h

theorem Eligibility.Fits.owner {program : Program} {marker : String} {known : Function → Prop}
    {place : Place} {e : Expr} {owner : FunctionId} (h : Fits program marker known place e)
    (he : e.owner? = some owner) : place.owner = some owner := by
  cases e with
  | read name other =>
    cases he
    exact h
  | assign name other value =>
    cases he
    exact h.1
  | returnFrom other value =>
    cases he
    exact h.1
  | _ => cases he

namespace Setting

variable {setting : Setting} {call : Call}

/-- In the evaluation of the call, variables and returns are those of the current activation. -/
structure KeepsOwners (setting : Setting) (call : Call) : Prop where
  /-- What belongs to a function is evaluated in an activation of that function. -/
  owners : ∀ b owner, setting.Reaches (setting.start call) b → b.expr.owner? = some owner →
    Site.activation? b.sites = some owner ∧ b.machine.scope.depth = Site.bodies b.sites
  /-- Whatever ends with a return is in an activation of its target, and the call that opened this
  activation ends with the value that is returned. -/
  returns : ∀ b target value m, setting.Reaches (setting.start call) b →
    setting.outcome b = .error (.returned target value) m →
      ∃ c d, setting.Opens (setting.start call) b target c d ∧
        ∃ m', setting.outcome c = .ok value m'
  result : ∀ target, setting.evalCall call ≠ .error (.defect (.escapedReturn target))

/-- On its way out from where it is raised, a return leaves no activation of its target. -/
theorem activation?_of_carries {a b : Moment} {target : FunctionId} {value : Literal}
    (h : Relation.ReflTransGen (setting.Carries (.returned target value)) a b) :
    Site.activation? b.sites = Site.activation? a.sites ∨
      Site.activation? b.sites ≠ some target := by
  induction h with
  | refl => exact .inl rfl
  | tail _ hcarries ih =>
    rcases hcarries.next.sites_cases with hsites | ⟨id, hsites⟩ | ⟨id, hsites | hsites, _⟩
    · rw [hsites]
      exact ih
    · -- The body that is left here would have taken the return if it were that of the target.
      have huncaught := hcarries.uncaught _ hsites
      rw [hsites]
      exact .inr fun heq => huncaught (Option.some.inj heq).symm
    · rw [hsites]
      exact ih
    · rw [hsites]
      exact ih

/-- A return belongs to the activation of every evaluation that it ends. -/
theorem activation?_of_returned {a : Moment} (ha : a.IsPlaced)
    (howners : ∀ b owner, setting.Reaches a b → b.expr.owner? = some owner →
      Site.activation? b.sites = some owner)
    {target : FunctionId} {value : Literal} {m : Machine}
    (h : setting.outcome a = .error (.returned target value) m) :
    Site.activation? a.sites = some target := by
  obtain ⟨b, hpath, operand, hexpr⟩ := exists_origin ha h not_false
  have howner := howners b target (reaches_of_carries hpath) (by rw [hexpr]; rfl)
  rcases activation?_of_carries hpath with heq | hne
  · rw [← heq]
    exact howner
  · exact absurd howner hne

/-- An escaped return was a return. -/
theorem exists_returned_of_evalCall {target : FunctionId}
    (h : setting.evalCall call = .error (.defect (.escapedReturn target))) :
    ∃ value m, setting.outcome (setting.start call) = .error (.returned target value) m := by
  obtain ⟨x, m, hexit, hescape⟩ := evalCall_eq_error h
  cases x with
  | returned other value =>
    cases hescape
    exact ⟨value, m, hexit⟩
  | broke other => cases hescape
  | continued other => cases hescape
  | failed cause =>
    -- Nothing raises this defect: it is a name for the exit of the call as a whole.
    cases hescape
    obtain ⟨_, _, hraises, _⟩ := exists_origin (setting.isPlaced_start call) hexit not_false
    exact hraises.elim

/-- **Eligible calls keep to the owners of variables and returns.** -/
theorem keepsOwners_of_check (setting : Setting) (hnumbered : setting.program.IsNumbered)
    (h : Eligibility.check setting.program setting.marker call = .ok ()) :
    setting.KeepsOwners call := by
  have hplaced := setting.isPlaced_start call
  obtain ⟨known, _, hfits⟩ := exists_fits_of_check hnumbered h
  have howners : ∀ b owner, setting.Reaches (setting.start call) b →
      b.expr.owner? = some owner → Site.activation? b.sites = some owner := by
    intro b owner hreach hexpr
    rw [← Site.owner_place]
    exact (hfits b hreach).owner hexpr
  refine ⟨fun b owner hreach hexpr => ⟨howners b owner hreach hexpr,
    (hreach.isPlaced hplaced).depth⟩, ?_, ?_⟩
  · intro b target value m hreach hexit
    have hin := activation?_of_returned (hreach.isPlaced hplaced)
      (fun c owner hc => howners c owner (hreach.trans hc)) hexit
    obtain ⟨c, d, hopens, m', hbody⟩ :=
      hreach.exists_opens_of_uncaught hplaced rfl hin hexit (Site.not_catches_returned _)
    exact ⟨c, d, hopens, hopens.next.outcome_of_returned hopens.enters hbody⟩
  · intro target heq
    obtain ⟨value, m, hexit⟩ := exists_returned_of_evalCall heq
    exact nomatch activation?_of_returned hplaced howners hexit

/-- The activations of `evalEven` and `evalOdd` alternate, and each return is taken by the call that
opened the activation it is raised in. -/
theorem keepsOwners_of_check_parity :
    parity.IsNumbered ∧ Eligibility.check parity "eval" ⟨⟨0⟩, none, [.int 7]⟩ = .ok () ∧
      evalCall ⟨parity, "eval", {}⟩ ⟨⟨0⟩, none, [.int 7]⟩ = .ok (.boolean false) ∧
      KeepsOwners ⟨parity, "eval", {}⟩ ⟨⟨0⟩, none, [.int 7]⟩ := by
  have hnumbered : parity.IsNumbered := by decide +kernel
  have hcheck : Eligibility.check parity "eval" ⟨⟨0⟩, none, [.int 7]⟩ = .ok () := by
    decide +kernel
  refine ⟨hnumbered, hcheck, by decide +kernel, ?_⟩
  exact keepsOwners_of_check ⟨parity, "eval", {}⟩ hnumbered hcheck

end Setting

end CallFolding
