import CallFolding.Program.Builder
import CallFolding.Proofs.Activation
import CallFolding.Proofs.Vetted

/-!
Where jumps go. A jump is taken by the innermost pass through its loop that it is inside of. The
condition of a loop is not a part of its passes, so a jump in the condition of its own loop leaves
that loop, and every other loop of the activation, without being taken: it ends the activation, and
may then be taken by a pass of the same loop in an activation further out, or by nothing at all.
Eligibility lets such jumps pass. They are the only ones that leave their activation.
-/

set_option autoImplicit false

namespace CallFolding

/-- The loop that an expression jumps to. -/
def Expr.jump? : Expr → Option LoopId
  | breakLoop target => some target
  | continueLoop target => some target
  | _ => none

/-- The loop that an exit is on its way to. -/
def Exit.jump? : Exit → Option LoopId
  | .broke target => some target
  | .continued target => some target
  | _ => none

namespace Site

/-- The loops of the current activation whose passes these are inside of. -/
def passes : List Site → List LoopId
  | [] => []
  | .body _ :: _ => []
  | .test _ :: sites => passes sites
  | .pass id :: sites => id :: passes sites

variable {x : Exit} {target : LoopId}

theorem mem_passes : ∀ sites : List Site, .pass target ∈ loops sites → target ∈ passes sites
  | [], h => nomatch h
  | .body _ :: _, h => nomatch h
  | .test _ :: sites, h => by
    rcases List.mem_cons.mp h with h | h
    · cases h
    · exact mem_passes sites h
  | .pass _ :: sites, h => by
    rcases List.mem_cons.mp h with h | h
    · cases h
      exact List.mem_cons_self
    · exact List.mem_cons_of_mem _ (mem_passes sites h)

/-- Only a pass through its loop takes a jump. -/
theorem catches_jump (h : x.jump? = some target) {site : Site} :
    site.Catches x ↔ site = .pass target := by
  cases x with
  | broke other =>
    cases h
    cases site <;> simp [Catches, eq_comm]
  | continued other =>
    cases h
    cases site <;> simp [Catches, eq_comm]
  | _ => cases h

end Site

theorem Eligibility.Fits.jump {program : Program} {marker : String} {known : Function → Prop}
    {place : Place} {e : Expr} {target : LoopId} (h : Fits program marker known place e)
    (he : e.jump? = some target) : target ∈ place.loops := by
  cases e with
  | breakLoop other =>
    cases he
    exact h
  | continueLoop other =>
    cases he
    exact h
  | _ => cases he

namespace Setting

variable {setting : Setting} {x : Exit} {target : LoopId}

theorem not_isIncidental_of_jump (h : x.jump? = some target) : ¬ x.IsIncidental := by
  cases x with
  | failed cause => cases h
  | _ => exact not_false

theorem jump_of_raises {b : Moment} (h : x.jump? = some target) (hb : setting.Raises b x) :
    b.expr.jump? = some target := by
  cases x with
  | broke other =>
    cases h
    exact congrArg Expr.jump? hb
  | continued other =>
    cases h
    exact congrArg Expr.jump? hb
  | _ => cases h

theorem outcome_of_jump (setting : Setting) {b : Moment} (h : b.expr.jump? = some target) :
    ∃ x m, setting.outcome b = .error x m ∧ x.jump? = some target := by
  obtain ⟨sites, room, e, m⟩ := b
  cases e with
  | breakLoop other =>
    cases h
    exact ⟨.broke target, m, by rw [outcome, evalAt_eq, evalExpr]; rfl, rfl⟩
  | continueLoop other =>
    cases h
    exact ⟨.continued target, m, by rw [outcome, evalAt_eq, evalExpr]; rfl, rfl⟩
  | _ => cases h

/-- An escaped jump was a jump. -/
theorem exists_jump_of_evalCall {call : Call}
    (h : setting.evalCall call = .error (.defect (.escapedJump target))) :
    ∃ x m, setting.outcome (setting.start call) = .error x m ∧ x.jump? = some target := by
  obtain ⟨x, m, hexit, hescape⟩ := evalCall_eq_error h
  cases x with
  | broke other =>
    cases hescape
    exact ⟨_, m, hexit, rfl⟩
  | continued other =>
    cases hescape
    exact ⟨_, m, hexit, rfl⟩
  | returned other value => cases hescape
  | failed cause =>
    -- Nothing raises this defect: it is a name for the exit of the call as a whole.
    cases hescape
    obtain ⟨_, _, hraises, _⟩ := exists_origin (setting.isPlaced_start call) hexit not_false
    exact hraises.elim

/-- A jump that is inside no pass through its loop ends the activation it is raised in. -/
theorem Reaches.exists_entry {a b : Moment} (h : setting.Reaches a b) (ha : a.IsPlaced)
    (hout : Site.bodies a.sites = 0) {m : Machine} (hx : x.jump? = some target)
    (hb : setting.outcome b = .error x m) (hin : Site.bodies b.sites ≠ 0)
    (hpass : target ∉ Site.passes b.sites) :
    ∃ c d, setting.Reaches a c ∧ setting.Next c d ∧ (∃ id, d.sites = .body id :: c.sites) ∧
      ∃ m', setting.outcome d = .error x m' := by
  obtain ⟨id, hid⟩ := Option.ne_none_iff_exists'.mp (mt (Site.activation?_eq_none _).mp hin)
  have huncaught : ∀ site ∈ Site.loops b.sites, ¬ site.Catches x := by
    intro site hsite hcatch
    rw [Site.catches_jump hx] at hcatch
    exact hpass (Site.mem_passes _ (hcatch ▸ hsite))
  obtain ⟨c, d, hopens, hexit⟩ := h.exists_opens_of_uncaught ha hout hid hb huncaught
  exact ⟨c, d, hopens.reaches, hopens.next, ⟨id, hopens.enters⟩, hexit⟩

/-- On the way from its origin a jump has crossed no pass through its loop. -/
theorem not_mem_passes_of_carries {a b : Moment} (hx : x.jump? = some target)
    (h : Relation.ReflTransGen (setting.Carries x) a b) (ha : target ∉ Site.passes a.sites) :
    target ∉ Site.passes b.sites := by
  induction h with
  | refl => exact ha
  | tail _ hcarries ih =>
    rcases hcarries.next.sites_cases with hsites | ⟨id, hsites⟩ | ⟨id, hsites | hsites, _⟩
    · rw [hsites]
      exact ih
    · -- A body starts an activation with no passes.
      rw [hsites]
      exact List.not_mem_nil
    · rw [hsites]
      exact ih
    · have hcatch := hcarries.uncaught _ hsites
      rw [Site.catches_jump hx] at hcatch
      rw [hsites]
      intro hmem
      rcases List.mem_cons.mp hmem with rfl | hmem
      · exact hcatch rfl
      · exact ih hmem

/-- Outside of all bodies a jump comes from no further inside: a loop fails there in its own way. -/
theorem sites_eq_of_carries {a b : Moment} (hx : x.jump? = some target) (ha : a.IsPlaced)
    (hexits : ∃ m, setting.outcome a = .error x m)
    (h : Relation.ReflTransGen (setting.Carries x) a b) (hb : Site.bodies b.sites = 0) :
    b.sites = a.sites := by
  induction h with
  | refl => rfl
  | @tail c d hpath hcarries ih =>
    have hle := hcarries.next.bodies_le
    have hc : Site.bodies c.sites = 0 := by omega
    rcases hcarries.next.sites_cases with hsites | ⟨id, hsites⟩ | ⟨id, _, hscoped⟩
    · exact hsites.trans (ih hc)
    · rw [hsites] at hb
      exact absurd hb (Nat.succ_ne_zero _)
    · obtain ⟨m, hexit⟩ : ∃ m, setting.outcome c = .error x m := by
        rcases Relation.ReflTransGen.cases_tail hpath with rfl | ⟨_, _, hlast⟩
        · exact hexits
        · exact hlast.exits
      -- The loop around would have failed to close its frame instead.
      have hplaced := Reaches.isPlaced (reaches_of_carries hpath) ha
      obtain ⟨m', hpop⟩ := setting.outcome_of_isScoped c hscoped (hplaced.depth.trans hc)
      cases hpop.symm.trans hexit
      cases hx

/-! ## Eligible calls -/

/-- No jump leaves its activation in the evaluation of the call. -/
structure JumpsStay (setting : Setting) (call : Call) : Prop where
  /-- The body of a function never ends with a jump. -/
  bodies : ∀ a b, setting.Reaches (setting.start call) a → setting.Next a b →
    (∃ id, b.sites = .body id :: a.sites) → ∀ x m, setting.outcome b = .error x m → x.jump? = none
  /-- Wherever a jump comes from where it is raised, it is still in the same activation. -/
  carried : ∀ a b x, setting.Reaches (setting.start call) a →
    Relation.ReflTransGen (setting.Carries x) a b → setting.Raises b x → x.jump? ≠ none →
      Site.bodies b.sites = Site.bodies a.sites
  result : ∀ target, setting.evalCall call ≠ .error (.defect (.escapedJump target))

/-- A jump that crosses into a body on the way in crosses out of it on the way back. -/
theorem bodies_eq_of_carries {a b : Moment} (hx : x.jump? = some target)
    (hbodies : ∀ c d, setting.Reaches a c → setting.Next c d →
      (∃ id, d.sites = .body id :: c.sites) →
        ∀ x m, setting.outcome d = .error x m → x.jump? = none)
    (h : Relation.ReflTransGen (setting.Carries x) a b) :
    Site.bodies b.sites = Site.bodies a.sites := by
  induction h with
  | refl => rfl
  | @tail c d hpath hcarries ih =>
    rcases hcarries.next.sites_cases with hsites | hbody | ⟨id, hsites | hsites, _⟩
    · rw [hsites]
      exact ih
    · obtain ⟨m, hexit⟩ := hcarries.exits
      have hnone := hbodies c d (reaches_of_carries hpath) hcarries.next hbody x m hexit
      exact nomatch hnone.symm.trans hx
    · rw [hsites]
      exact ih
    · rw [hsites]
      exact ih

/-- If every jump inside a body is inside a pass through its loop, no body ends with a jump. -/
theorem jump_eq_none_of_entry {a b c : Moment} (ha : a.IsPlaced)
    (hpasses : ∀ d target, setting.Reaches a d → d.expr.jump? = some target →
      Site.bodies d.sites ≠ 0 → target ∈ Site.passes d.sites)
    (hreach : setting.Reaches a b) (hnext : setting.Next b c)
    (hbody : ∃ id, c.sites = .body id :: b.sites) {m : Machine}
    (hexit : setting.outcome c = .error x m) : x.jump? = none := by
  by_contra hjump
  obtain ⟨target, hx⟩ := Option.ne_none_iff_exists'.mp hjump
  have hc := hnext.isPlaced (Reaches.isPlaced hreach ha)
  obtain ⟨d, hpath, hraises⟩ := exists_origin hc hexit (not_isIncidental_of_jump hx)
  have hd := reaches_of_carries hpath
  obtain ⟨id, hsites⟩ := hbody
  have hin : Site.bodies d.sites ≠ 0 := by
    have hle := Reaches.bodies_le hd
    rw [hsites, Site.bodies] at hle
    omega
  have hnot : target ∉ Site.passes c.sites := by
    rw [hsites]
    exact List.not_mem_nil
  exact not_mem_passes_of_carries hx hpath hnot
    (hpasses d target ((hreach.tail hnext).trans hd) (jump_of_raises hx hraises) hin)

/-- **When jumps of eligible calls stay in their activations:** if and only if every jump that the
evaluation comes to inside a body is inside a pass through its loop there, and not only inside the
condition. -/
theorem jumpsStay_iff (setting : Setting) {call : Call}
    (hnumbered : setting.program.IsNumbered)
    (h : Eligibility.check setting.program setting.marker call = .ok ()) :
    setting.JumpsStay call ↔
      ∀ b target, setting.Reaches (setting.start call) b → b.expr.jump? = some target →
        Site.bodies b.sites ≠ 0 → target ∈ Site.passes b.sites := by
  have hplaced := setting.isPlaced_start call
  constructor
  · intro hstay b target hreach hexpr hin
    by_contra hpass
    obtain ⟨x, m, hb, hx⟩ := setting.outcome_of_jump hexpr
    -- No pass around the jump takes it, so it leaves the body that it is in.
    obtain ⟨c, d, hc, hnext, hbody, m', hd⟩ := hreach.exists_entry hplaced rfl hx hb hin hpass
    exact nomatch (hstay.bodies c d hc hnext hbody x m' hd).symm.trans hx
  · intro hpasses
    have hbodies : ∀ a b, setting.Reaches (setting.start call) a → setting.Next a b →
        (∃ id, b.sites = .body id :: a.sites) → ∀ x m, setting.outcome b = .error x m →
          x.jump? = none :=
      fun a b hreach hnext hbody x m => jump_eq_none_of_entry hplaced hpasses hreach hnext hbody
    refine ⟨hbodies, fun a b x hreach hpath _ hjump => ?_, fun target heq => ?_⟩
    · obtain ⟨target, hx⟩ := Option.ne_none_iff_exists'.mp hjump
      exact bodies_eq_of_carries hx (fun c d hc => hbodies c d (hreach.trans hc)) hpath
    · obtain ⟨known, _, hfits⟩ := exists_fits_of_check hnumbered h
      obtain ⟨x, m, hexit, hx⟩ := exists_jump_of_evalCall heq
      obtain ⟨b, hpath, hraises⟩ := exists_origin hplaced hexit (not_isIncidental_of_jump hx)
      have hreach := reaches_of_carries hpath
      have hexpr := jump_of_raises hx hraises
      by_cases hin : Site.bodies b.sites = 0
      · -- Not even a loop is around the jump, so it would not have been eligible.
        have hfit := (hfits b hreach).jump hexpr
        rw [sites_eq_of_carries hx hplaced ⟨m, hexit⟩ hpath hin] at hfit
        exact List.not_mem_nil hfit
      · exact not_mem_passes_of_carries hx hpath List.not_mem_nil
          (hpasses b target hreach hexpr hin)

/-- `evalF` has a loop whose condition breaks out of it, and returns seven after that. -/
def breakInCondition : Program :=
  Prod.snd <| Build.run do
    let function ← Build.declare "evalF" [] .int
    let loop ← Build.newLoop
    Build.define function (.block
      [.loop .testFirst loop none (.breakLoop loop) none, .returnFrom function (.int 7)])

/-- A call of `evalF` is eligible, and its evaluation ends with a jump that nothing took. -/
theorem evalCall_breakInCondition :
    Eligibility.check breakInCondition "eval" ⟨⟨0⟩, none, []⟩ = .ok () ∧
      evalCall ⟨breakInCondition, "eval", {}⟩ ⟨⟨0⟩, none, []⟩ =
        .error (.defect (.escapedJump ⟨0⟩)) := by
  decide +kernel

/-- So it comes to a jump inside a body that is inside no pass through its loop. -/
theorem jumpsStay_iff_breakInCondition :
    breakInCondition.IsNumbered ∧
      Eligibility.check breakInCondition "eval" ⟨⟨0⟩, none, []⟩ = .ok () ∧
      ¬ ∀ b target, Reaches ⟨breakInCondition, "eval", {}⟩
        (start ⟨breakInCondition, "eval", {}⟩ ⟨⟨0⟩, none, []⟩) b → b.expr.jump? = some target →
          Site.bodies b.sites ≠ 0 → target ∈ Site.passes b.sites := by
  have hnumbered : breakInCondition.IsNumbered := by decide +kernel
  have hcheck : Eligibility.check breakInCondition "eval" ⟨⟨0⟩, none, []⟩ = .ok () := by
    decide +kernel
  have hescaped : evalCall ⟨breakInCondition, "eval", {}⟩ ⟨⟨0⟩, none, []⟩ =
      .error (.defect (.escapedJump ⟨0⟩)) := by
    decide +kernel
  refine ⟨hnumbered, hcheck, fun hpasses => ?_⟩
  have hiff := jumpsStay_iff ⟨breakInCondition, "eval", {}⟩ hnumbered hcheck
  exact (hiff.mpr hpasses).result ⟨0⟩ hescaped

end Setting

end CallFolding
