import CallFolding.Proofs.Origin

/-!
Activations in the course of an evaluation. The body that an evaluation is inside of, innermost
first, is that of the current activation. What nothing takes on its way out of a body ends the
activation: the body exits with it (`Reaches.exists_opens_of_uncaught`), and then the call takes
it as its value (`Next.outcome_of_returned`) or exits with it too.
-/

set_option autoImplicit false

namespace CallFolding

namespace Site

/-- The function whose activation is the current one. -/
def activation? : List Site → Option FunctionId
  | [] => none
  | .body id :: _ => some id
  | .test _ :: sites => activation? sites
  | .pass _ :: sites => activation? sites

/-- The conditions and passes of the current activation. -/
def loops : List Site → List Site
  | [] => []
  | .body _ :: _ => []
  | .test id :: sites => .test id :: loops sites
  | .pass id :: sites => .pass id :: loops sites

theorem activation?_eq_none : ∀ sites : List Site, activation? sites = none ↔ bodies sites = 0
  | [] => by simp [activation?, bodies]
  | .body _ :: sites => by simp [activation?, bodies]
  | .test _ :: sites => by simpa [activation?, bodies] using activation?_eq_none sites
  | .pass _ :: sites => by simpa [activation?, bodies] using activation?_eq_none sites

end Site

namespace Setting

variable {setting : Setting} {x : Exit}

/-- In the course of `a`, the call `c` opens the activation that `b` runs in, as one of the function
`id`; the evaluation of the body is `d`. -/
structure Opens (setting : Setting) (a b : Moment) (id : FunctionId) (c d : Moment) : Prop where
  reaches : setting.Reaches a c
  next : setting.Next c d
  enters : d.sites = .body id :: c.sites
  inside : setting.Reaches d b
  /-- No other activation is opened between the two. -/
  same : Site.bodies b.sites = Site.bodies d.sites

/-- An exit that nothing in the current activation takes is what the body of that activation exits
with. The induction is on the way in, and goes up from the exit to the entry of the body. -/
theorem Reaches.exists_opens_of_uncaught {a b : Moment} (h : setting.Reaches a b) (ha : a.IsPlaced)
    (hout : Site.bodies a.sites = 0) {id : FunctionId} (hin : Site.activation? b.sites = some id)
    {m : Machine} (hb : setting.outcome b = .error x m)
    (huncaught : ∀ site ∈ Site.loops b.sites, ¬ site.Catches x) :
    ∃ c d, setting.Opens a b id c d ∧ ∃ m', setting.outcome d = .error x m' := by
  induction h generalizing m with
  | refl => exact nomatch ((Site.activation?_eq_none _).mpr hout).symm.trans hin
  | @tail e f hreach hnext ih =>
    have hplaced := Reaches.isPlaced hreach ha
    -- As long as the activation is the same, the evaluation around exits like the one inside.
    have hup : Uncaught x e f → Site.activation? e.sites = some id →
        Site.bodies f.sites = Site.bodies e.sites →
        (∀ site ∈ Site.loops e.sites, ¬ site.Catches x) →
          ∃ c d, setting.Opens a f id c d ∧ ∃ m', setting.outcome d = .error x m' := by
      intro hstep hactivation hbodies hloops
      rcases hnext.outcome_eq hplaced hb hstep with ⟨m', hexit⟩ | ⟨hd, _⟩
      · obtain ⟨c, d, hopens, hbody⟩ := ih hactivation hexit hloops
        exact ⟨c, d, { hopens with
          inside := hopens.inside.tail hnext, same := hbodies.trans hopens.same }, hbody⟩
      · have hzero := (Site.activation?_eq_none _).mpr (hplaced.depth.symm.trans hd)
        exact nomatch hzero.symm.trans hactivation
    -- A condition or a pass belongs to the activation that its loop is in.
    have hloop : ∀ site, f.sites = site :: e.sites →
        Site.loops (site :: e.sites) = site :: Site.loops e.sites →
        Site.activation? (site :: e.sites) = Site.activation? e.sites →
        Site.bodies (site :: e.sites) = Site.bodies e.sites →
          ∃ c d, setting.Opens a f id c d ∧ ∃ m', setting.outcome d = .error x m' := by
      intro site hsites hloops hactivation hbodies
      rw [hsites, hloops] at huncaught
      rw [hsites, hactivation] at hin
      refine hup (fun other hother => ?_) hin (hsites ▸ hbodies) fun other hother =>
        huncaught other (List.mem_cons_of_mem _ hother)
      cases hsites.symm.trans hother
      exact huncaught site List.mem_cons_self
    rcases hnext.sites_cases with hsites | ⟨other, hsites⟩ | ⟨loop, hsites | hsites, _⟩
    · rw [hsites] at hin huncaught
      exact hup (uncaught_of_sites_eq hsites) hin (congrArg Site.bodies hsites) huncaught
    · rw [hsites] at hin
      cases hin
      exact ⟨e, f, ⟨hreach, hnext, hsites, .refl, rfl⟩, m, hb⟩
    · exact hloop _ hsites rfl rfl rfl
    · exact hloop _ hsites rfl rfl rfl

/-- A call takes what is returned from its function as its value. -/
theorem Next.outcome_of_returned {a b : Moment} (h : setting.Next a b) {id : FunctionId}
    (hsites : b.sites = .body id :: a.sites) {value : Literal} {m : Machine}
    (hb : setting.outcome b = .error (.returned id value) m) :
    ∃ m', setting.outcome a = .ok value m' := by
  unfold outcome at hb ⊢
  cases h with
  | body sites henters hvalues hbind =>
    cases hsites
    rw [evalAt_of_enters setting henters, Run.bind_of_ok hvalues,
      activate_eq (setting.steady_evalAt _ _), Run.bind_of_ok hbind, hb]
    exact ⟨_, if_pos rfl⟩
  | round sites label _ hturn =>
    rcases hturn.mem with ⟨rfl, _⟩ | ⟨rfl, _⟩ <;> cases hsites
  | _ => exact absurd hsites.symm (List.cons_ne_self _ _)

end Setting

end CallFolding
