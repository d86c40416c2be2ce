import CallFolding.Proofs.Steady

/-!
Loops. The number of rounds a loop may make is bounded when it starts, but a round that asks for
more has counted a step, and there are not more steps to count than rounds to make. So the bound
plays no part: a loop is one round, and the same loop again if the round asks for more.
-/

set_option autoImplicit false

namespace CallFolding

namespace Run

/-- The run asks for more only after it has counted a step. -/
def Charging (limits : Limits) (r : Run Bool) : Prop :=
  ∀ m m', r m = .ok true m' → m.steps < m'.steps ∧ m.steps < limits.steps

variable {limits : Limits} {r : Run Bool}

/-- A round that asks for more leaves fewer rounds to make. -/
theorem Charging.passes_lt (h : Charging limits r) {m m' : Machine} (hr : r m = .ok true m') :
    limits.passes m'.steps < limits.passes m.steps := by
  obtain ⟨hlt, hlimit⟩ := h m m' hr
  unfold Limits.passes
  omega

/-- The bound on the rounds of a loop is never reached: any greater one does the same. -/
theorem Charging.repeatWhile_eq (h : Charging limits r) : ∀ {n k : Nat} {m : Machine},
    limits.passes m.steps ≤ n → limits.passes m.steps ≤ k →
      repeatWhile limits r n m = repeatWhile limits r k m
  | 0, _, m, hn, _ => by
    unfold Limits.passes at hn
    omega
  | _ + 1, 0, m, _, hk => by
    unfold Limits.passes at hk
    omega
  | n + 1, k + 1, m, hn, hk => by
    rw [repeatWhile, repeatWhile]
    cases hr : r m with
    | error exit m' => rw [bind_of_error hr, bind_of_error hr]
    | ok again m' =>
      rw [bind_of_ok hr, bind_of_ok hr]
      cases again with
      | false => rfl
      | true =>
        -- The rest of the rounds needs a smaller bound than there was, so both are still large
        -- enough.
        have hlt := h.passes_lt hr
        exact h.repeatWhile_eq (by omega) (by omega)

/-- A loop whose first round asks for more is the same loop again after that round. -/
theorem Charging.loop_of_true (h : Charging limits r) {m m' : Machine} (hr : r m = .ok true m') :
    loop limits r m = loop limits r m' := by
  have hlt := h.passes_lt hr
  have hpasses : limits.passes m.steps = (limits.steps - m.steps) + 1 := rfl
  -- The bound for the rest of the rounds is not the one the loop would start with after the round.
  have heq : repeatWhile limits r (limits.steps - m.steps) m'
      = repeatWhile limits r (limits.passes m'.steps) m' :=
    h.repeatWhile_eq (by omega) (Nat.le_refl _)
  unfold loop
  rw [hpasses, repeatWhile]
  simp only [bind, EStateM.bind, hr, if_pos, heq]

/-- A loop whose first round does not ask for more is over. -/
theorem loop_of_false {m m' : Machine} (hr : r m = .ok false m') :
    loop limits r m = .ok .unit m' := by
  unfold loop Limits.passes
  rw [repeatWhile]
  simp only [bind, EStateM.bind, hr]
  rfl

/-- An exit of the first round is that of the loop. -/
theorem loop_of_error {m m' : Machine} {exit : Exit} (hr : r m = .error exit m') :
    loop limits r m = .error exit m' := by
  unfold loop Limits.passes
  rw [repeatWhile]
  simp only [bind, EStateM.bind, hr]

/-- A loop is one round, and the same loop again if the round asks for more. -/
theorem Charging.loop_eq (h : Charging limits r) :
    loop limits r = (do
      let again ← r
      if again then loop limits r else pure .unit) := by
  funext m
  cases hr : r m with
  | error exit m' => rw [loop_of_error hr, bind_of_error hr]
  | ok again m' =>
    rw [bind_of_ok hr]
    cases again with
    | true => exact h.loop_of_true hr
    | false => exact loop_of_false hr

/-- A step that could be counted was within the limit. -/
theorem tally_eq_ok {m m' : Machine} (h : tally limits m = .ok () m') :
    m'.steps = m.steps + 1 ∧ m.steps < limits.steps := by
  unfold tally Limits.tally at h
  split at h
  · rename_i hc
    split at hc
    · cases hc
    · cases hc
      cases h
      exact ⟨rfl, by omega⟩
  · cases h

/-- A round that tests first counts its step after the pass. -/
theorem charging_firstPass (id : LoopId) {test : Run Literal} {runs : List (Run Literal)}
    (htest : Steady test) (hruns : Steady (inOrder .unit runs)) :
    Charging limits (firstPass limits id test runs) := by
  intro m m' h
  obtain ⟨holds, m₁, htest', h⟩ := bind_eq_ok.mp h
  have h₁ : m.steps ≤ m₁.steps := (htest.condition.keeps_of_ok htest').steps
  cases holds with
  | false => cases h
  | true =>
    obtain ⟨through, m₂, hpass, h⟩ := bind_eq_ok.mp h
    have h₂ : m₁.steps ≤ m₂.steps := ((Steady.pass id hruns).inFrame.keeps_of_ok hpass).steps
    cases through with
    | false => cases h
    | true =>
      obtain ⟨_, m₃, hcharge, h⟩ := bind_eq_ok.mp h
      cases h
      obtain ⟨hstep, hlimit⟩ := tally_eq_ok hcharge
      omega

/-- A round that tests last counts its step between the pass and the test, which takes none back. -/
theorem charging_lastPass (id : LoopId) {test : Run Literal} {runs : List (Run Literal)}
    (htest : Steady test) (hruns : Steady (inOrder .unit runs)) :
    Charging limits (lastPass limits id test runs) := by
  intro m m' h
  obtain ⟨m₁, scope, hround, _, rfl⟩ := inFrame_eq_ok h
  obtain ⟨through, m₂, hpass, hround⟩ := bind_eq_ok.mp hround
  have h₂ : m.steps ≤ m₂.steps := ((Steady.pass id hruns).keeps_of_ok hpass).steps
  cases through with
  | false => cases hround
  | true =>
    obtain ⟨_, m₃, hcharge, hcond⟩ := bind_eq_ok.mp hround
    obtain ⟨hstep, hlimit⟩ := tally_eq_ok hcharge
    have h₃ : m₃.steps ≤ m₁.steps := (htest.condition.keeps_of_ok hcond).steps
    simp only
    omega

end Run

end CallFolding
