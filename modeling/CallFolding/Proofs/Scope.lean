import CallFolding.Scope

/-!
What running something does to the variables around it, and what it cannot see of them.

An edit that fails changes nothing. That is shown first, of each edit: it ends as a function says
that gives a new scope or an error (`Edit.popFrame_eq` and the others). Everything after is said of
those functions, `popFrame`, `popActivation`, `define` and `assign`.

The next part is about one scope. `Continues s s'` says that `s'` is left behind by a run that
started in `s` inside an activation: the same frames and activations are open, older bindings are
where they were, those of callers have their values too, and whatever is new is in the innermost
frame. Opening something, continuing and closing it again is then a round trip: `popFrame` gives
back a continuation of the scope before, and `popActivation` the very scope before.

The last part is about two scopes. `above base s` is `s` put on top of `base`. Every operation
does the same to `above base s` as to `s`, as long as `s` has what the operation asks for: this is
why a callee cannot tell who called it.
-/

set_option autoImplicit false

namespace CallFolding.Scope

variable {α : Type}

/-! ## What edits come to -/

/-- The scope without its innermost frame, unless it is the only one of its activation. -/
def popFrame (s : Scope α) : Except PopError (Scope α) :=
  match s.activations.back? with
  | none => .error .noActivation
  | some first =>
    if s.frames.size ≤ first + 1 then .error .activationBoundary
    else
      let start := s.frames.back?.getD s.bindings.size
      .ok { s with frames := s.frames.pop, bindings := s.bindings.shrink start }

/-- The scope without its current activation. -/
def popActivation (s : Scope α) : Except PopError (Scope α) :=
  match s.activations.back? with
  | none => .error .noActivation
  | some first =>
    let start := s.frames[first]?.getD s.bindings.size
    .ok
      { bindings := s.bindings.shrink start
        frames := s.frames.shrink first
        activations := s.activations.pop }

/-- The scope with a new name in its innermost frame. -/
def define (s : Scope α) (name : String) (value : α) : Except BindError (Scope α) :=
  match s.frames.back? with
  | none => .error .noScope
  | some start =>
    if (newest s.bindings name start s.bindings.size).isSome then .error (.alreadyDefined name)
    else .ok { s with bindings := s.bindings.push (name, value) }

/-- The scope with another value for a name of the current activation. -/
def assign (s : Scope α) (name : String) (value : α) : Except BindError (Scope α) :=
  match s.activationStart? with
  | none => .error .noScope
  | some start =>
    match newest s.bindings name start s.bindings.size with
    | none => .error (.undefined name)
    | some i => .ok { s with bindings := s.bindings.setIfInBounds i (name, value) }

namespace Edit

/-- The end of an operation that gives a new state or leaves the one there was. -/
def ending {ε σ : Type} (s : σ) : Except ε σ → EStateM.Result ε σ Unit
  | .ok t => .ok () t
  | .error e => .error e s

/-- What fails leaves the state there was. -/
theorem eq_of_ending_eq_error {ε σ : Type} {s t : σ} {x : Except ε σ} {e : ε}
    (h : ending s x = .error e t) : t = s := by
  cases x with
  | ok t => cases h
  | error e =>
    cases h
    rfl

theorem popFrame_eq (s : Scope α) : popFrame s = ending s s.popFrame := by
  unfold popFrame Scope.popFrame
  cases s.activations.back? with
  | none => rfl
  | some first =>
    dsimp only
    split
    · rfl
    · rfl

/-- Closing an activation. The mark is taken off before it is looked at. -/
theorem popActivation_eq (s : Scope α) : popActivation s = ending s s.popActivation := by
  unfold popActivation Scope.popActivation
  cases hback : s.activations.back? with
  | none =>
    -- Where there was no mark, none was taken off.
    have hpop : s.activations.pop = s.activations := by
      rw [Array.back?_eq_none_iff.mp hback]
      rfl
    dsimp only
    rw [hpop]
    rfl
  | some first => rfl

theorem define_eq (name : String) (value : α) (s : Scope α) :
    define name value s = ending s (s.define name value) := by
  unfold define Scope.define
  cases s.frames.back? with
  | none => rfl
  | some start =>
    dsimp only
    split
    · rfl
    · rfl

theorem assign_eq (name : String) (value : α) (s : Scope α) :
    assign name value s = ending s (s.assign name value) := by
  unfold assign Scope.assign
  cases s.activationStart? with
  | none => rfl
  | some start =>
    dsimp only
    cases newest s.bindings name start s.bindings.size with
    | none => rfl
    | some i => rfl

end Edit

/-! ## The current activation -/

/-- There is a current activation, with its first frame open. -/
def Anchored (s : Scope α) : Prop :=
  ∃ first, s.activations.back? = some first ∧ first < s.frames.size

/-- The current activation, if there is one, has its first frame open. -/
def Rooted (s : Scope α) : Prop :=
  ∀ first, s.activations.back? = some first → first < s.frames.size

/-- Neither an activation nor a frame is open. -/
def Bare (s : Scope α) : Prop :=
  s.activations = #[] ∧ s.frames = #[]

theorem bare_empty : (empty : Scope α).Bare :=
  ⟨rfl, rfl⟩

theorem rooted_empty : (empty : Scope α).Rooted := by
  intro first h
  simp [empty] at h

/-- A scope with its activation open is rooted. -/
theorem Anchored.rooted {s : Scope α} (h : s.Anchored) : s.Rooted := by
  obtain ⟨first, hback, hlt⟩ := h
  intro other hother
  rw [hback] at hother
  cases hother
  exact hlt

/-- A rooted scope is anchored as soon as it has an activation. -/
theorem Rooted.anchored {s : Scope α} (h : s.Rooted) (hd : s.depth ≠ 0) : s.Anchored := by
  have hlt : s.activations.size - 1 < s.activations.size := Nat.sub_one_lt hd
  have hback : s.activations.back? = some s.activations[s.activations.size - 1] := by
    rw [Array.back?_eq_getElem?, Array.getElem?_eq_getElem hlt]
  exact ⟨_, hback, h _ hback⟩

/-- Without an activation nothing can be missing. -/
theorem rooted_of_depth_zero {s : Scope α} (h : s.depth = 0) : s.Rooted := by
  intro first hback
  have hempty : s.activations = #[] := Array.eq_empty_of_size_eq_zero h
  simp [hempty] at hback

/-- Without an activation there is nothing to close. -/
theorem popFrame_of_depth_zero {s : Scope α} (h : s.depth = 0) :
    s.popFrame = .error .noActivation := by
  have hempty : s.activations = #[] := Array.eq_empty_of_size_eq_zero h
  simp [popFrame, hempty]

/-- Without a frame there is no activation either. -/
theorem Rooted.depth_eq_zero {s : Scope α} (h : s.Rooted) (hf : s.frames = #[]) : s.depth = 0 := by
  rcases Nat.eq_zero_or_pos s.depth with hd | hd
  · exact hd
  · obtain ⟨first, _, hlt⟩ := h.anchored (Nat.ne_of_gt hd)
    simp [hf] at hlt

/-- Without an activation no variable can be seen. -/
theorem activationStart?_of_depth_zero {s : Scope α} (h : s.depth = 0) :
    s.activationStart? = none := by
  have hempty : s.activations = #[] := Array.eq_empty_of_size_eq_zero h
  simp [activationStart?, hempty]

@[simp] theorem depth_pushFrame (s : Scope α) : s.pushFrame.depth = s.depth := rfl

@[simp] theorem depth_pushActivation (s : Scope α) : s.pushActivation.depth = s.depth + 1 := by
  simp [pushActivation, pushFrame, depth]

/-- Closing a frame leaves the activations alone. -/
theorem activations_of_popFrame {s t : Scope α} (h : s.popFrame = .ok t) :
    t.activations = s.activations := by
  simp only [popFrame] at h
  split at h
  · cases h
  · split at h <;> cases h
    rfl

/-- An activation that is open can be closed. -/
theorem popActivation_of_depth {s : Scope α} {n : Nat} (h : s.depth = n + 1) :
    ∃ t, s.popActivation = .ok t ∧ t.depth = n := by
  unfold popActivation
  cases hback : s.activations.back? with
  | none =>
    rw [depth, Array.back?_eq_none_iff.mp hback] at h
    cases h
  | some first =>
    refine ⟨_, rfl, ?_⟩
    rw [depth, Array.size_pop, ← depth, h]
    rfl

/-- An activation is opened with a frame. -/
theorem anchored_pushActivation (s : Scope α) : s.pushActivation.Anchored :=
  ⟨s.frames.size, by simp [pushActivation, pushFrame], by simp [pushActivation, pushFrame]⟩

/-- More frames do not close the first one. -/
theorem Anchored.pushFrame {s : Scope α} (h : s.Anchored) : s.pushFrame.Anchored := by
  obtain ⟨first, hback, hlt⟩ := h
  refine ⟨first, hback, ?_⟩
  simp only [Scope.pushFrame, Array.size_push]
  omega

theorem Rooted.pushFrame {s : Scope α} (h : s.Rooted) : s.pushFrame.Rooted := by
  by_cases hd : s.depth = 0
  · exact rooted_of_depth_zero hd
  · exact (h.anchored hd).pushFrame.rooted

/-- In an anchored scope the current activation has a first binding. -/
theorem Anchored.activationStart? {s : Scope α} (h : s.Anchored) :
    ∃ start, s.activationStart? = some start := by
  obtain ⟨first, hback, hlt⟩ := h
  exact ⟨s.frames[first], by simp [Scope.activationStart?, hback, hlt]⟩

/-! ## The newest binding of a name -/

/-- What is found lies in the range searched and has the name asked for. -/
theorem newest_spec {bindings : Array (String × α)} {name : String} {floor : Nat} :
    ∀ {n i : Nat}, newest bindings name floor n = some i →
      floor ≤ i ∧ i < n ∧ ∃ value, bindings[i]? = some (name, value)
  | 0, i, h => by simp [newest] at h
  | n + 1, i, h => by
    rw [newest] at h
    split at h
    · cases h
    · split at h
      · rename_i hfloor hhit
        cases h
        obtain ⟨binding, hget, hname⟩ := (Option.any_eq_true ..).mp hhit
        refine ⟨by omega, by omega, binding.2, ?_⟩
        rw [hget, ← eq_of_beq hname]
      · obtain ⟨hle, hlt, hv⟩ := newest_spec h
        exact ⟨hle, by omega, hv⟩

/-! ## Continuing a scope -/

/-- `s'` is what a run inside the current activation can make of `s`. -/
structure Continues (s s' : Scope α) : Prop where
  frames : s'.frames = s.frames
  activations : s'.activations = s.activations
  size_le : s.bindings.size ≤ s'.bindings.size
  /-- Older bindings keep their names and places. -/
  names : ∀ i, i < s.bindings.size → s'.bindings[i]?.map (·.1) = s.bindings[i]?.map (·.1)
  /-- Bindings of callers keep their values too. -/
  below : ∀ start, s.activationStart? = some start →
    ∀ i, i < start → i < s.bindings.size → s'.bindings[i]? = s.bindings[i]?

namespace Continues

variable {s s' s'' : Scope α}

theorem refl (s : Scope α) : s.Continues s :=
  ⟨rfl, rfl, Nat.le_refl _, fun _ _ => rfl, fun _ _ _ _ _ => rfl⟩

/-- The activation starts where it did. -/
theorem activationStart?_eq (h : s.Continues s') : s'.activationStart? = s.activationStart? := by
  simp only [activationStart?, h.frames, h.activations]

theorem trans (h : s.Continues s') (h' : s'.Continues s'') : s.Continues s'' where
  frames := h'.frames.trans h.frames
  activations := h'.activations.trans h.activations
  size_le := Nat.le_trans h.size_le h'.size_le
  names i hi := (h'.names i (Nat.lt_of_lt_of_le hi h.size_le)).trans (h.names i hi)
  below start hstart i hi hsize := by
    rw [h'.below start (h.activationStart?_eq.trans hstart) i hi
      (Nat.lt_of_lt_of_le hsize h.size_le)]
    exact h.below start hstart i hi hsize

theorem anchored (h : s.Continues s') (ha : s.Anchored) : s'.Anchored := by
  obtain ⟨first, hback, hlt⟩ := ha
  exact ⟨first, by rw [h.activations, hback], by rw [h.frames]; exact hlt⟩

theorem rooted (h : s.Continues s') (hr : s.Rooted) : s'.Rooted := by
  intro first hback
  rw [h.activations] at hback
  rw [h.frames]
  exact hr first hback

/-- A new binding comes after all others. -/
theorem of_define {name : String} {value : α} (h : s.define name value = .ok s') :
    s.Continues s' := by
  simp only [define] at h
  split at h
  · cases h
  · split at h
    · cases h
    · cases h
      have hold : ∀ i, i < s.bindings.size →
          (s.bindings.push (name, value))[i]? = s.bindings[i]? := by
        intro i hi
        rw [Array.getElem?_push, if_neg (Nat.ne_of_lt hi)]
      exact ⟨rfl, rfl, by simp, fun i hi => by rw [hold i hi], fun _ _ i _ hi => hold i hi⟩

/-- The binding that is written belongs to the current activation and keeps its name. -/
theorem of_assign {name : String} {value : α} (h : s.assign name value = .ok s') :
    s.Continues s' := by
  simp only [assign] at h
  split at h
  · cases h
  · rename_i start hstart
    split at h
    · cases h
    · rename_i j hj
      cases h
      obtain ⟨hle, hlt, old, hget⟩ := newest_spec hj
      refine ⟨rfl, rfl, by simp, fun i hi => ?_, fun other hother i hi _ => ?_⟩
      · rw [Array.getElem?_setIfInBounds]
        split
        · rename_i heq
          subst heq
          rw [hget]
          rfl
        · rfl
      -- What a caller has is below the activation, and the search does not go there.
      · rw [hstart] at hother
        cases hother
        rw [Array.getElem?_setIfInBounds, if_neg (by omega)]

end Continues

/-- Closing a frame gives a continuation of the scope in which it was opened. -/
theorem popFrame_of_continues {s s' : Scope α} (ha : s.Anchored) (h : s.pushFrame.Continues s') :
    ∃ t, s'.popFrame = .ok t ∧ s.Continues t := by
  obtain ⟨first, hback, hlt⟩ := ha
  have hframes : s'.frames = s.frames.push s.bindings.size := h.frames
  have hactivations : s'.activations = s.activations := h.activations
  have hsize : s.bindings.size ≤ s'.bindings.size := h.size_le
  -- What is left is as much of the bindings as there was before the frame was opened.
  refine ⟨⟨s'.bindings.take s.bindings.size, s.frames, s.activations⟩, ?_, ?_⟩
  · have hopen : ¬ (s.frames.push s.bindings.size).size ≤ first + 1 := by
      rw [Array.size_push]
      omega
    simp only [popFrame, hactivations, hback, hframes, if_neg hopen, Array.back?_push,
      Option.getD_some, Array.pop_push, Array.shrink_eq_take]
  · have htake : ∀ i, i < s.bindings.size →
        (s'.bindings.take s.bindings.size)[i]? = s'.bindings[i]? := by
      intro i hi
      rw [Array.take_eq_extract, Array.getElem?_extract, if_pos (by omega), Nat.zero_add]
    -- The new frame is not the first of its activation.
    have hstart : s.pushFrame.activationStart? = s.activationStart? := by
      simp only [activationStart?, pushFrame, hback, Option.bind_some]
      rw [Array.getElem?_push, if_neg (Nat.ne_of_lt hlt)]
    refine ⟨rfl, rfl, by simp [hsize], fun i hi => ?_, fun start hs i hi hb => ?_⟩
    · rw [htake i hi]
      exact h.names i hi
    · rw [htake i hb]
      exact h.below start (hstart.trans hs) i hi hb

/-- Closing an activation gives back the scope in which it was opened. -/
theorem popActivation_of_continues {s s' : Scope α} (h : s.pushActivation.Continues s') :
    s'.popActivation = .ok s := by
  have hframes : s'.frames = s.frames.push s.bindings.size := h.frames
  have hactivations : s'.activations = s.activations.push s.frames.size := h.activations
  have hsize : s.bindings.size ≤ s'.bindings.size := h.size_le
  have hstart : s.pushActivation.activationStart? = some s.bindings.size := by
    simp [activationStart?, pushActivation, pushFrame]
  -- All of `s` is below the new activation, so nothing of it has changed.
  have hbindings : s'.bindings.take s.bindings.size = s.bindings := by
    refine Array.ext (by simp [hsize]) fun i hi hi' => ?_
    have hbelow := h.below _ hstart i hi' hi'
    have hi'' : i < s'.bindings.size := Nat.lt_of_lt_of_le hi' hsize
    rw [Array.getElem?_eq_getElem hi''] at hbelow
    simp only [Array.take_eq_extract, Array.getElem_extract, Nat.zero_add]
    exact Option.some.inj (hbelow.trans (Array.getElem?_eq_getElem hi'))
  simp only [popActivation, hactivations, Array.back?_push, hframes, Array.getElem?_push_size,
    Option.getD_some, Array.shrink_eq_take, Array.pop_push, hbindings]
  simp

/-! ## One scope above another -/

/-- The scope `s` with everything in `base` below it. -/
def above (base s : Scope α) : Scope α where
  bindings := base.bindings ++ s.bindings
  frames := base.frames ++ s.frames.map (· + base.bindings.size)
  activations := base.activations ++ s.activations.map (· + base.frames.size)

@[simp] theorem above_empty_left (s : Scope α) : above empty s = s := by
  simp [above, empty]

@[simp] theorem above_empty_right (base : Scope α) : above base empty = base := by
  simp [above, empty]

@[simp] theorem pushFrame_above (base s : Scope α) :
    (above base s).pushFrame = above base s.pushFrame := by
  simp [above, pushFrame, Nat.add_comm]

@[simp] theorem pushActivation_above (base s : Scope α) :
    (above base s).pushActivation = above base s.pushActivation := by
  simp [above, pushActivation, pushFrame, Nat.add_comm]

/-- A search that stays above `base` finds what it finds in the upper part. -/
theorem newest_above (base s : Array (String × α)) (name : String) (floor : Nat) :
    ∀ n, newest (base ++ s) name (floor + base.size) (base.size + n) =
      (newest s name floor n).map (· + base.size)
  | 0 => by
    cases hsize : base.size with
    | zero => rfl
    | succ k =>
      have hlow : k < floor + (k + 1) := by omega
      simp only [newest, if_pos hlow, Option.map_none]
  | n + 1 => by
    rw [← Nat.add_assoc, newest, newest]
    have hget : (base ++ s)[base.size + n]? = s[n]? := by
      rw [Array.getElem?_append_right (by omega), Nat.add_sub_cancel_left]
    by_cases hfloor : n < floor
    · rw [if_pos (by omega), if_pos hfloor]
      rfl
    · rw [if_neg (by omega), if_neg hfloor, hget]
      split
      · rw [Option.map_some, Nat.add_comm]
      · exact newest_above base s name floor n

variable {base s : Scope α}

/-- The activation starts as far above `base` as it did above nothing. -/
theorem Anchored.activationStart?_above (h : s.Anchored) :
    (above base s).activationStart? = s.activationStart?.map (· + base.bindings.size) := by
  obtain ⟨first, hback, hlt⟩ := h
  simp only [Scope.activationStart?, above, Array.back?_append, Array.back?_map, hback,
    Option.map_some, Option.some_or, Option.bind_some]
  rw [Array.getElem?_append_right (by omega), Nat.add_sub_cancel, Array.getElem?_map]

/-- Variables are found as far above it. -/
theorem Anchored.position?_above (h : s.Anchored) (name : String) :
    (above base s).position? name = (s.position? name).map (· + base.bindings.size) := by
  obtain ⟨start, hstart⟩ := h.activationStart?
  simp only [position?, h.activationStart?_above, hstart, Option.map_some, Option.bind_some]
  simp only [above, Array.size_append]
  exact newest_above ..

/-- Inside an activation nothing below it is read. -/
theorem Anchored.lookup_above (h : s.Anchored) (name : String) :
    (above base s).lookup name = s.lookup name := by
  simp only [lookup, h.position?_above]
  cases s.position? name with
  | none => rfl
  | some i =>
    simp only [Option.map_some, Option.bind_some, above]
    rw [Array.getElem?_append_right (by omega), Nat.add_sub_cancel]

/-- Inside an activation nothing below it is written. -/
theorem Anchored.assign_above (h : s.Anchored) (name : String) (value : α) :
    (above base s).assign name value = (s.assign name value).map (above base) := by
  obtain ⟨start, hstart⟩ := h.activationStart?
  simp only [assign, h.activationStart?_above, hstart, Option.map_some]
  have hnewest := newest_above base.bindings s.bindings name start s.bindings.size
  simp only [above, Array.size_append, hnewest]
  cases newest s.bindings name start s.bindings.size with
  | none => rfl
  | some i =>
    simp only [Option.map_some, Except.map]
    rw [Array.setIfInBounds_append_right (by omega), Nat.add_sub_cancel]
    rfl

/-- With a frame of its own, nothing below is in the way of a new name. -/
theorem define_above (h : s.frames ≠ #[]) (name : String) (value : α) :
    (above base s).define name value = (s.define name value).map (above base) := by
  obtain ⟨start, hback⟩ : ∃ start, s.frames.back? = some start := by
    cases hback : s.frames.back? with
    | none => exact absurd (Array.back?_eq_none_iff.mp hback) h
    | some start => exact ⟨start, rfl⟩
  have hnewest := newest_above base.bindings s.bindings name start s.bindings.size
  simp only [define, above, Array.back?_append, Array.back?_map, hback, Option.map_some,
    Option.some_or, Array.size_append, hnewest, Option.isSome_map]
  split
  · rfl
  · simp [Except.map, above]

private theorem shrink_append {β : Type} (xs ys : Array β) (n : Nat) :
    (xs ++ ys).shrink (n + xs.size) = xs ++ ys.shrink n := by
  simp only [Array.shrink_eq_take, Array.take_eq_extract, Array.extract_append, Nat.zero_sub,
    Nat.add_sub_cancel]
  rw [Array.extract_eq_self_of_le (by omega)]

/-- With an activation of its own, a scope closes its frames as if nothing were below. -/
theorem Anchored.popFrame_above (h : s.Anchored) :
    (above base s).popFrame = s.popFrame.map (above base) := by
  obtain ⟨first, hback, hlt⟩ := h
  -- The innermost frame belongs to the upper part, so it is that part which loses it.
  have hne : s.frames ≠ #[] := by
    rintro hempty
    simp [hempty] at hlt
  obtain ⟨start, hstart⟩ : ∃ start, s.frames.back? = some start :=
    Option.ne_none_iff_exists'.mp (mt Array.back?_eq_none_iff.mp hne)
  simp only [popFrame, above, Array.back?_append, Array.back?_map, hback, hstart, Option.map_some,
    Option.some_or, Array.size_append, Array.size_map, Option.getD_some]
  by_cases hlast : s.frames.size ≤ first + 1
  · rw [if_pos (by omega), if_pos hlast]
    rfl
  · rw [if_neg (by omega), if_neg hlast]
    have hne' : s.frames.map (· + base.bindings.size) ≠ #[] := by simpa using hne
    simp only [Except.map, above, shrink_append, Array.pop_append_of_ne_empty hne', Array.map_pop]

end CallFolding.Scope
