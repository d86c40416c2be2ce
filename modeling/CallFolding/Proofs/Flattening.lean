import CallFolding.Proofs.Layout
import CallFolding.Proofs.Moment

/-!
A block around the body of a loop.

The statements of a body that is a block run in the frame of the pass. With another block around
them they run one frame further in, above a frame of the pass that stays empty. `Scope.doubled k` is
a scope with frame `k` opened twice in this way. An empty frame hides nothing, but it is counted:
everything above it has another number, the first frames of callees too.

So the argument is that nothing which can be evaluated takes note of these numbers
(`Run.Indifferent`): started in the doubled scope it ends in the same way, in the doubled scope of
what it would have left. All that is needed of the scope is an activation, and that frame `k` is
open (`Scope.Inner`). When both frames of the pass are closed, the difference is gone, so the two
loops keep together round for round, in equal states. This is for loops that test first: a test
after the pass is part of it, and sees what the statements declare only if no block is around them.
-/

set_option autoImplicit false

namespace CallFolding

/-! ## An entry repeated -/

/-- The entry at position `k` twice, and the others after it one position later. -/
def repeated {β : Type} (k : Nat) (xs : Array β) : Array β :=
  (xs.toList.take (k + 1) ++ xs.toList.drop k).toArray

section

variable {β : Type} {k : Nat} {xs : Array β}

theorem size_repeated (h : k < xs.size) : (repeated k xs).size = xs.size + 1 := by
  simp only [repeated, List.size_toArray, List.length_append, List.length_take, List.length_drop,
    Array.length_toList]
  omega

/-- Up to position `k` everything stays in its place. -/
theorem getElem?_repeated_of_le {i : Nat} (hk : k < xs.size) (hi : i ≤ k) :
    (repeated k xs)[i]? = xs[i]? := by
  have hlength : i < (xs.toList.take (k + 1)).length := by
    rw [List.length_take, Array.length_toList]
    omega
  rw [repeated, List.getElem?_toArray, List.getElem?_append_left hlength,
    List.getElem?_take_of_lt (by omega), Array.getElem?_toList]

/-- From position `k` on everything is found one position later. -/
theorem getElem?_repeated_succ {i : Nat} (hk : k < xs.size) (hi : k ≤ i) :
    (repeated k xs)[i + 1]? = xs[i]? := by
  have hlength : (xs.toList.take (k + 1)).length = k + 1 := by
    rw [List.length_take, Array.length_toList]
    omega
  rw [repeated, List.getElem?_toArray, List.getElem?_append_right (by omega), hlength,
    List.getElem?_drop, Array.getElem?_toList]
  congr 1
  omega

/-- What is pushed later is not repeated. -/
theorem repeated_push (h : k < xs.size) (x : β) :
    repeated k (xs.push x) = (repeated k xs).push x := by
  simp only [repeated, Array.toList_push, List.push_toArray]
  rw [List.take_append_of_le_length (by rw [Array.length_toList]; omega),
    List.drop_append_of_le_length (by rw [Array.length_toList]; omega), List.append_assoc]

/-- The last entry repeated. -/
theorem repeated_size_push (x : β) : repeated xs.size (xs.push x) = (xs.push x).push x := by
  refine Array.toList_inj.mp ?_
  simp only [repeated, Array.toList_push, ← Array.length_toList]
  rw [List.take_of_length_le (by simp), List.drop_left]

theorem back?_repeated (h : k < xs.size) : (repeated k xs).back? = xs.back? := by
  rw [Array.back?_eq_getElem?, Array.back?_eq_getElem?, size_repeated h]
  have hlast := getElem?_repeated_succ h (show k ≤ xs.size - 1 by omega)
  rw [show xs.size + 1 - 1 = xs.size - 1 + 1 by omega, hlast]

end

namespace Scope

variable {α : Type}

/-! ## A frame opened twice -/

/-- The number of a frame once frame `k` is opened twice. Frame `k` itself becomes two frames, and
has the lower number here. -/
def renumber (k i : Nat) : Nat :=
  if k < i then i + 1 else i

/-- The scope with one more frame, empty, right before frame `k`. -/
def doubled (k : Nat) (s : Scope α) : Scope α where
  bindings := s.bindings
  frames := repeated k s.frames
  activations := s.activations.map (renumber k)

/-- There is a current activation, and frame `k` is open. -/
structure Inner (k : Nat) (s : Scope α) : Prop where
  anchored : s.Anchored
  lt_size : k < s.frames.size

namespace Inner

variable {k : Nat} {s t : Scope α}

/-- What continues the scope keeps frame `k` open. -/
theorem of_continues (h : s.Inner k) (hc : s.Continues t) : t.Inner k := by
  refine ⟨hc.anchored h.anchored, ?_⟩
  rw [hc.frames]
  exact h.lt_size

/-- Another frame above does not close it. -/
theorem pushFrame (h : s.Inner k) : s.pushFrame.Inner k := by
  refine ⟨h.anchored.pushFrame, ?_⟩
  have hk := h.lt_size
  simp only [Scope.pushFrame, Array.size_push]
  omega

theorem pushActivation (h : s.Inner k) : s.pushActivation.Inner k := by
  refine ⟨anchored_pushActivation s, ?_⟩
  have hk := h.lt_size
  simp only [Scope.pushActivation, Scope.pushFrame, Array.size_push]
  omega

/-- A frame is opened alike in both scopes. -/
theorem pushFrame_doubled (h : s.Inner k) :
    (s.doubled k).pushFrame = s.pushFrame.doubled k := by
  simp only [Scope.pushFrame, doubled, repeated_push h.lt_size]

theorem pushActivation_doubled (h : s.Inner k) :
    (s.doubled k).pushActivation = s.pushActivation.doubled k := by
  have hsize : (s.doubled k).frames.size = renumber k s.frames.size := by
    rw [renumber, if_pos h.lt_size]
    exact size_repeated h.lt_size
  simp only [Scope.pushActivation, Scope.pushFrame, hsize]
  simp only [doubled, Array.map_push, repeated_push h.lt_size]

/-- The first frame of an activation has another number now, but it starts where it did. -/
theorem getElem?_renumber (h : s.Inner k) (first : Nat) :
    (s.doubled k).frames[renumber k first]? = s.frames[first]? := by
  unfold renumber
  split
  · exact getElem?_repeated_succ h.lt_size (by omega)
  · exact getElem?_repeated_of_le h.lt_size (by omega)

/-- The current activation starts at the same binding. -/
theorem activationStart?_doubled (h : s.Inner k) :
    (s.doubled k).activationStart? = s.activationStart? := by
  obtain ⟨first, hback, -⟩ := h.anchored
  have hback' : (s.doubled k).activations.back? = some (renumber k first) := by
    rw [doubled, Array.back?_map, hback, Option.map_some]
  simp only [Scope.activationStart?, hback, hback', Option.bind_some]
  exact h.getElem?_renumber first

/-- So names are looked up alike. -/
theorem lookup_doubled (h : s.Inner k) (name : String) :
    (s.doubled k).lookup name = s.lookup name := by
  simp only [lookup, position?, h.activationStart?_doubled]
  rfl

/-- Assigning does the same in both scopes. -/
theorem assign_doubled (h : s.Inner k) (name : String) (value : α) :
    (s.doubled k).assign name value = (s.assign name value).map (doubled k) := by
  obtain ⟨start, hstart⟩ := h.anchored.activationStart?
  simp only [assign, h.activationStart?_doubled, hstart]
  simp only [doubled]
  split <;> rfl

theorem define_doubled (h : s.Inner k) (name : String) (value : α) :
    (s.doubled k).define name value = (s.define name value).map (doubled k) := by
  have hback : (s.doubled k).frames.back? = s.frames.back? := back?_repeated h.lt_size
  simp only [define, hback]
  cases s.frames.back? with
  | none => rfl
  | some start =>
    have hbindings : (s.doubled k).bindings = s.bindings := rfl
    simp only [hbindings]
    split <;> rfl

end Inner

/-- A frame is closed that is not the first of its activation. -/
theorem popFrame_push (bindings : Array (String × α)) {frames : Array Nat} {first : Nat}
    (h : first < frames.size) (start : Nat) (older : Array Nat) :
    popFrame ⟨bindings, frames.push start, older.push first⟩ =
      .ok ⟨bindings.shrink start, frames, older.push first⟩ := by
  have hopen : ¬ (frames.push start).size ≤ first + 1 := by
    rw [Array.size_push]
    omega
  simp only [popFrame, Array.back?_push, if_neg hopen, Option.getD_some, Array.pop_push]

/-- As long as frame `k` stays, the innermost frame is closed in the same way. -/
theorem popFrame_doubled {k : Nat} {s t : Scope α} (hpop : s.popFrame = .ok t)
    (hk : k < t.frames.size) : (s.doubled k).popFrame = .ok (t.doubled k) := by
  obtain ⟨older, frames, first, start, hactivations, hframes, hfirst, rfl⟩ :=
    exists_of_popFrame hpop
  -- Where the number of the first frame goes up by one, so does the number of frames.
  have hrenumber : renumber k first < (repeated k frames).size := by
    rw [size_repeated (show k < frames.size from hk), renumber]
    split <;> omega
  simp only [doubled, hactivations, hframes, repeated_push hk, Array.map_push]
  exact popFrame_push _ hrenumber start _

/-- No activation has its first frame above the innermost frame. -/
theorem Ordered.map_renumber {s : Scope α} (h : s.Ordered) {k : Nat} (hk : s.frames.size ≤ k + 1) :
    s.activations.map (renumber k) = s.activations := by
  refine Array.toList_inj.mp ?_
  rw [Array.toList_map]
  refine (List.map_congr_left fun first hfirst => ?_).trans (List.map_id _)
  have hlt := h.activations_lt first hfirst
  exact if_neg (by omega)

/-- Opening two frames is opening one of them twice. -/
theorem Ordered.pushFrame_pushFrame {s : Scope α} (h : s.Ordered) :
    s.pushFrame.pushFrame = s.pushFrame.doubled s.frames.size := by
  simp only [Scope.pushFrame, doubled, repeated_size_push, h.map_renumber (Nat.le_succ _)]

/-- Where the innermost frame is the one opened twice, closing both is closing it once. -/
theorem Ordered.popFrame_popFrame {s t : Scope α} (h : s.Ordered) (hpop : s.popFrame = .ok t) :
    ∃ u, (s.doubled t.frames.size).popFrame = .ok u ∧ u.popFrame = .ok t := by
  obtain ⟨older, frames, first, start, hactivations, hframes, hfirst, rfl⟩ :=
    exists_of_popFrame hpop
  have hsize : s.frames.size = frames.size + 1 := by rw [hframes, Array.size_push]
  have hrenumber := h.map_renumber (Nat.le_of_eq hsize)
  refine ⟨⟨s.bindings.shrink start, frames.push start, s.activations⟩, ?_, ?_⟩
  · have hlt : first < (frames.push start).size := by
      rw [Array.size_push]
      omega
    simp only [doubled, hframes, repeated_size_push, hrenumber]
    rw [hactivations]
    exact popFrame_push _ hlt start older
  · have hshrink : (s.bindings.shrink start).shrink start = s.bindings.shrink start := by
      simp only [Array.shrink_eq_take, Array.take_eq_extract, Array.extract_extract]
      simp
    rw [hactivations, popFrame_push _ hfirst, hshrink]

end Scope

/-! ## Runs that take no note of it -/

/-- The state with frame `k` opened twice. -/
abbrev Machine.doubled (k : Nat) (m : Machine) : Machine :=
  { m with scope := m.scope.doubled k }

namespace Outcome

variable {α : Type}

/-- The same end, in the doubled scope of what is left. -/
def doubled (k : Nat) (x : Outcome α) : Outcome α :=
  x.withScope (x.machine.scope.doubled k)

@[simp] theorem doubled_ok (k : Nat) (a : α) (m : Machine) :
    doubled k (.ok a m) = .ok a (m.doubled k) := rfl

@[simp] theorem doubled_error (k : Nat) (exit : Exit) (m : Machine) :
    doubled k (.error exit m : Outcome α) = .error exit (m.doubled k) := rfl

@[simp] theorem machine_doubled (k : Nat) (x : Outcome α) :
    (x.doubled k).machine = x.machine.doubled k :=
  machine_withScope x _

@[simp] theorem withScope_withScope (x : Outcome α) (scope scope' : Scope Literal) :
    (x.withScope scope).withScope scope' = x.withScope scope' := by
  cases x <;> rfl

/-- Only the variables that are left last count. -/
@[simp] theorem withScope_doubled (k : Nat) (x : Outcome α) (scope : Scope Literal) :
    (x.doubled k).withScope scope = x.withScope scope :=
  withScope_withScope x _ _

@[simp] theorem doubled_withScope (k : Nat) (x : Outcome α) (scope : Scope Literal) :
    (x.withScope scope).doubled k = x.withScope (scope.doubled k) := by
  rw [doubled, machine_withScope, withScope_withScope]

end Outcome

namespace Run

/-- Taking a jump does not look at the variables. -/
theorem endOfPass_withScope (id : LoopId) (x : Outcome Literal) (scope : Scope Literal) :
    endOfPass id (x.withScope scope) = (endOfPass id x).withScope scope := by
  cases x with
  | ok value m => rfl
  | error exit m =>
    cases exit with
    | broke target =>
      simp only [Outcome.withScope_error, endOfPass]
      split <;> rfl
    | continued target =>
      simp only [Outcome.withScope_error, endOfPass]
      split <;> rfl
    | _ => rfl

theorem endOfCall_withScope (function : Function) (x : Outcome Literal) (scope : Scope Literal) :
    endOfCall function (x.withScope scope) = (endOfCall function x).withScope scope := by
  cases x with
  | ok value m =>
    simp only [Outcome.withScope_ok, endOfCall]
    split <;> rfl
  | error exit m =>
    cases exit with
    | returned target value =>
      simp only [Outcome.withScope_error, endOfCall]
      split <;> rfl
    | _ => rfl

/-- Opening frame `k` twice makes no difference to the run but that it stays so. -/
structure Indifferent {α : Type} (k : Nat) (r : Run α) : Prop where
  steady : r.Steady
  doubled : ∀ {m : Machine}, m.scope.Inner k → r (m.doubled k) = Outcome.doubled k (r m)

namespace Indifferent

variable {k : Nat} {α β : Type}

theorem value (a : α) : Indifferent k (pure a : Run α) :=
  ⟨fun m => .value a m, fun _ => rfl⟩

theorem exit {x : Exit} (h : ¬ x.IsUnscoped) : Indifferent k (throw x : Run α) :=
  ⟨fun m => .exit h m, fun _ => rfl⟩

/-- Two indifferent runs, one after the other. -/
theorem bind {r : Run α} {f : α → Run β} (h : Indifferent k r) (hf : ∀ a, Indifferent k (f a)) :
    Indifferent k (r >>= f) where
  steady := h.steady.bind fun a => (hf a).steady
  doubled {m} hm := by
    have hdoubled := h.doubled hm
    cases hr : r m with
    | ok a m₁ =>
      rw [hr, Outcome.doubled_ok] at hdoubled
      have hcontinues : m.scope.Continues m₁.scope :=
        (h.steady.keeps_of_ok hr).continues hm.anchored
      -- The first run leaves frame `k` open, so the second one is started inside too.
      rw [bind_of_ok hr, bind_of_ok hdoubled]
      exact (hf a).doubled (hm.of_continues hcontinues)
    | error exit m₁ =>
      rw [hr, Outcome.doubled_error] at hdoubled
      rw [bind_of_error hr, bind_of_error hdoubled, Outcome.doubled_error]

/-! ### Variables and steps -/

/-- Binding a name goes to the last frame, which is the same in both scopes. -/
theorem define (name : String) (value : Literal) : Indifferent k (Run.define name value) where
  steady := .define name value
  doubled {m} hm := by
    simp only [Run.define_eq, hm.define_doubled]
    cases m.scope.define name value <;> rfl

/-- Assigning looks no further than where the activation starts. -/
theorem assign (name : String) (value : Literal) : Indifferent k (Run.assign name value) where
  steady := .assign name value
  doubled {m} hm := by
    simp only [Run.assign_eq, hm.assign_doubled]
    cases m.scope.assign name value <;> rfl

theorem read (name : String) : Indifferent k (Run.read name) where
  steady := .read name
  doubled {m} hm := by
    simp only [Run.read, hm.lookup_doubled]
    cases m.scope.lookup name <;> rfl

theorem tally (limits : Limits) : Indifferent k (Run.tally limits) where
  steady := .tally limits
  doubled {m} _ := by
    simp only [Run.tally]
    cases limits.tally m.steps <;> rfl

/-! ### Frames and activations -/

/-- A frame that is opened inside is closed inside. -/
theorem inFrame {r : Run α} (h : Indifferent k r) : Indifferent k r.inFrame where
  steady := h.steady.inFrame
  doubled {m} hm := by
    obtain ⟨t, hpop, hcontinues, hleft⟩ := h.steady.inFrame_of_anchored hm.anchored
    have hframed : (m.doubled k).framed = m.framed.doubled k :=
      congrArg (fun scope => { m with scope }) hm.pushFrame_doubled
    have hinside : r (m.doubled k).framed = Outcome.doubled k (r m.framed) := by
      rw [hframed]
      exact h.doubled hm.pushFrame
    -- The frame that is closed was opened after frame `k`.
    have hclosed : (Outcome.machine (r (m.doubled k).framed)).scope.popFrame =
        .ok (t.doubled k) := by
      rw [hinside, Outcome.machine_doubled]
      exact Scope.popFrame_doubled hpop (hm.of_continues hcontinues).lt_size
    rw [hleft, inFrame_of_popFrame hclosed, hinside, Outcome.withScope_doubled,
      Outcome.doubled_withScope]

theorem inActivation {r : Run α} (h : Indifferent k r) : Indifferent k r.inActivation where
  steady := h.steady.inActivation
  doubled {m} hm := by
    have hactivated : (m.doubled k).activated = m.activated.doubled k :=
      congrArg (fun scope => { m with scope }) hm.pushActivation_doubled
    rw [h.steady.inActivation_eq, h.steady.inActivation_eq, hactivated,
      h.doubled hm.pushActivation, Outcome.withScope_doubled, Outcome.doubled_withScope]

/-! ### Exits that are taken -/

/-- A pass is indifferent if its statements are. -/
theorem pass (id : LoopId) {runs : List (Run Literal)} (h : Indifferent k (inOrder .unit runs)) :
    Indifferent k (Run.pass id runs) where
  steady := .pass id h.steady
  doubled {m} hm := by
    rw [pass_eq, pass_eq, h.doubled hm, Outcome.doubled, endOfPass_withScope, Outcome.doubled,
      machine_endOfPass]

/-- Taking a return does not look at frames. -/
theorem catchReturn (function : Function) {r : Run Literal} (h : Indifferent k r) :
    Indifferent k (Setting.catchReturn function r) where
  steady := h.steady.catchReturn function
  doubled {m} hm := by
    rw [catchReturn_eq, catchReturn_eq, h.doubled hm, Outcome.doubled, endOfCall_withScope,
      Outcome.doubled, machine_endOfCall]

/-! ### Loops -/

/-- A condition is indifferent if what it tests is. -/
theorem condition {r : Run Literal} (h : Indifferent k r) : Indifferent k r.condition := by
  refine h.bind fun value => ?_
  unfold Run.truth
  cases value.boolean? with
  | some b => exact .value b
  | none => exact .exit not_false

/-- Repeating an indifferent run is indifferent. -/
theorem repeatWhile (limits : Limits) {r : Run Bool} (h : Indifferent k r) (n : Nat) :
    Indifferent k (Run.repeatWhile limits r n) := by
  induction n with
  | zero => exact .exit not_false
  | succ n ih =>
    refine h.bind fun again => ?_
    cases again with
    | false => exact .value ()
    | true => exact ih

/-- The steps counted so far are the same, so the loop may make as many rounds. -/
theorem loop (limits : Limits) {r : Run Bool} (h : Indifferent k r) :
    Indifferent k (Run.loop limits r) where
  steady := h.steady.loop limits
  doubled {m} hm :=
    ((h.repeatWhile limits (limits.passes m.steps)).bind fun _ => .value Literal.unit).doubled hm

/-- A round that tests first, from its test and its statements. -/
theorem firstPass (limits : Limits) (id : LoopId) {test : Run Literal} {runs : List (Run Literal)}
    (htest : Indifferent k test) (hruns : Indifferent k (inOrder .unit runs)) :
    Indifferent k (Run.firstPass limits id test runs) := by
  refine htest.condition.bind fun holds => ?_
  cases holds with
  | false => exact .value false
  | true =>
    refine (pass id hruns).inFrame.bind fun through => ?_
    cases through with
    | false => exact .value false
    | true => exact (tally limits).bind fun _ => .value true

/-- A round that tests last, from its test and its statements. -/
theorem lastPass (limits : Limits) (id : LoopId) {test : Run Literal} {runs : List (Run Literal)}
    (htest : Indifferent k test) (hruns : Indifferent k (inOrder .unit runs)) :
    Indifferent k (Run.lastPass limits id test runs) := by
  refine inFrame ((pass id hruns).bind fun through => ?_)
  cases through with
  | false => exact .value false
  | true => exact (tally limits).bind fun _ => htest.condition

end Indifferent

/-- Indifference, as a relation of which only the left side matters. -/
def indifferentRelation (k : Nat) (setting : Setting) : RunRelation setting setting where
  Rel r _ := r.Indifferent k
  Roomy a b := a = b
  value := .value
  exit _ h _ := .exit h
  andThen h hf := h.bind hf
  define := .define
  assign := .assign
  read := .read
  inFrame h := h.inFrame
  inActivation h := h.inActivation
  catchReturn function _ _ h := h.catchReturn function
  testFirst id _ _ _ _ htest hruns := (htest.firstPass setting.limits id hruns).loop setting.limits
  testLast id _ _ _ _ htest hruns := (htest.lastPass setting.limits id hruns).loop setting.limits
  roomy_succ := RunRelation.exists_room_eq
  refuse _ _ _ _ _ := .exit not_false

end Run

namespace Setting

/-- **Nothing that can be evaluated takes note of an empty frame.** -/
theorem indifferent_evalAt (setting : Setting) (k room : Nat) (e : Expr) :
    (setting.evalAt room e).Indifferent k := by
  have hcompatible : (Run.indifferentRelation k setting).Compatible fun _ _ => False :=
    ⟨rfl, .refl _ _, fun h => h.elim⟩
  exact RunRelation.evalAt _ hcompatible rfl (.refl _ e)

/-- Statements one after the other take no note of it either. -/
theorem indifferent_inOrder (setting : Setting) (k room : Nat) (es : List Expr) :
    (Run.inOrder .unit (es.map (setting.evalAt room))).Indifferent k := by
  refine (Run.indifferentRelation k setting).inOrder (List.forall₂_same.mpr fun r hr => ?_) .unit
  obtain ⟨e, -, rfl⟩ := List.mem_map.mp hr
  exact setting.indifferent_evalAt k room e

end Setting

/-! ## Loops -/

/-- The scope is laid out in order and has a current activation. -/
structure Scope.Live {α : Type} (s : Scope α) : Prop where
  ordered : s.Ordered
  anchored : s.Anchored

/-- What continues a live scope is live. -/
theorem Scope.Live.of_continues {α : Type} {s t : Scope α} (h : s.Live) (hc : s.Continues t) :
    t.Live :=
  ⟨h.ordered.of_continues hc, hc.anchored h.anchored⟩

theorem Scope.Live.pushFrame {α : Type} {s : Scope α} (h : s.Live) : s.pushFrame.Live :=
  ⟨h.ordered.pushFrame, h.anchored.pushFrame⟩

namespace Run

section

variable {m : Machine}

/-- In a frame that was just opened, a run may as well have a frame of its own: closing that frame
and then the other leaves what closing the one frame leaves. -/
theorem Indifferent.exists_inFrame {r : Run Literal} (h : Indifferent m.scope.frames.size r)
    (hm : m.scope.Live) : ∃ t u, (Outcome.machine (r m.framed)).scope.popFrame = .ok t ∧
      r.inFrame m.framed = Outcome.withScope (r m.framed) u ∧ u.popFrame = .ok t := by
  have hinner : m.framed.scope.Inner m.scope.frames.size :=
    ⟨hm.anchored.pushFrame, by simp [Scope.pushFrame]⟩
  -- Two frames in a row are one of them opened twice, and the run takes no note of that.
  have htwice : r m.framed.framed = Outcome.doubled m.scope.frames.size (r m.framed) := by
    rw [← h.doubled hinner]
    exact congrArg (fun scope => r { m with scope }) hm.ordered.pushFrame_pushFrame
  obtain ⟨t, hpop, hcontinues, -⟩ := h.steady.inFrame_of_anchored hm.anchored
  have hordered := hm.ordered.pushFrame.of_continues
    ((h.steady m.framed).continues hm.anchored.pushFrame)
  obtain ⟨u, hinside, houtside⟩ := hordered.popFrame_popFrame hpop
  refine ⟨t, u, hpop, ?_, houtside⟩
  have hclosed : (Outcome.machine (r m.framed.framed)).scope.popFrame = .ok u := by
    rw [htwice, Outcome.machine_doubled, ← hcontinues.frames]
    exact hinside
  rw [inFrame_of_popFrame hclosed, htwice, Outcome.withScope_doubled]

/-- A pass does the same if its statements run in one more frame. -/
theorem inFrame_pass_inFrame (id : LoopId) {runs : List (Run Literal)}
    (h : Indifferent m.scope.frames.size (inOrder .unit runs)) (hm : m.scope.Live) :
    inFrame (pass id [(inOrder .unit runs).inFrame]) m = inFrame (pass id runs) m := by
  obtain ⟨t, u, hpop, hblock, hclose⟩ := h.exists_inFrame hm
  have hpass : pass id [(inOrder .unit runs).inFrame] m.framed =
      Outcome.withScope (pass id runs m.framed) u := by
    have hsingle : inOrder .unit [(inOrder .unit runs).inFrame] = (inOrder .unit runs).inFrame :=
      bind_pure _
    rw [pass_eq, pass_eq, hsingle, hblock, endOfPass_withScope]
  have hleft : (Outcome.machine (pass id [(inOrder .unit runs).inFrame] m.framed)).scope.popFrame =
      .ok t := by
    rw [hpass, Outcome.machine_withScope]
    exact hclose
  have hright : (Outcome.machine (pass id runs m.framed)).scope.popFrame = .ok t := by
    rw [pass_eq, machine_endOfPass]
    exact hpop
  rw [inFrame_of_popFrame hleft, inFrame_of_popFrame hright, hpass, Outcome.withScope_withScope]

end

/-- Two loops whose rounds are the same in every state that their rounds come to. -/
theorem loop_congr (limits : Limits) {r r' : Run Bool} {P : Machine → Prop}
    (heq : ∀ m, P m → r m = r' m) (hkeep : ∀ m m', P m → r m = .ok true m' → P m') {m : Machine}
    (hm : P m) : loop limits r m = loop limits r' m := by
  -- Round by round: as long as the rounds ask for more, they come to states of which `P` holds.
  have hrepeat : ∀ n m, P m → repeatWhile limits r n m = repeatWhile limits r' n m := by
    intro n
    induction n with
    | zero => exact fun _ _ => rfl
    | succ n ih =>
      intro m hm
      have hsame := heq m hm
      rw [repeatWhile, repeatWhile]
      cases hr : r m with
      | error exit m₁ => rw [bind_of_error hr, bind_of_error (hsame ▸ hr)]
      | ok again m₁ =>
        rw [bind_of_ok hr, bind_of_ok (hsame ▸ hr)]
        cases again with
        | false => rfl
        | true => exact ih m₁ (hkeep m m₁ hm hr)
  unfold loop
  rw [bind_eq_andThen, bind_eq_andThen, hrepeat _ m hm]

/-- A loop that tests first does the same if the statements of its passes run in one more frame. -/
theorem loop_firstPass_inFrame (limits : Limits) (id : LoopId) {test : Run Literal}
    {runs : List (Run Literal)} (htest : Steady test)
    (hruns : ∀ k, Indifferent k (inOrder .unit runs)) {m : Machine} (hm : m.scope.Live) :
    loop limits (firstPass limits id test [(inOrder .unit runs).inFrame]) m =
      loop limits (firstPass limits id test runs) m := by
  have hsteady : Steady (firstPass limits id test runs) :=
    htest.firstPass limits id (hruns 0).steady
  refine (loop_congr limits (P := fun m => m.scope.Live) (fun m hm => ?_) (fun m m' hm hr => ?_)
    hm).symm
  · -- The test leaves a scope in which the passes are alike.
    rw [firstPass, firstPass]
    cases hcondition : condition test m with
    | error exit m₁ => rw [bind_of_error hcondition, bind_of_error hcondition]
    | ok holds m₁ =>
      rw [bind_of_ok hcondition, bind_of_ok hcondition]
      cases holds with
      | false => rfl
      | true =>
        have hm₁ : m₁.scope.Live :=
          hm.of_continues ((htest.condition.keeps_of_ok hcondition).continues hm.anchored)
        simp only [if_true, bind_eq_andThen, inFrame_pass_inFrame id (hruns _) hm₁]
  · exact hm.of_continues ((hsteady.keeps_of_ok hr).continues hm.anchored)

end Run

/-- The statements of a body that is not a block are the body alone. -/
theorem Expr.statements_some (body : Expr) :
    (∃ es, body = .block es) ∨ Expr.statements (some body) = [body] := by
  cases body with
  | block es => exact .inl ⟨es, rfl⟩
  | _ => exact .inr rfl

namespace Setting

/-- **A block around the body of a loop that tests first makes no difference**, in any state with an
activation: the loop ends in the same way, with the same steps counted and the same scope left. -/
theorem eval_loop_block (setting : Setting) (id : LoopId) (label : Option String)
    (test body : Expr) (m : Machine) (hreach : m.scope.Reachable) (hopen : 0 < m.scope.depth) :
    setting.eval (.loop .testFirst id label test (some (.block [body]))) m =
      setting.eval (.loop .testFirst id label test (some body)) m := by
  have hlive : m.scope.Live :=
    ⟨hreach.ordered, hreach.ordered.rooted.anchored (Nat.ne_of_gt hopen)⟩
  unfold eval
  generalize setting.limits.room m.scope.depth = room
  rw [evalAt_loop, evalAt_loop]
  rcases Expr.statements_some body with ⟨es, rfl⟩ | hstatements
  -- A block in a block: the inner one gets a frame that the outer one has opened already.
  · have hloop := Run.loop_firstPass_inFrame setting.limits id (setting.steady_evalAt room test)
      (fun k => setting.indifferent_inOrder k room es) hlive.pushFrame (m := m.framed)
    simp only [Expr.statements, List.map_cons, List.map_nil, evalAt_block]
    rw [Run.inFrame_eq_close, Run.inFrame_eq_close]
    exact congrArg _ hloop
  · rw [hstatements]
    rfl

/-- One function that may be run, and room for just one call of it and for one step. -/
def calling : Setting where
  program := ⟨#[⟨⟨0⟩, "evalTwo", .package "", none, [], .int,
    some (.block [.returnFrom ⟨0⟩ (.const (.int 2))])⟩]⟩
  marker := "eval"
  limits := { steps := 1, depth := 2 }

/-- A body that hides `n` behind a variable of its own, sets `go` and ends with a jump. -/
def hidingBody : Expr :=
  .block [.declare "n" .int (some (.call ⟨0⟩ none [])), .assign "go" ⟨1⟩ (.const (.boolean false)),
    .continueLoop ⟨0⟩]

/-- A loop that goes on as long as `go` is set. -/
def hidingLoop (body : Expr) : Expr :=
  .loop .testFirst ⟨0⟩ none (.read "go" ⟨1⟩) (some body)

/-- The loop makes one pass and leaves the outer `n` as it was, and so it does with a block around
its body. -/
theorem eval_loop_block_hiding :
    let m : Machine := { scope := ⟨#[("go", .boolean true), ("n", .int 1)], #[0], #[0]⟩ }
    let left := Outcome.machine (calling.eval (hidingLoop hidingBody) m)
    m.scope.Reachable ∧ 0 < m.scope.depth ∧
    left.scope.bindings = #[("go", .boolean false), ("n", .int 1)] ∧ left.steps = 1 ∧
    calling.eval (hidingLoop (.block [hidingBody])) m = calling.eval (hidingLoop hidingBody) m := by
  intro m left
  have hreach : m.scope.Reachable :=
    ((Relation.ReflTransGen.single (.pushActivation .empty)).tail
      (.define (show Scope.define _ "go" (Literal.boolean true) = .ok _ from rfl))).tail
        (.define (show Scope.define _ "n" (Literal.int 1) = .ok _ from rfl))
  have hopen : 0 < m.scope.depth := by decide
  exact ⟨hreach, hopen, by decide +kernel, by decide +kernel,
    eval_loop_block calling ⟨0⟩ none (.read "go" ⟨1⟩) hidingBody m hreach hopen⟩

end Setting

end CallFolding
