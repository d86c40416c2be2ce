import CallFolding.Proofs.Layout
import CallFolding.Proofs.Nesting

/-!
What holds of a scope after any history of requests, refused ones included.

The first half is about the arrays. They are in order (`Ordered`), and names are distinct within
each frame (`Distinct`): a frame only loses bindings when it is closed, a write keeps the name, and
a new binding comes in at the innermost frame after that has been searched. From the order it
follows that every search and every cut happens at a position that exists (`layout_after`).

The second half is about one activation. As long as it is open, nothing that was there before it
can be reached, so closing it gives back what was there (`popActivation_after`). That is said of
the arrays and proved of nestings, where what is older is literally the same tail of a list.
-/

set_option autoImplicit false

namespace CallFolding.Scope

variable {α : Type}

/-! ## Histories -/

/-- An attempt is an operation that succeeds, or it leaves the scope alone. -/
theorem step_or_eq_of_attempt {ε : Type} {refuse : ε → Reply α} {s : Scope α}
    {result : EStateM.Result ε (Scope α) Unit} {changed : Except ε (Scope α)}
    (hresult : result = Edit.ending s changed) (h : ∀ t, changed = .ok t → s.Step t) :
    s.Step (Keeper.attempt refuse result).2 ∨ (Keeper.attempt refuse result).2 = s := by
  subst hresult
  cases changed with
  | ok t => exact .inl (h t rfl)
  | error e => exact .inr rfl

/-- A request is an operation that succeeds, or it leaves the scope alone. -/
theorem step_or_eq_of_perform (s : Scope α) (request : Request α) :
    s.Step (keeper.perform s request).2 ∨ (keeper.perform s request).2 = s := by
  cases request with
  | pushActivation => exact .inl (.pushActivation s)
  | popActivation => exact step_or_eq_of_attempt (Edit.popActivation_eq s) fun _ => .popActivation
  | pushFrame => exact .inl (.pushFrame s)
  | popFrame => exact step_or_eq_of_attempt (Edit.popFrame_eq s) fun _ => .popFrame
  | define name value =>
    exact step_or_eq_of_attempt (Edit.define_eq name value s) fun _ => .define
  | assign name value =>
    exact step_or_eq_of_attempt (Edit.assign_eq name value s) fun _ => .assign
  | lookup name => exact .inr rfl

/-- Requests lead from reachable scopes to reachable ones. -/
theorem Reachable.after {s : Scope α} (h : s.Reachable) (requests : List (Request α)) :
    (keeper.after s requests).Reachable := by
  induction requests generalizing s with
  | nil => exact h
  | cons request requests ih =>
    have hnext : (keeper.perform s request).2.Reachable := by
      rcases s.step_or_eq_of_perform request with hstep | heq
      · exact h.tail hstep
      · rw [heq]
        exact h
    exact ih hnext

/-! ## Distinct names -/

/-- No two bindings of one frame have the same name. -/
def Distinct (s : Scope α) : Prop :=
  ∀ k i j, s.Holds k i → s.Holds k j →
    s.bindings[i]?.map Prod.fst = s.bindings[j]?.map Prod.fst → i = j

/-- A search that finds nothing has passed every binding in its range. -/
theorem ne_of_newest_eq_none {bindings : Array (String × α)} {name : String} {floor : Nat} :
    ∀ {n i : Nat}, newest bindings name floor n = none → floor ≤ i → i < n →
      bindings[i]?.map Prod.fst ≠ some name
  | 0, _, _, _, hi => absurd hi (Nat.not_lt_zero _)
  | n + 1, i, h, hfloor, hi => by
    rw [newest, if_neg (by omega)] at h
    split at h
    · cases h
    · rename_i hmiss
      rcases Nat.lt_succ_iff_lt_or_eq.mp hi with hlt | rfl
      · exact ne_of_newest_eq_none h hfloor hlt
      · intro hname
        obtain ⟨binding, hget, rfl⟩ := Option.map_eq_some_iff.mp hname
        exact hmiss (by simp [hget])

/-- What introducing a name does. -/
theorem exists_of_define {s t : Scope α} {name : String} {value : α}
    (h : s.define name value = .ok t) :
    ∃ start, s.frames.back? = some start ∧
      newest s.bindings name start s.bindings.size = none ∧
        t = { s with bindings := s.bindings.push (name, value) } := by
  simp only [define] at h
  split at h
  · cases h
  · rename_i start hback
    split at h
    · cases h
    · rename_i hfresh
      cases h
      exact ⟨start, hback, by simpa using hfresh, rfl⟩

theorem size_of_assign {s t : Scope α} {name : String} {value : α}
    (h : s.assign name value = .ok t) : t.bindings.size = s.bindings.size := by
  simp only [assign] at h
  split at h
  · cases h
  · split at h
    · cases h
    · cases h
      exact Array.size_setIfInBounds

/-- Cutting everything off from one frame on leaves the bindings of the others in their frames. -/
theorem Holds.of_cut {s t : Scope α} {last start k i : Nat} (hstart : s.frames[last]? = some start)
    (hframes : t.frames = s.frames.shrink last) (hbindings : t.bindings = s.bindings.shrink start)
    (h : t.Holds k i) : s.Holds k i := by
  have hget : ∀ j, j < last → t.frames[j]? = s.frames[j]? := by
    intro j hj
    rw [hframes, ← Array.getElem?_toList, ← Array.getElem?_toList, Array.toList_shrink,
      List.getElem?_take_of_lt hj]
  have hsize : i < start ∧ i < s.bindings.size := by
    have hlt := h.lt_size
    rw [hbindings, Array.size_shrink] at hlt
    omega
  obtain ⟨first, hfirst, hle⟩ := h.start
  -- The binding is in a frame that is left, so the frame is before the cut.
  have hk : k < last := by
    obtain ⟨hlt, -⟩ := Array.getElem?_eq_some_iff.mp hfirst
    rw [hframes, Array.size_shrink] at hlt
    omega
  refine ⟨⟨first, by rw [← hget k hk, hfirst], hle⟩, ?_, hsize.2⟩
  intro next hnext
  have hle : k + 1 ≤ last := hk
  rcases Nat.lt_or_eq_of_le hle with hlt | heq
  · exact h.next next (by rw [hget _ hlt, hnext])
  · -- The next frame is the first one that was cut off.
    rw [heq, hstart] at hnext
    cases hnext
    exact hsize.1

/-- A frame that reaches beyond the last binding is the innermost one. -/
theorem Ordered.eq_innermost {s : Scope α} (h : s.Ordered) {k : Nat}
    (hstart : ∃ start, s.frames[k]? = some start ∧ start ≤ s.bindings.size)
    (hnext : ∀ next, s.frames[k + 1]? = some next → s.bindings.size < next) :
    s.frames[k]? = s.frames.back? := by
  obtain ⟨start, hget, -⟩ := hstart
  obtain ⟨hk, -⟩ := Array.getElem?_eq_some_iff.mp hget
  have hlast : ¬ k + 1 < s.frames.size := by
    intro hlt
    have hle := h.frames_le _ (Array.getElem_mem_toList hlt)
    have hgt := hnext _ (Array.getElem?_eq_getElem hlt)
    omega
  have heq : k = s.frames.size - 1 := by omega
  rw [Array.back?_eq_getElem?, heq]

/-- There is a start for searches exactly if an activation is open. -/
theorem Ordered.activationStart?_eq_none_iff {s : Scope α} (h : s.Ordered) :
    s.activationStart? = none ↔ s.depth = 0 := by
  refine ⟨fun hnone => ?_, activationStart?_of_depth_zero⟩
  by_cases hdepth : s.depth = 0
  · exact hdepth
  · obtain ⟨start, hstart⟩ := (h.rooted.anchored hdepth).activationStart?
    rw [hnone] at hstart
    cases hstart

/-- Closing an activation cuts at the start of a frame. -/
theorem Ordered.exists_start {s : Scope α} (h : s.Ordered) {first : Nat}
    (hback : s.activations.back? = some first) : ∃ start, s.frames[first]? = some start ∧
      s.popActivation =
        .ok ⟨s.bindings.shrink start, s.frames.shrink first, s.activations.pop⟩ := by
  have hfirst : first < s.frames.size := h.rooted first hback
  have hstart : s.frames[first]? = some s.frames[first] := Array.getElem?_eq_getElem hfirst
  refine ⟨_, hstart, ?_⟩
  simp only [Scope.popActivation, hback, hstart, Option.getD_some]

namespace Distinct

variable {s t : Scope α}

/-- Where nothing is bound nothing is bound twice. -/
theorem of_empty : (empty : Scope α).Distinct := by
  intro k i j hi
  exact absurd hi.lt_size (Nat.not_lt_zero _)

/-- Names stay distinct where no binding changes its name or comes into a frame. -/
theorem of_holds (h : s.Distinct) (hholds : ∀ k i, t.Holds k i → s.Holds k i)
    (hnames : ∀ i, i < t.bindings.size →
      t.bindings[i]?.map Prod.fst = s.bindings[i]?.map Prod.fst) : t.Distinct := by
  intro k i j hi hj hname
  rw [hnames i hi.lt_size, hnames j hj.lt_size] at hname
  exact h k i j (hholds k i hi) (hholds k j hj) hname

/-- A frame is opened behind all bindings. -/
theorem pushFrame (h : s.Distinct) : s.pushFrame.Distinct := by
  refine h.of_holds ?_ fun _ _ => rfl
  intro k i hi
  have hlt : i < s.bindings.size := hi.lt_size
  obtain ⟨first, hfirst, hle⟩ := hi.start
  simp only [Scope.pushFrame, Array.getElem?_push] at hfirst
  split at hfirst
  · -- The new frame starts where the bindings end, so it has none.
    cases hfirst
    omega
  · refine ⟨⟨first, hfirst, hle⟩, ?_, hlt⟩
    intro next hnext
    refine hi.next next ?_
    obtain ⟨hk, -⟩ := Array.getElem?_eq_some_iff.mp hnext
    simp only [Scope.pushFrame]
    rw [Array.getElem?_push_lt hk, ← hnext, Array.getElem?_eq_getElem hk]

/-- Which frame a binding is in has nothing to do with activations. -/
theorem pushActivation (h : s.Distinct) : s.pushActivation.Distinct :=
  h.pushFrame.of_holds (fun _ _ hi => ⟨hi.start, hi.next, hi.lt_size⟩) fun _ _ => rfl

/-- Cutting off leaves the names of the other frames distinct. -/
theorem of_cut {last start : Nat} (h : s.Distinct) (hstart : s.frames[last]? = some start)
    (hframes : t.frames = s.frames.shrink last)
    (hbindings : t.bindings = s.bindings.shrink start) : t.Distinct := by
  refine h.of_holds (fun _ _ => Holds.of_cut hstart hframes hbindings) ?_
  intro i hi
  rw [hbindings, Array.size_shrink] at hi
  rw [hbindings, ← Array.getElem?_toList, ← Array.getElem?_toList, Array.toList_shrink,
    List.getElem?_take_of_lt (by omega)]

theorem popFrame (h : s.Distinct) (hpop : s.popFrame = .ok t) : t.Distinct := by
  obtain ⟨older, frames, first, start, -, hframes, -, rfl⟩ := exists_of_popFrame hpop
  have hstart : s.frames[frames.size]? = some start := by
    rw [hframes, Array.getElem?_push_size]
  exact h.of_cut hstart (by simp [hframes]) rfl

/-- All frames of the activation are cut off. -/
theorem popActivation (h : s.Distinct) (hordered : s.Ordered) (hpop : s.popActivation = .ok t) :
    t.Distinct := by
  obtain ⟨older, first, hactivations, -⟩ := exists_of_popActivation hpop
  obtain ⟨start, hstart, hclosed⟩ := hordered.exists_start (hactivations ▸ Array.back?_push)
  rw [hpop] at hclosed
  cases hclosed
  exact h.of_cut hstart rfl rfl

/-- The frame that a new binding is in has been searched for its name. -/
theorem define {name : String} {value : α} (h : s.Distinct) (hordered : s.Ordered)
    (hdefine : s.define name value = .ok t) : t.Distinct := by
  obtain ⟨start, hback, hnone, rfl⟩ := exists_of_define hdefine
  have hold : ∀ i, i < s.bindings.size →
      (s.bindings.push (name, value))[i]? = s.bindings[i]? := by
    intro i hi
    rw [Array.getElem?_push, if_neg (Nat.ne_of_lt hi)]
  -- An older binding of the frame that the new one is in has another name.
  have hother : ∀ k j,
      Holds { s with bindings := s.bindings.push (name, value) } k s.bindings.size →
      Holds { s with bindings := s.bindings.push (name, value) } k j → j < s.bindings.size →
        s.bindings[j]?.map Prod.fst ≠ some name := by
    intro k j hnew hj hlt
    have hk := hordered.eq_innermost hnew.start hnew.next
    obtain ⟨first, hfirst, hle⟩ := hj.start
    rw [hk, hback] at hfirst
    cases hfirst
    exact ne_of_newest_eq_none hnone hle hlt
  have hnew : (s.bindings.push (name, value))[s.bindings.size]? = some (name, value) :=
    Array.getElem?_push_size
  have hsize : ∀ k i, Holds { s with bindings := s.bindings.push (name, value) } k i →
      i < s.bindings.size ∨ i = s.bindings.size := by
    intro k i hi
    have hlt := hi.lt_size
    rw [Array.size_push] at hlt
    omega
  -- Of two bindings in one frame at most one is the new one.
  intro k i j hi hj hname
  rcases hsize k i hi with hilt | rfl
  · rcases hsize k j hj with hjlt | rfl
    · rw [hold i hilt, hold j hjlt] at hname
      exact h k i j ⟨hi.start, hi.next, hilt⟩ ⟨hj.start, hj.next, hjlt⟩ hname
    · rw [hold i hilt, hnew] at hname
      exact absurd hname (hother k i hj hi hilt)
  · rcases hsize k j hj with hjlt | rfl
    · rw [hold j hjlt, hnew] at hname
      exact absurd hname.symm (hother k j hi hj hjlt)
    · rfl

theorem assign {name : String} {value : α} (h : s.Distinct)
    (hassign : s.assign name value = .ok t) : t.Distinct := by
  have hcontinues := Continues.of_assign hassign
  have hsize := size_of_assign hassign
  refine h.of_holds ?_ fun i hi => hcontinues.names i (hsize ▸ hi)
  intro k i hi
  have hstart := hi.start
  have hnext := hi.next
  rw [hcontinues.frames] at hstart hnext
  exact ⟨hstart, hnext, hsize ▸ hi.lt_size⟩

/-- Every operation keeps names distinct. -/
theorem step (h : s.Distinct) (hordered : s.Ordered) (hstep : s.Step t) : t.Distinct := by
  cases hstep with
  | pushFrame => exact h.pushFrame
  | pushActivation => exact h.pushActivation
  | popFrame hpop => exact h.popFrame hpop
  | popActivation hpop => exact h.popActivation hordered hpop
  | define hdefine => exact h.define hordered hdefine
  | assign hassign => exact h.assign hassign

end Distinct

/-- **In reachable scopes the names of a frame are distinct.** -/
theorem Reachable.distinct {s : Scope α} (h : s.Reachable) : s.Distinct := by
  induction h with
  | refl => exact .of_empty
  | tail hreach hstep ih => exact ih.step (Reachable.ordered hreach) hstep

/-! ## The arrays after any history -/

/-- **Scopes are well laid out after any history.** Frames and activations are in order, and names
are distinct within each frame. So a search from the innermost frame or from the current activation
starts within the bindings, there is a start for it unless no activation is open, and an activation
is closed by cutting at the start of its first frame, which is always there. -/
theorem layout_after (requests : List (Request α)) :
    let s := keeper.after (empty : Scope α) requests
    s.Ordered ∧ s.Distinct ∧
    (∀ start, s.frames.back? = some start ∨ s.activationStart? = some start →
      start ≤ s.bindings.size) ∧
    (s.activationStart? = none ↔ s.depth = 0) ∧
    ∀ first, s.activations.back? = some first → ∃ start, s.frames[first]? = some start ∧
      s.popActivation =
        .ok ⟨s.bindings.shrink start, s.frames.shrink first, s.activations.pop⟩ := by
  intro s
  have hreach : s.Reachable := Reachable.after .refl requests
  have hordered : s.Ordered := hreach.ordered
  refine ⟨hordered, hreach.distinct, ?_, hordered.activationStart?_eq_none_iff,
    fun first => hordered.exists_start⟩
  rintro start (hback | hstart)
  · exact hordered.frames_le start (Array.mem_toList_iff.mpr (Array.mem_of_back? hback))
  · exact hordered.activationStart?_le hstart

/-! ## While an activation is open -/

namespace Keeper

variable {σ τ : Type} (k : Keeper α σ)

/-- Whether a request closes the activation that is the last of `depth` ones. It is the current one
just as long as there are no more. -/
def closes (depth : Nat) (s : σ) : Request α → Bool
  | .popActivation => k.depth s == depth
  | _ => false

/-- Whether that activation stays open, whatever is requested. -/
def spares (depth : Nat) : σ → List (Request α) → Bool
  | _, [] => true
  | s, request :: requests =>
    !k.closes depth s request && spares depth (k.perform s request).2 requests

/-- Whether an activation stays open does not depend on the representation. -/
theorem Represents.spares {k : Keeper α σ} {k' : Keeper α τ} {rep : τ → σ}
    (h : k.Represents k' rep) (depth : Nat) (t : τ) (requests : List (Request α)) :
    k.spares depth (rep t) requests = k'.spares depth t requests := by
  induction requests generalizing t with
  | nil => rfl
  | cons request requests ih =>
    have hcloses : k.closes depth (rep t) request = k'.closes depth t request := by
      cases request <;> simp only [closes, h.depth]
    simp only [Keeper.spares, hcloses, h.perform, Prod.map_snd, ih]

end Keeper

namespace Nesting

/-- There is `base`, and on top of it one activation or more. -/
def Covers (base n : Nesting α) : Prop :=
  ∃ current newer, n = ⟨current :: (newer ++ base.activations), base.loose⟩

namespace Covers

variable {base n : Nesting α}

/-- An activation that was just opened is on top of what was there. -/
theorem of_pushActivation (base : Nesting α) : base.Covers base.pushActivation :=
  ⟨.only .empty, [], rfl⟩

/-- What is attempted on the current activation changes that one or nothing. -/
theorem of_attempt {ε : Type} {refuse : ε → Reply α} (result : Except ε (Activation α))
    (current : Activation α) (newer : List (Activation α)) :
    base.Covers (Keeper.attempt refuse (Edit.ending
      ⟨current :: (newer ++ base.activations), base.loose⟩
      (result.map fun a => ⟨a :: (newer ++ base.activations), base.loose⟩))).2 := by
  cases result with
  | ok a => exact ⟨a, newer, rfl⟩
  | error e => exact ⟨current, newer, rfl⟩

/-- One request reaches the current activation at most. -/
theorem perform (h : base.Covers n) {request : Request α}
    (hspared : keeper.closes (base.activations.length + 1) n request = false) :
    base.Covers (keeper.perform n request).2 := by
  obtain ⟨current, newer, rfl⟩ := h
  cases request with
  | pushActivation => exact ⟨.only .empty, current :: newer, rfl⟩
  | popActivation =>
    cases newer with
    | nil => simp [Keeper.closes, keeper] at hspared
    | cons next newer => exact ⟨next, newer, rfl⟩
  | pushFrame => exact ⟨.inside .empty current, newer, rfl⟩
  | popFrame => exact of_attempt current.popFrame current newer
  | define name value => exact of_attempt (current.define name value) current newer
  | assign name value => exact of_attempt (current.assign name value) current newer
  | lookup name => exact ⟨current, newer, rfl⟩

/-- As long as the activation is spared, what was there stays below. -/
theorem after (h : base.Covers n) {requests : List (Request α)}
    (hspared : keeper.spares (base.activations.length + 1) n requests) :
    base.Covers (keeper.after n requests) := by
  induction requests generalizing n with
  | nil => exact h
  | cons request requests ih =>
    rw [Keeper.spares, Bool.and_eq_true, Bool.not_eq_true'] at hspared
    exact ih (h.perform hspared.1) hspared.2

/-- With nothing newer on top, the activation above `base` is the current one. -/
theorem popActivation (h : base.Covers n)
    (hlast : n.activations.length = base.activations.length + 1) :
    n.popActivation = .ok base := by
  obtain ⟨current, newer, rfl⟩ := h
  have hnil : newer = [] := by
    rw [List.length_cons, List.length_append] at hlast
    exact List.eq_nil_of_length_eq_zero (by omega)
  rw [hnil]
  rfl

end Covers

end Nesting

/-- **Closing an activation restores what was there before it.** The requests in between may do
anything but close that activation: they may bind and write variables of the same names, open and
close further activations, and be refused. Once no further one is open, closing gives back every
binding with its value, every frame and every activation. -/
theorem popActivation_after (before requests : List (Request α)) :
    let s := keeper.after (empty : Scope α) before
    keeper.spares (s.depth + 1) s.pushActivation requests →
    (keeper.after s.pushActivation requests).depth = s.depth + 1 →
    (keeper.after s.pushActivation requests).popActivation = .ok s := by
  intro s hspared hlast
  -- The scope is the flat form of a nesting, and so is each that the requests lead to.
  have hflat : s = (Nesting.keeper.after {} before).flat := Nesting.represents_flat.after {} before
  generalize Nesting.keeper.after {} before = base at hflat
  rw [hflat, Nesting.pushActivation_flat, Nesting.depth_flat] at hspared hlast
  rw [hflat, Nesting.pushActivation_flat]
  rw [Nesting.represents_flat.spares] at hspared
  rw [Nesting.represents_flat.after] at hlast ⊢
  rw [Nesting.depth_flat] at hlast
  have hcovers := (Nesting.Covers.of_pushActivation base).after hspared
  rw [Nesting.popActivation_flat, hcovers.popActivation hlast]
  rfl

/-- In between, a variable of the same name is bound twice and written, an activation is opened and
closed, and four requests are refused. -/
theorem popActivation_after_rebinding :
    let before : List (Request Nat) := [.pushFrame, .pushActivation, .define "n" 6]
    let requests : List (Request Nat) :=
      [.assign "n" 1, .define "n" 5, .popFrame, .pushFrame, .define "n" 2, .assign "n" 3,
        .pushActivation, .define "n" 9, .popFrame, .popActivation, .define "n" 4]
    let s := keeper.after (empty : Scope Nat) before
    keeper.spares (s.depth + 1) s.pushActivation requests ∧
    (keeper.after s.pushActivation requests).depth = s.depth + 1 ∧
    s.bindings = #[("n", 6)] ∧
    (keeper.after s.pushActivation requests).bindings = #[("n", 6), ("n", 5), ("n", 3)] ∧
    (keeper.after s.pushActivation requests).popActivation = .ok s := by
  intro before requests s
  have hspared : keeper.spares (s.depth + 1) s.pushActivation requests := by decide +kernel
  have hlast : (keeper.after s.pushActivation requests).depth = s.depth + 1 := by decide +kernel
  exact ⟨hspared, hlast, by decide +kernel, by decide +kernel,
    popActivation_after before requests hspared hlast⟩

end CallFolding.Scope
