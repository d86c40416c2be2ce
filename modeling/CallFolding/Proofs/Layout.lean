import CallFolding.Proofs.Scope
import Mathlib.Logic.Relation

/-!
How the scopes are laid out that operations lead to.

`Reachable` scopes are those that opening, closing, binding and writing can make of the empty one.
In all of them frames start in order, and not beyond the last binding, and so do activations among
the frames (`Reachable.ordered`). Closing cuts off the upper end of all three arrays, so there is
one argument for both ways of closing (`Ordered.of_sublist`).

Which frame a binding is in is not written down anywhere: it is the last one that starts before the
binding (`Holds`).
-/

set_option autoImplicit false

namespace CallFolding.Scope

variable {α : Type}

/-! ## Operations -/

/-- One operation that succeeds. One that fails gives no new scope. -/
inductive Step : Scope α → Scope α → Prop
  | pushFrame (s : Scope α) : Step s s.pushFrame
  | pushActivation (s : Scope α) : Step s s.pushActivation
  | popFrame {s t : Scope α} : s.popFrame = .ok t → Step s t
  | popActivation {s t : Scope α} : s.popActivation = .ok t → Step s t
  | define {s t : Scope α} {name : String} {value : α} : s.define name value = .ok t → Step s t
  | assign {s t : Scope α} {name : String} {value : α} : s.assign name value = .ok t → Step s t

/-- Operations lead from the empty scope to this one. -/
def Reachable (s : Scope α) : Prop :=
  Relation.ReflTransGen Step empty s

/-- What closing a frame does. The current activation keeps at least its first frame. -/
theorem exists_of_popFrame {s t : Scope α} (h : s.popFrame = .ok t) :
    ∃ (older frames : Array Nat) (first start : Nat), s.activations = older.push first ∧
      s.frames = frames.push start ∧ first < frames.size ∧
        t = ⟨s.bindings.shrink start, frames, s.activations⟩ := by
  simp only [popFrame] at h
  split at h
  · cases h
  · rename_i first hback
    split at h
    · cases h
    · rename_i hopen
      cases h
      obtain ⟨older, hactivations⟩ := Array.back?_eq_some_iff.mp hback
      -- The current activation has a frame besides its first, so there is a last frame.
      obtain ⟨start, hstart⟩ : ∃ start, s.frames.back? = some start := by
        cases hlast : s.frames.back? with
        | none =>
          rw [Array.back?_eq_none_iff] at hlast
          simp [hlast] at hopen
        | some start => exact ⟨start, rfl⟩
      obtain ⟨frames, hframes⟩ := Array.back?_eq_some_iff.mp hstart
      rw [hframes, Array.size_push] at hopen
      refine ⟨older, frames, first, start, hactivations, hframes, by omega, ?_⟩
      rw [hstart, Option.getD_some, hframes, Array.pop_push]

/-- What closing an activation does. -/
theorem exists_of_popActivation {s t : Scope α} (h : s.popActivation = .ok t) :
    ∃ (older : Array Nat) (first : Nat), s.activations = older.push first ∧
      t = ⟨s.bindings.shrink (s.frames[first]?.getD s.bindings.size), s.frames.shrink first,
        older⟩ := by
  simp only [popActivation] at h
  split at h
  · cases h
  · rename_i first hback
    cases h
    obtain ⟨older, hactivations⟩ := Array.back?_eq_some_iff.mp hback
    refine ⟨older, first, hactivations, ?_⟩
    rw [hactivations, Array.pop_push]

/-! ## Order -/

/-- Frames start one after the other within the bindings, and activations within the frames. An
activation has a frame of its own, so no two of them start with the same one. -/
structure Ordered (s : Scope α) : Prop where
  frames : s.frames.toList.Pairwise (· ≤ ·)
  frames_le : ∀ start ∈ s.frames.toList, start ≤ s.bindings.size
  activations : s.activations.toList.Pairwise (· < ·)
  activations_lt : ∀ first ∈ s.activations.toList, first < s.frames.size

/-- Where nothing is open everything is in order. -/
theorem ordered_empty : (empty : Scope α).Ordered := by
  constructor <;> simp [empty]

namespace Ordered

variable {s t : Scope α}

/-- A new frame starts behind all bindings, and so behind all frames. -/
theorem pushFrame (h : s.Ordered) : s.pushFrame.Ordered := by
  constructor
  · simp only [Scope.pushFrame, Array.toList_push]
    rw [List.pairwise_append]
    refine ⟨h.frames, List.pairwise_singleton _ _, fun start hstart other hother => ?_⟩
    rw [List.mem_singleton.mp hother]
    exact h.frames_le start hstart
  · intro start hstart
    simp only [Scope.pushFrame, Array.toList_push, List.mem_append, List.mem_singleton] at hstart ⊢
    rcases hstart with hstart | rfl
    · exact h.frames_le start hstart
    · exact Nat.le_refl _
  · exact h.activations
  · intro first hfirst
    have hlt := h.activations_lt first hfirst
    simp only [Scope.pushFrame, Array.size_push]
    omega

/-- A new activation starts with a new frame. -/
theorem pushActivation (h : s.Ordered) : s.pushActivation.Ordered := by
  have hframed := h.pushFrame
  constructor
  · exact hframed.frames
  · exact hframed.frames_le
  · simp only [Scope.pushActivation, Scope.pushFrame, Array.toList_push]
    rw [List.pairwise_append]
    refine ⟨h.activations, List.pairwise_singleton _ _, fun first hfirst other hother => ?_⟩
    rw [List.mem_singleton.mp hother]
    exact h.activations_lt first hfirst
  · intro first hfirst
    simp only [Scope.pushActivation, Scope.pushFrame, Array.toList_push, List.mem_append,
      List.mem_singleton, Array.size_push] at hfirst ⊢
    rcases hfirst with hfirst | rfl
    · have hlt := h.activations_lt first hfirst
      omega
    · omega

/-- Whatever is older than the last of an ordered array is below it. -/
private theorem below_last {r : Nat → Nat → Prop} {xs ys : Array Nat} {last : Nat}
    (h : xs.toList.Pairwise r) (hxs : xs = ys.push last) : ∀ x ∈ ys.toList, r x last := by
  intro x hx
  rw [hxs, Array.toList_push, List.pairwise_append] at h
  exact h.2.2 x hx last (List.mem_singleton_self last)

/-- Closing cuts off the upper end of the frames and the activations, which leaves the rest in
order. What is left to show is that it cuts off enough of them. -/
theorem of_sublist (h : s.Ordered) (hframes : t.frames.toList.Sublist s.frames.toList)
    (hactivations : t.activations.toList.Sublist s.activations.toList)
    (hle : ∀ start ∈ t.frames.toList, start ≤ t.bindings.size)
    (hlt : ∀ first ∈ t.activations.toList, first < t.frames.size) : t.Ordered :=
  ⟨h.frames.sublist hframes, hle, h.activations.sublist hactivations, hlt⟩

/-- The frames that stay open start before the one that is closed. -/
theorem popFrame (h : s.Ordered) (hpop : s.popFrame = .ok t) : t.Ordered := by
  obtain ⟨older, frames, first, start, hactivations, hframes, hfirst, rfl⟩ :=
    exists_of_popFrame hpop
  refine h.of_sublist ?_ (List.Sublist.refl _) ?_ ?_
  · rw [hframes, Array.toList_push]
    exact List.sublist_append_left _ _
  · intro other hother
    have hbelow := below_last h.frames hframes other hother
    have hsize : other ≤ s.bindings.size := by
      refine h.frames_le other ?_
      rw [hframes, Array.toList_push]
      exact List.mem_append_left _ hother
    simp only [Array.size_shrink]
    omega
  · intro other hother
    -- No activation starts after the current one.
    rw [hactivations, Array.toList_push, List.mem_append, List.mem_singleton] at hother
    rcases hother with hother | rfl
    · exact Nat.lt_trans (below_last h.activations hactivations other hother) hfirst
    · exact hfirst

theorem popActivation (h : s.Ordered) (hpop : s.popActivation = .ok t) : t.Ordered := by
  obtain ⟨older, first, hactivations, rfl⟩ := exists_of_popActivation hpop
  have hmem : first ∈ s.activations.toList := by
    rw [hactivations, Array.toList_push]
    exact List.mem_append_right _ (List.mem_singleton_self first)
  have hfirst : first < s.frames.toList.length := h.activations_lt first hmem
  -- The first frame of the activation is there, so the default start is never taken.
  have hstart : s.frames[first]? = some s.frames.toList[first] := by
    rw [← Array.getElem?_toList, List.getElem?_eq_getElem hfirst]
  refine h.of_sublist ?_ ?_ ?_ ?_
  · simp only [Array.toList_shrink]
    exact List.take_sublist _ _
  · rw [hactivations, Array.toList_push]
    exact List.sublist_append_left _ _
  · intro start hmem
    simp only [Array.toList_shrink] at hmem
    have hsize := h.frames_le start (List.mem_of_mem_take hmem)
    -- The frames that stay open started before the first frame of the activation.
    obtain ⟨i, hi, rfl⟩ := List.mem_take_iff_getElem.mp hmem
    have hbelow := List.pairwise_iff_getElem.mp h.frames i first (by omega) hfirst (by omega)
    simp only [hstart, Option.getD_some, Array.size_shrink]
    omega
  · intro other hother
    have hbelow := below_last h.activations hactivations other hother
    have hlength : s.frames.toList.length = s.frames.size := Array.length_toList
    simp only [Array.size_shrink]
    omega

/-- A continuation has the same frames and activations, and no fewer bindings. -/
theorem of_continues (h : s.Ordered) (hcontinues : s.Continues t) : t.Ordered := by
  constructor
  · rw [hcontinues.frames]
    exact h.frames
  · intro start hstart
    rw [hcontinues.frames] at hstart
    exact Nat.le_trans (h.frames_le start hstart) hcontinues.size_le
  · rw [hcontinues.activations]
    exact h.activations
  · rw [hcontinues.activations, hcontinues.frames]
    exact h.activations_lt

theorem step (h : s.Ordered) (hstep : s.Step t) : t.Ordered := by
  cases hstep with
  | pushFrame => exact h.pushFrame
  | pushActivation => exact h.pushActivation
  | popFrame hpop => exact h.popFrame hpop
  | popActivation hpop => exact h.popActivation hpop
  | define hdefine => exact h.of_continues (.of_define hdefine)
  | assign hassign => exact h.of_continues (.of_assign hassign)

/-- In order, the current activation has its first frame. -/
theorem rooted (h : s.Ordered) : s.Rooted := by
  intro first hback
  obtain ⟨older, hactivations⟩ := Array.back?_eq_some_iff.mp hback
  refine h.activations_lt first ?_
  rw [hactivations, Array.toList_push]
  exact List.mem_append_right _ (List.mem_singleton_self first)

theorem activationStart?_le (h : s.Ordered) {start : Nat}
    (hstart : s.activationStart? = some start) : start ≤ s.bindings.size := by
  obtain ⟨first, -, hframe⟩ := Option.bind_eq_some_iff.mp hstart
  obtain ⟨hlt, rfl⟩ := Array.getElem?_eq_some_iff.mp hframe
  exact h.frames_le _ (Array.getElem_mem_toList hlt)

end Ordered

/-- **Reachable scopes are laid out in order.** -/
theorem Reachable.ordered {s : Scope α} (h : s.Reachable) : s.Ordered := by
  induction h with
  | refl => exact ordered_empty
  | tail _ hstep ih => exact ih.step hstep

/-! ## Frames and their bindings -/

/-- The binding at position `i` is in frame number `k`: the frame starts there or before, and the
next one after it. -/
structure Holds (s : Scope α) (k i : Nat) : Prop where
  start : ∃ start, s.frames[k]? = some start ∧ start ≤ i
  next : ∀ next, s.frames[k + 1]? = some next → i < next
  lt_size : i < s.bindings.size

/-- What is bound after the innermost frame was opened is in that frame. -/
theorem Ordered.holds_innermost {s s' : Scope α} (h : s.Ordered) (hopen : s.frames ≠ #[])
    (hcontinues : s.Continues s') {i : Nat} (hnew : s.bindings.size ≤ i)
    (hi : i < s'.bindings.size) : s'.Holds (s'.frames.size - 1) i := by
  have hsize : 0 < s.frames.size := Array.size_pos_iff.mpr hopen
  have hlast : s.frames.size - 1 < s.frames.size := by omega
  rw [hcontinues.frames]
  constructor
  · refine ⟨s.frames[s.frames.size - 1], ?_, ?_⟩
    · rw [hcontinues.frames, Array.getElem?_eq_getElem hlast]
    · have hle := h.frames_le _ (Array.getElem_mem_toList hlast)
      omega
  · intro next hnext
    rw [hcontinues.frames, Array.getElem?_eq_none (by omega)] at hnext
    cases hnext
  · exact hi

end CallFolding.Scope
