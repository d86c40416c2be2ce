import CallFolding.Proofs.Scope

/-!
What a scope means: activations that hold frames that hold bindings.

A scope keeps everything in three arrays that point into one another. `Nesting` says the same with
one thing inside the other, so that it cannot be wrong: an activation has a frame by construction,
and a frame carries the proof that its names are distinct. The operations on it are those that the
words suggest.

`Nesting.flat` lays a nesting out in arrays, one frame `above` the other, and every operation on the
arrays does to the layout what its namesake does to the nesting (`represents_flat`). Nothing has to
be known of the arrays for that. So a sequence of requests, which may be refused, is answered alike
by both (`replies_eq_nesting`). A request that is refused leaves some state too, and it is part of
the comparison that this is the state there was.
-/

set_option autoImplicit false

namespace CallFolding.Scope

/-! ## Requests and replies -/

/-- The operations by which variables are kept, over states of a type `σ`. What may fail leaves a
state also if it does. -/
structure Keeper (α σ : Type) where
  depth : σ → Nat
  pushActivation : σ → σ
  popActivation : EStateM PopError σ Unit
  pushFrame : σ → σ
  popFrame : EStateM PopError σ Unit
  define : String → α → EStateM BindError σ Unit
  assign : String → α → EStateM BindError σ Unit
  lookup : σ → String → Option α

/-- What can be asked of a keeper of variables. -/
inductive Request (α : Type) where
  | pushActivation
  | popActivation
  | pushFrame
  | popFrame
  | define (name : String) (value : α)
  | assign (name : String) (value : α)
  | lookup (name : String)

/-- What a request is answered with. A look-up is answered even if nothing was found. -/
inductive Reply (α : Type) where
  | done
  | found (value : Option α)
  | notClosed (error : PopError)
  | notBound (error : BindError)
deriving DecidableEq

/-- The request could not be granted. -/
def Reply.isRefusal {α : Type} : Reply α → Bool
  | done | found _ => false
  | notClosed _ | notBound _ => true

namespace Keeper

variable {α σ τ : Type} (k : Keeper α σ)

/-- The reply to an operation that may fail, and the state that it leaves. -/
def attempt {ε : Type} (refuse : ε → Reply α) : EStateM.Result ε σ Unit → Reply α × σ
  | .ok () t => (.done, t)
  | .error e t => (refuse e, t)

/-- The reply to a request, and the state after it. -/
def perform (s : σ) : Request α → Reply α × σ
  | .pushActivation => (.done, k.pushActivation s)
  | .popActivation => attempt .notClosed (k.popActivation s)
  | .pushFrame => (.done, k.pushFrame s)
  | .popFrame => attempt .notClosed (k.popFrame s)
  | .define name value => attempt .notBound (k.define name value s)
  | .assign name value => attempt .notBound (k.assign name value s)
  | .lookup name => (.found (k.lookup s name), s)

/-- The reply to each request, with the depth after it. -/
def replies : σ → List (Request α) → List (Reply α × Nat)
  | _, [] => []
  | s, request :: requests =>
    let (reply, t) := k.perform s request
    (reply, k.depth t) :: replies t requests

/-- The state after all requests. -/
def after (s : σ) (requests : List (Request α)) : σ :=
  requests.foldl (fun s request => (k.perform s request).2) s

/-- What fails changes nothing. -/
structure IsAtomic : Prop where
  popActivation : ∀ s e t, k.popActivation s = .error e t → t = s
  popFrame : ∀ s e t, k.popFrame s = .error e t → t = s
  define : ∀ name value s e t, k.define name value s = .error e t → t = s
  assign : ∀ name value s e t, k.assign name value s = .error e t → t = s

/-- An operation that failed without changing anything is a request without effect. -/
theorem attempt_of_isRefusal {ε : Type} {refuse : ε → Reply α} {s : σ}
    {result : EStateM.Result ε σ Unit} (hatomic : ∀ e t, result = .error e t → t = s)
    (h : (attempt refuse result).1.isRefusal) : (attempt refuse result).2 = s := by
  cases result with
  | ok _ t => cases h
  | error e t => exact hatomic e t rfl

/-- A refused request changes nothing. -/
theorem IsAtomic.perform_of_isRefusal {k : Keeper α σ} (hatomic : k.IsAtomic) {s : σ}
    {request : Request α} (h : (k.perform s request).1.isRefusal) :
    (k.perform s request).2 = s := by
  cases request with
  | pushActivation => cases h
  | popActivation => exact attempt_of_isRefusal (hatomic.popActivation s) h
  | pushFrame => cases h
  | popFrame => exact attempt_of_isRefusal (hatomic.popFrame s) h
  | define name value => exact attempt_of_isRefusal (hatomic.define name value s) h
  | assign name value => exact attempt_of_isRefusal (hatomic.assign name value s) h
  | lookup name => rfl

/-- The same end in the state that is stood for. -/
def carry {ε : Type} (rep : τ → σ) : EStateM.Result ε τ Unit → EStateM.Result ε σ Unit
  | .ok () t => .ok () (rep t)
  | .error e t => .error e (rep t)

/-- An end that leaves the state alone on failure is carried to one that does. -/
theorem carry_ending {ε : Type} (rep : τ → σ) (t : τ) (x : Except ε τ) :
    carry rep (Edit.ending t x) = Edit.ending (rep t) (x.map rep) := by
  cases x <;> rfl

/-- Each state of `k'` stands for one of `k`, and the operations go along with that. -/
structure Represents (k' : Keeper α τ) (rep : τ → σ) : Prop where
  depth : ∀ t, k.depth (rep t) = k'.depth t
  pushActivation : ∀ t, k.pushActivation (rep t) = rep (k'.pushActivation t)
  popActivation : ∀ t, k.popActivation (rep t) = carry rep (k'.popActivation t)
  pushFrame : ∀ t, k.pushFrame (rep t) = rep (k'.pushFrame t)
  popFrame : ∀ t, k.popFrame (rep t) = carry rep (k'.popFrame t)
  define : ∀ name value t, k.define name value (rep t) = carry rep (k'.define name value t)
  assign : ∀ name value t, k.assign name value (rep t) = carry rep (k'.assign name value t)
  lookup : ∀ t name, k.lookup (rep t) name = k'.lookup t name

namespace Represents

variable {k} {k' : Keeper α τ} {rep : τ → σ}

/-- The replies to ends that stand for one another are the same. -/
theorem attempt {ε : Type} (refuse : ε → Reply α) (result : EStateM.Result ε τ Unit) :
    Keeper.attempt refuse (carry rep result) = (Keeper.attempt refuse result).map id rep := by
  cases result <;> rfl

/-- A request is answered alike, and leaves states that stand for one another. -/
theorem perform (h : k.Represents k' rep) (t : τ) (request : Request α) :
    k.perform (rep t) request = (k'.perform t request).map id rep := by
  cases request with
  | pushActivation => simp only [Keeper.perform, h.pushActivation, Prod.map, id]
  | popActivation => simp only [Keeper.perform, h.popActivation, attempt]
  | pushFrame => simp only [Keeper.perform, h.pushFrame, Prod.map, id]
  | popFrame => simp only [Keeper.perform, h.popFrame, attempt]
  | define name value => simp only [Keeper.perform, h.define, attempt]
  | assign name value => simp only [Keeper.perform, h.assign, attempt]
  | lookup name => simp only [Keeper.perform, h.lookup, Prod.map, id]

/-- What is asked of both is answered alike. -/
theorem replies (h : k.Represents k' rep) (t : τ) (requests : List (Request α)) :
    k.replies (rep t) requests = k'.replies t requests := by
  induction requests generalizing t with
  | nil => rfl
  | cons request requests ih =>
    simp only [Keeper.replies, h.perform, Prod.map_fst, Prod.map_snd, id, h.depth, ih]

theorem after (h : k.Represents k' rep) (t : τ) (requests : List (Request α)) :
    k.after (rep t) requests = rep (k'.after t requests) := by
  induction requests generalizing t with
  | nil => rfl
  | cons request requests ih =>
    have hstep : (k.perform (rep t) request).2 = rep (k'.perform t request).2 := by
      rw [h.perform, Prod.map_snd]
    simp only [Keeper.after, List.foldl_cons, hstep]
    exact ih _

end Represents

end Keeper

variable {α : Type}

/-- A scope as a keeper of variables. -/
def keeper : Keeper α (Scope α) where
  depth := depth
  pushActivation := pushActivation
  popActivation := Edit.popActivation
  pushFrame := pushFrame
  popFrame := Edit.popFrame
  define := Edit.define
  assign := Edit.assign
  lookup := lookup

/-- Each of the four operations that may fail leaves the scope as it was if it does. -/
theorem isAtomic_keeper : (keeper : Keeper α (Scope α)).IsAtomic where
  popActivation s _ _ h := Edit.eq_of_ending_eq_error ((Edit.popActivation_eq s).symm.trans h)
  popFrame s _ _ h := Edit.eq_of_ending_eq_error ((Edit.popFrame_eq s).symm.trans h)
  define name value s _ _ h :=
    Edit.eq_of_ending_eq_error ((Edit.define_eq name value s).symm.trans h)
  assign name value s _ _ h :=
    Edit.eq_of_ending_eq_error ((Edit.assign_eq name value s).symm.trans h)

/-! ## Frames -/

/-- Bindings of distinct names, newest first. -/
structure Frame (α : Type) where
  bindings : List (String × α)
  distinct : (bindings.map Prod.fst).Nodup

namespace Frame

def empty : Frame α :=
  ⟨[], List.nodup_nil⟩

/-- The names that are bound. -/
def names (frame : Frame α) : List String :=
  frame.bindings.map Prod.fst

def lookup (frame : Frame α) (name : String) : Option α :=
  frame.bindings.lookup name

/-- Binds a name that is not bound yet. -/
def define (frame : Frame α) (name : String) (value : α) : Except BindError (Frame α) :=
  if h : name ∈ frame.names then .error (.alreadyDefined name)
  else .ok ⟨(name, value) :: frame.bindings, List.nodup_cons.mpr ⟨h, frame.distinct⟩⟩

/-- The bindings with the one of `name` changed. -/
def rewritten (bindings : List (String × α)) (name : String) (value : α) : List (String × α) :=
  bindings.map fun binding => if binding.1 = name then (name, value) else binding

theorem rewritten_cons (binding : String × α) (bindings : List (String × α)) (name : String)
    (value : α) : rewritten (binding :: bindings) name value =
      (if binding.1 = name then (name, value) else binding) :: rewritten bindings name value :=
  rfl

theorem map_fst_rewritten (bindings : List (String × α)) (name : String) (value : α) :
    (rewritten bindings name value).map Prod.fst = bindings.map Prod.fst := by
  rw [rewritten, List.map_map]
  refine List.map_congr_left fun binding _ => ?_
  by_cases hname : binding.1 = name
  · simp [hname]
  · simp [hname]

/-- Where the name is not bound, nothing changes. -/
theorem rewritten_of_notMem {bindings : List (String × α)} {name : String}
    (h : name ∉ bindings.map Prod.fst) (value : α) : rewritten bindings name value = bindings := by
  have hkept : ∀ binding ∈ bindings,
      (if binding.1 = name then (name, value) else binding) = binding := by
    intro binding hbinding
    rw [if_neg]
    rintro rfl
    exact h (List.mem_map_of_mem hbinding)
  rw [rewritten, List.map_congr_left hkept, List.map_id']

/-- Gives a name another value. -/
def write (frame : Frame α) (name : String) (value : α) : Frame α :=
  ⟨rewritten frame.bindings name value, by
    rw [map_fst_rewritten]
    exact frame.distinct⟩

end Frame

/-! ## Activations -/

/-- One or more frames, innermost first. -/
inductive Activation (α : Type) where
  | only (frame : Frame α)
  | inside (innermost : Frame α) (outer : Activation α)

namespace Activation

/-- Searches from the innermost frame outwards. -/
def lookup (name : String) : Activation α → Option α
  | only frame => frame.lookup name
  | inside innermost outer => (innermost.lookup name).or (outer.lookup name)

/-- Binds in the innermost frame. -/
def define (name : String) (value : α) : Activation α → Except BindError (Activation α)
  | only frame => (frame.define name value).map only
  | inside innermost outer => (innermost.define name value).map (inside · outer)

/-- Writes to the innermost frame that has the name. -/
def assign (name : String) (value : α) : Activation α → Except BindError (Activation α)
  | only frame =>
    if name ∈ frame.names then .ok (only (frame.write name value))
    else .error (.undefined name)
  | inside innermost outer =>
    if name ∈ innermost.names then .ok (inside (innermost.write name value) outer)
    else (outer.assign name value).map (inside innermost)

/-- Drops the innermost frame. The last one belongs to the activation. -/
def popFrame : Activation α → Except PopError (Activation α)
  | only _ => .error .activationBoundary
  | inside _ outer => .ok outer

end Activation

/-! ## Nestings -/

/-- Activations, the current one first, and the frames that were opened before there was any,
innermost first. -/
structure Nesting (α : Type) where
  activations : List (Activation α) := []
  loose : List (Frame α) := []

namespace Nesting

/-- Opens an activation with a frame of its own. -/
def pushActivation (n : Nesting α) : Nesting α :=
  { n with activations := .only .empty :: n.activations }

/-- Drops the current activation with all its frames. -/
def popActivation (n : Nesting α) : Except PopError (Nesting α) :=
  match n.activations with
  | [] => .error .noActivation
  | _ :: callers => .ok { n with activations := callers }

/-- Opens a frame, in the current activation if there is one. -/
def pushFrame (n : Nesting α) : Nesting α :=
  match n.activations with
  | [] => { n with loose := .empty :: n.loose }
  | current :: callers => { n with activations := .inside .empty current :: callers }

/-- Drops the innermost frame of the current activation. -/
def popFrame (n : Nesting α) : Except PopError (Nesting α) :=
  match n.activations with
  | [] => .error .noActivation
  | current :: callers => current.popFrame.map fun a => { n with activations := a :: callers }

/-- Binds in the innermost frame, which is one of the current activation if there is one. -/
def define (n : Nesting α) (name : String) (value : α) : Except BindError (Nesting α) :=
  match n.activations, n.loose with
  | current :: callers, _ =>
    (current.define name value).map fun a => { n with activations := a :: callers }
  | [], innermost :: outer =>
    (innermost.define name value).map fun frame => { n with loose := frame :: outer }
  | [], [] => .error .noScope

/-- Writes in the current activation. Callers are out of reach. -/
def assign (n : Nesting α) (name : String) (value : α) : Except BindError (Nesting α) :=
  match n.activations with
  | [] => .error .noScope
  | current :: callers =>
    (current.assign name value).map fun a => { n with activations := a :: callers }

/-- Searches the current activation. -/
def lookup (n : Nesting α) (name : String) : Option α :=
  n.activations.head?.bind (·.lookup name)

/-- A nesting as a keeper of variables. -/
def keeper : Keeper α (Nesting α) where
  depth n := n.activations.length
  pushActivation := pushActivation
  popActivation n := Edit.ending n n.popActivation
  pushFrame := pushFrame
  popFrame n := Edit.ending n n.popFrame
  define name value n := Edit.ending n (n.define name value)
  assign name value n := Edit.ending n (n.assign name value)
  lookup := lookup

end Nesting

/-! ## Arrays that are searched as a whole -/

/-- A search below `n` reads nothing else. -/
theorem newest_congr {bindings other : Array (String × α)} (name : String) (floor : Nat) :
    ∀ {n}, (∀ i, i < n → bindings[i]? = other[i]?) →
      newest bindings name floor n = newest other name floor n
  | 0, _ => rfl
  | n + 1, h => by
    have hrest := newest_congr name floor fun i hi => h i (Nat.lt_succ_of_lt hi)
    rw [newest, newest, h n (Nat.lt_succ_self n), hrest]

/-- What was bound later is found first. -/
theorem newest_append (older newer : Array (String × α)) (name : String) :
    newest (older ++ newer) name 0 (older ++ newer).size =
      ((newest newer name 0 newer.size).map (· + older.size)).or
        (newest older name 0 older.size) := by
  have hsearch : ∀ n, newest (older ++ newer) name 0 (older.size + n) =
      ((newest newer name 0 n).map (· + older.size)).or (newest older name 0 older.size) := by
    intro n
    induction n with
    | zero =>
      refine newest_congr name 0 fun i hi => ?_
      rw [Array.getElem?_append_left hi]
    -- The search comes down through the newer bindings first.
    | succ n ih =>
      have hget : (older ++ newer)[older.size + n]? = newer[n]? := by
        rw [Array.getElem?_append_right (Nat.le_add_right ..), Nat.add_sub_cancel_left]
      rw [← Nat.add_assoc, newest, newest, if_neg (Nat.not_lt_zero _),
        if_neg (Nat.not_lt_zero _), hget, ih]
      by_cases hhit : newer[n]?.any (·.1 == name)
      · rw [if_pos hhit, if_pos hhit, Option.map_some, Option.some_or, Nat.add_comm]
      · rw [if_neg hhit, if_neg hhit]
  rw [Array.size_append]
  exact hsearch newer.size

/-- The value of the newest binding of `name`. -/
def read (bindings : Array (String × α)) (name : String) : Option α :=
  (newest bindings name 0 bindings.size).bind (bindings[·]?.map (·.2))

/-- The array with another value for the newest binding of `name`. -/
def written (bindings : Array (String × α)) (name : String) (value : α) :
    Option (Array (String × α)) :=
  (newest bindings name 0 bindings.size).map (bindings.setIfInBounds · (name, value))

/-- A value is read from what is newer, or else from what is older. -/
theorem read_append (older newer : Array (String × α)) (name : String) :
    read (older ++ newer) name = (read newer name).or (read older name) := by
  rw [read, newest_append, read, read]
  cases hnewer : newest newer name 0 newer.size with
  -- A hit among the newer bindings is one in the whole, moved up by the older ones.
  | some i =>
    obtain ⟨-, -, value, hget⟩ := newest_spec hnewer
    have hget' : (older ++ newer)[i + older.size]? = newer[i]? := by
      rw [Array.getElem?_append_right (Nat.le_add_left ..), Nat.add_sub_cancel]
    simp only [Option.map_some, Option.some_or, Option.bind_some, hget', hget]
  | none =>
    simp only [Option.map_none, Option.none_or, Option.bind_none]
    cases holder : newest older name 0 older.size with
    | none => rfl
    | some i =>
      obtain ⟨-, hlt, -⟩ := newest_spec holder
      simp only [Option.bind_some, Array.getElem?_append_left hlt]

theorem written_append (older newer : Array (String × α)) (name : String) (value : α) :
    written (older ++ newer) name value =
      ((written newer name value).map (older ++ ·)).or
        ((written older name value).map (· ++ newer)) := by
  rw [written, newest_append, written, written]
  cases hnewer : newest newer name 0 newer.size with
  | some i =>
    simp only [Option.map_some, Option.some_or]
    rw [Array.setIfInBounds_append_right (Nat.le_add_left ..), Nat.add_sub_cancel]
  | none =>
    simp only [Option.map_none, Option.none_or]
    cases holder : newest older name 0 older.size with
    | none => rfl
    | some i =>
      obtain ⟨-, hlt, -⟩ := newest_spec holder
      simp only [Option.map_some, Array.setIfInBounds_append_left hlt]

theorem size_of_written {bindings bindings' : Array (String × α)} {name : String} {value : α}
    (h : written bindings name value = some bindings') : bindings'.size = bindings.size := by
  obtain ⟨i, -, rfl⟩ := Option.map_eq_some_iff.mp h
  exact Array.size_setIfInBounds

/-- In an activation that is alone, everything is searched. -/
theorem lookup_eq_read {s : Scope α} (h : s.activationStart? = some 0) (name : String) :
    s.lookup name = read s.bindings name := by
  simp only [Scope.lookup, position?, h, Option.bind_some, read]

/-- In an activation that is alone, everything can be written to. -/
theorem assign_eq_written {s : Scope α} (h : s.activationStart? = some 0) (name : String)
    (value : α) : s.assign name value =
      (written s.bindings name value).elim (.error (.undefined name))
        fun bindings => .ok { s with bindings } := by
  simp only [Scope.assign, h, written]
  cases newest s.bindings name 0 s.bindings.size <;> rfl

/-- A new name is bound in a frame, whatever activation that belongs to. -/
theorem define_activations (s : Scope α) (activations : Array Nat) (name : String) (value : α) :
    { s with activations }.define name value =
      (s.define name value).map ({ · with activations }) := by
  simp only [Scope.define]
  split
  · rfl
  · split <;> rfl

/-- Two ways round a square. -/
theorem map_map_of_comm {ε β γ δ ζ : Type} {f : β → γ} {g : γ → ζ} {f' : β → δ} {g' : δ → ζ}
    (h : ∀ b, g (f b) = g' (f' b)) (result : Except ε β) :
    (result.map f).map g = (result.map f').map g' := by
  cases result with
  | error e => rfl
  | ok b => simp only [Except.map, h]

/-! ## The layout of a frame -/

/-- Bindings in an array, oldest first. -/
def laid (bindings : List (String × α)) : Array (String × α) :=
  bindings.reverse.toArray

/-- The newest binding is laid out last. -/
theorem laid_cons (binding : String × α) (bindings : List (String × α)) :
    laid (binding :: bindings) = laid bindings ++ #[binding] := by
  simp [laid]

theorem newest_singleton (binding : String × α) (name : String) :
    newest #[binding] name 0 #[binding].size = if binding.1 = name then some 0 else none := by
  simp [newest]

/-- A name is found in the layout exactly if it is bound. -/
theorem isSome_newest_laid (bindings : List (String × α)) (name : String) :
    (newest (laid bindings) name 0 (laid bindings).size).isSome ↔
      name ∈ bindings.map Prod.fst := by
  induction bindings with
  | nil => simp [laid, newest]
  | cons binding bindings ih =>
    rw [laid_cons, newest_append, Option.isSome_or, Option.isSome_map, Bool.or_eq_true, ih,
      newest_singleton, List.map_cons, List.mem_cons]
    by_cases hname : binding.1 = name
    · simp [hname]
    · simp [hname, Ne.symm hname]

/-- What is read from the layout is what is bound. -/
theorem read_laid (bindings : List (String × α)) (name : String) :
    read (laid bindings) name = bindings.lookup name := by
  induction bindings with
  | nil => rfl
  | cons binding bindings ih =>
    obtain ⟨key, value⟩ := binding
    rw [laid_cons, read_append, ih, read, newest_singleton, List.lookup_cons]
    by_cases hname : key = name
    · simp [hname]
    · have hbeq : (name == key) = false := beq_false_of_ne (Ne.symm hname)
      simp [hname, hbeq]

/-- Since names are distinct, the newest binding of a name is the only one. -/
theorem written_laid {bindings : List (String × α)} (h : (bindings.map Prod.fst).Nodup)
    (name : String) (value : α) : written (laid bindings) name value =
      if name ∈ bindings.map Prod.fst then some (laid (Frame.rewritten bindings name value))
      else none := by
  induction bindings with
  | nil => rfl
  | cons binding bindings ih =>
    rw [List.map_cons, List.nodup_cons] at h
    rw [laid_cons, written_append, ih h.2, written, newest_singleton]
    -- A binding that is written to here is not written to further down.
    by_cases hname : binding.1 = name
    · have hrest := Frame.rewritten_of_notMem (hname ▸ h.1) value
      simp [hname, Frame.rewritten_cons, laid_cons, hrest]
    · by_cases hmem : name ∈ bindings.map Prod.fst
      · simp [hname, hmem, Frame.rewritten_cons, laid_cons]
      · simp [hname, hmem, Ne.symm hname]

namespace Frame

/-- A frame as a scope without an activation. -/
def flat (frame : Frame α) : Scope α where
  bindings := laid frame.bindings
  frames := #[0]

theorem isSome_newest_flat (frame : Frame α) (name : String) :
    (newest frame.flat.bindings name 0 frame.flat.bindings.size).isSome ↔ name ∈ frame.names :=
  isSome_newest_laid frame.bindings name

theorem read_flat (frame : Frame α) (name : String) :
    read frame.flat.bindings name = frame.lookup name :=
  read_laid frame.bindings name

/-- Writing to the layout of a frame is writing to the frame. -/
theorem written_flat (frame : Frame α) (name : String) (value : α) :
    written frame.flat.bindings name value =
      if name ∈ frame.names then some (frame.write name value).flat.bindings else none :=
  written_laid frame.distinct name value

/-- Binding in the layout of a frame is binding in the frame. -/
theorem define_flat (frame : Frame α) (name : String) (value : α) :
    frame.flat.define name value = (frame.define name value).map flat := by
  have hback : frame.flat.frames.back? = some 0 := rfl
  simp only [Scope.define, hback, isSome_newest_flat, Frame.define]
  by_cases hmem : name ∈ frame.names
  · rw [if_pos hmem, dif_pos hmem]
    rfl
  · rw [if_neg hmem, dif_neg hmem]
    simp [Except.map, flat, laid]

end Frame

namespace Activation

/-- Frames one above the other, of which the first belongs to an activation. -/
def flat : Activation α → Scope α
  | only frame => { frame.flat with activations := #[0] }
  | inside innermost outer => above outer.flat innermost.flat

theorem activations_flat (a : Activation α) : a.flat.activations = #[0] := by
  induction a with
  | only frame => rfl
  | inside innermost outer ih => simp [flat, above, ih, Frame.flat]

/-- Its first frame starts at the first binding. -/
theorem frames_flat (a : Activation α) : a.flat.frames[0]? = some 0 := by
  induction a with
  | only frame => rfl
  | inside innermost outer ih =>
    obtain ⟨hlt, -⟩ := Array.getElem?_eq_some_iff.mp ih
    rw [flat, above, Array.getElem?_append_left hlt, ih]

theorem size_frames_flat (a : Activation α) : 0 < a.flat.frames.size := by
  obtain ⟨hlt, -⟩ := Array.getElem?_eq_some_iff.mp a.frames_flat
  exact hlt

/-- The layout of an activation has a frame of its own. -/
theorem anchored_flat (a : Activation α) : a.flat.Anchored :=
  ⟨0, by simp [activations_flat], a.size_frames_flat⟩

theorem activationStart?_flat (a : Activation α) : a.flat.activationStart? = some 0 := by
  simp [activationStart?, activations_flat, frames_flat]

/-- Looking up in the layout of an activation, frame by frame. -/
theorem lookup_flat (a : Activation α) (name : String) : a.flat.lookup name = a.lookup name := by
  rw [lookup_eq_read a.activationStart?_flat]
  induction a with
  | only frame => exact read_laid frame.bindings name
  | inside innermost outer ih =>
    rw [flat, above, read_append, ih, Frame.read_flat]
    rfl

/-- Binding goes to the frame on top, which is the innermost. -/
theorem define_flat (a : Activation α) (name : String) (value : α) :
    a.flat.define name value = (a.define name value).map flat := by
  cases a with
  | only frame =>
    rw [flat, define_activations, Frame.define_flat]
    refine map_map_of_comm (fun _ => ?_) (frame.define name value)
    rfl
  | inside innermost outer =>
    have hopen : innermost.flat.frames ≠ #[] := by simp [Frame.flat]
    rw [flat, define_above hopen, Frame.define_flat]
    refine map_map_of_comm (fun _ => ?_) (innermost.define name value)
    rfl

/-- Assigning goes down from the frame on top to the first one that has the name. -/
theorem assign_flat (a : Activation α) (name : String) (value : α) :
    a.flat.assign name value = (a.assign name value).map flat := by
  rw [assign_eq_written a.activationStart?_flat]
  induction a with
  | only frame =>
    have hbindings : (only frame).flat.bindings = frame.flat.bindings := rfl
    rw [hbindings, Frame.written_flat, assign]
    by_cases hmem : name ∈ frame.names
    · rw [if_pos hmem, if_pos hmem]
      rfl
    · rw [if_neg hmem, if_neg hmem]
      rfl
  | inside innermost outer ih =>
    have hbindings : (inside innermost outer).flat.bindings =
      outer.flat.bindings ++ innermost.flat.bindings := rfl
    rw [hbindings, written_append, Frame.written_flat, assign]
    by_cases hmem : name ∈ innermost.names
    · rw [if_pos hmem, if_pos hmem]
      rfl
    · rw [if_neg hmem, if_neg hmem, Option.map_none, Option.none_or]
      -- What is written has the size it had, so the frame above it starts where it did.
      cases hwritten : written outer.flat.bindings name value with
      | none =>
        cases hassign : outer.assign name value with
        | ok outer' => simp [hwritten, hassign, Except.map] at ih
        | error e =>
          rw [hwritten, hassign] at ih
          exact ih
      | some bindings =>
        cases hassign : outer.assign name value with
        | ok outer' =>
          rw [hwritten, hassign] at ih
          have hflat : { outer.flat with bindings } = outer'.flat := Except.ok.inj ih
          simp only [Except.map, flat, ← hflat, above, size_of_written hwritten, Option.map_some,
            Option.elim_some]
        | error e => simp [hwritten, hassign, Except.map] at ih

theorem pushFrame_flat (a : Activation α) :
    a.flat.pushFrame = (inside Frame.empty a).flat := by
  have hpush := pushFrame_above a.flat empty
  rw [above_empty_right] at hpush
  exact hpush

/-- The frame on top is closed, unless it is the only one. -/
theorem popFrame_flat (a : Activation α) : a.flat.popFrame = a.popFrame.map flat := by
  cases a with
  | only frame => simp [flat, Frame.flat, Scope.popFrame, popFrame, Except.map]
  | inside innermost outer =>
    have hactivations : (inside innermost outer).flat.activations = outer.flat.activations := by
      rw [activations_flat, activations_flat]
    have hback : outer.flat.activations.back? = some 0 := by
      simp [activations_flat]
    have hframes : (inside innermost outer).flat.frames =
        outer.flat.frames.push outer.flat.bindings.size := by
      simp [flat, above, Frame.flat]
    have hbindings : (inside innermost outer).flat.bindings.shrink outer.flat.bindings.size =
        outer.flat.bindings := by
      simp [flat, above]
    -- Below the frame on top there is another one of the same activation.
    have hopen : ¬ (outer.flat.frames.push outer.flat.bindings.size).size ≤ 0 + 1 := by
      have hsize := outer.size_frames_flat
      rw [Array.size_push]
      omega
    simp only [Scope.popFrame, hactivations, hback, hframes, if_neg hopen, Array.back?_push,
      Option.getD_some, Array.pop_push, hbindings, popFrame, Except.map]

/-- Closing an activation uncovers what is below. -/
theorem popActivation_above_flat (base : Scope α) (a : Activation α) :
    (above base a.flat).popActivation = .ok base := by
  have hstart : (above base a.flat).frames[base.frames.size]? = some base.bindings.size := by
    rw [above, Array.getElem?_append_right (Nat.le_refl _), Nat.sub_self, Array.getElem?_map,
      a.frames_flat, Option.map_some, Nat.zero_add]
  have hback : (above base a.flat).activations.back? = some base.frames.size := by
    simp [above, activations_flat]
  simp only [Scope.popActivation, hback, hstart, Option.getD_some]
  simp [above, activations_flat]

end Activation

namespace Nesting

/-- Everything above what is older: the loose frames first, then the activations. -/
def flat (n : Nesting α) : Scope α :=
  n.activations.foldr (fun a base => above base a.flat)
    (n.loose.foldr (fun frame base => above base frame.flat) Scope.empty)

theorem flat_cons (current : Activation α) (callers : List (Activation α))
    (loose : List (Frame α)) :
    (Nesting.mk (current :: callers) loose).flat =
      above (Nesting.mk callers loose).flat current.flat := rfl

theorem flat_loose_cons (innermost : Frame α) (outer : List (Frame α)) :
    (Nesting.mk [] (innermost :: outer)).flat = above (Nesting.mk [] outer).flat innermost.flat :=
  rfl

/-- The depth of the layout is the number of activations. Loose frames do not count. -/
theorem depth_flat (n : Nesting α) : n.flat.depth = n.activations.length := by
  obtain ⟨activations, loose⟩ := n
  induction activations with
  | nil =>
    induction loose with
    | nil => rfl
    | cons innermost outer ih =>
      rw [flat_loose_cons, ← ih]
      simp [depth, above, Frame.flat]
  | cons current callers ih =>
    rw [flat_cons, List.length_cons, ← ih]
    simp [depth, above, Activation.activations_flat]

theorem pushActivation_flat (n : Nesting α) : n.flat.pushActivation = n.pushActivation.flat := by
  have hpush := pushActivation_above n.flat Scope.empty
  rw [above_empty_right] at hpush
  exact hpush

/-- What the activation was put on top of is what is left when it is closed. -/
theorem popActivation_flat (n : Nesting α) :
    n.flat.popActivation = n.popActivation.map flat := by
  obtain ⟨activations, loose⟩ := n
  cases activations with
  | nil =>
    have hnone : (Nesting.mk [] loose).flat.activations = #[] :=
      Array.eq_empty_of_size_eq_zero (depth_flat _)
    simp only [Scope.popActivation, hnone, Array.back?_empty]
    rfl
  | cons current callers => exact current.popActivation_above_flat _

theorem pushFrame_flat (n : Nesting α) : n.flat.pushFrame = n.pushFrame.flat := by
  obtain ⟨activations, loose⟩ := n
  cases activations with
  | nil =>
    have hpush := pushFrame_above (Nesting.mk [] loose).flat Scope.empty
    rw [above_empty_right] at hpush
    exact hpush
  | cons current callers =>
    rw [flat_cons, pushFrame_above, Activation.pushFrame_flat]
    rfl

/-- Without an activation there is no frame to close, loose ones or not. -/
theorem popFrame_flat (n : Nesting α) : n.flat.popFrame = n.popFrame.map flat := by
  obtain ⟨activations, loose⟩ := n
  cases activations with
  | nil => exact popFrame_of_depth_zero (depth_flat _)
  | cons current callers =>
    rw [flat_cons, current.anchored_flat.popFrame_above, Activation.popFrame_flat]
    refine map_map_of_comm (fun _ => ?_) current.popFrame
    rfl

/-- Loose frames can be bound in as long as there is no activation above them. -/
theorem define_flat (n : Nesting α) (name : String) (value : α) :
    n.flat.define name value = (n.define name value).map flat := by
  obtain ⟨activations, loose⟩ := n
  cases activations with
  | nil =>
    cases loose with
    | nil => rfl
    | cons innermost outer =>
      have hopen : innermost.flat.frames ≠ #[] := by simp [Frame.flat]
      rw [flat_loose_cons, define_above hopen, Frame.define_flat]
      refine map_map_of_comm (fun _ => ?_) (innermost.define name value)
      rfl
  | cons current callers =>
    have hopen : current.flat.frames ≠ #[] := Array.size_pos_iff.mp current.size_frames_flat
    rw [flat_cons, define_above hopen, Activation.define_flat]
    refine map_map_of_comm (fun _ => ?_) (current.define name value)
    rfl

/-- Loose frames cannot be assigned to. -/
theorem assign_flat (n : Nesting α) (name : String) (value : α) :
    n.flat.assign name value = (n.assign name value).map flat := by
  obtain ⟨activations, loose⟩ := n
  cases activations with
  | nil =>
    rw [Scope.assign, activationStart?_of_depth_zero (depth_flat _)]
    rfl
  | cons current callers =>
    rw [flat_cons, current.anchored_flat.assign_above, Activation.assign_flat]
    refine map_map_of_comm (fun _ => ?_) (current.assign name value)
    rfl

theorem lookup_flat (n : Nesting α) (name : String) : n.flat.lookup name = n.lookup name := by
  obtain ⟨activations, loose⟩ := n
  cases activations with
  | nil =>
    rw [Scope.lookup, position?, activationStart?_of_depth_zero (depth_flat _)]
    rfl
  | cons current callers =>
    rw [flat_cons, current.anchored_flat.lookup_above, Activation.lookup_flat]
    rfl

/-- An operation that agrees on what it returns agrees on what it leaves. -/
theorem ending_flat {ε : Type} {n : Nesting α} {x : Except ε (Scope α)} {y : Except ε (Nesting α)}
    (h : x = y.map flat) : Edit.ending n.flat x = Keeper.carry flat (Edit.ending n y) := by
  rw [h, Keeper.carry_ending]

/-- **Arrays represent nestings.** -/
theorem represents_flat : Scope.keeper.Represents keeper (flat : Nesting α → Scope α) where
  depth := depth_flat
  pushActivation := pushActivation_flat
  popActivation n := (Edit.popActivation_eq n.flat).trans (ending_flat (popActivation_flat n))
  pushFrame := pushFrame_flat
  popFrame n := (Edit.popFrame_eq n.flat).trans (ending_flat (popFrame_flat n))
  define name value n :=
    (Edit.define_eq name value n.flat).trans (ending_flat (define_flat n name value))
  assign name value n :=
    (Edit.assign_eq name value n.flat).trans (ending_flat (assign_flat n name value))
  lookup := lookup_flat

end Nesting

/-- **A scope behaves as its nesting.** Whatever is asked of an empty scope, one request after the
other, it gives the replies that an empty nesting gives, with the same depth after each; it is then
the layout of what the nesting has become. A request that is refused changes nothing. -/
theorem replies_eq_nesting (requests : List (Request α)) :
    keeper.replies empty requests = Nesting.keeper.replies {} requests ∧
    keeper.after empty requests = (Nesting.keeper.after {} requests).flat ∧
    ∀ request, (keeper.perform (keeper.after empty requests) request).1.isRefusal →
      keeper.after empty (requests ++ [request]) = keeper.after empty requests := by
  refine ⟨Nesting.represents_flat.replies {} requests, Nesting.represents_flat.after {} requests,
    fun request hrefusal => ?_⟩
  -- The last request is refused in the state after the others.
  rw [Keeper.after, List.foldl_append]
  exact isAtomic_keeper.perform_of_isRefusal hrefusal

-- What is bound outside any activation cannot be seen, neither there nor from inside one.
example : keeper.replies (empty : Scope Nat)
    [.define "x" 1, .pushFrame, .define "x" 1, .define "x" 2, .lookup "x", .pushActivation,
      .lookup "x", .popFrame] =
    [(.notBound .noScope, 0), (.done, 0), (.done, 0), (.notBound (.alreadyDefined "x"), 0),
      (.found none, 0), (.done, 1), (.found none, 1), (.notClosed .activationBoundary, 1)] := by
  decide

end CallFolding.Scope
