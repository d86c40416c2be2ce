import CallFolding.Program.Builder
import Mathlib.Data.List.Induction
import Mathlib.Data.List.Nodup

/-!
The numbers that building gives out.

A program is built by requests, and each request has a reply. The record of the requests with their
replies is compared with the program that they leave: `Orderly` says that every number in a reply
stands for one function of the program and that every function of the program was asked for.

There are two stores, the table of functions and the list of shared operations, and requests of both
kinds may come in any order. `Step` says once what a request can do to them. What is carried along
is `Account`: the replies so far agree with the stores as they are now. A number is only ever given
out twice if the list of shared operations has it, and that list never takes up a number that was
given out before. Loops are numbered by a counter of 32 bits, so the numbers are those below
`UInt32.size` over and over, in order.
-/

set_option autoImplicit false

namespace CallFolding

/-- What is fixed of a function when it is created. -/
structure Signature where
  name : String
  owner : Owner
  receiver : Option Ty
  parameters : List Parameter
  returnType : Ty

/-- The signature a function was created with; only the body may come later. -/
def Function.signature (function : Function) : Signature :=
  ⟨function.name, function.owner, function.receiver, function.parameters, function.returnType⟩

namespace Build

/-! ## Requests and replies -/

/-- What can be asked for while building. -/
inductive Request where
  | declareIn (owner : Owner) (receiver : Option Ty) (name : String)
      (parameters : List (String × Ty)) (returnType : Ty)
  | declare (name : String) (parameters : List (String × Ty)) (returnType : Ty)
  | declareLocal (parent : FunctionId) (name : String) (parameters : List (String × Ty))
      (returnType : Ty)
  | member (owner : Ty) (name : String) (parameterTypes : List Ty) (returnType : Ty)
  | intrinsic (name : String) (parameterTypes : List Ty) (returnType : Ty)
  | define (id : FunctionId) (body : Expr)
  | newLoop
  | intOp (name : String) (left right : Expr)
  | intTest (name : String) (left right : Expr)
  | sameTest (left right : Expr)
  | negation (operand : Expr)
  | addTo (owner : FunctionId) (name : String) (amount : Expr)

/-- What a request is answered with. A definition is only acknowledged. -/
inductive Reply where
  | function (id : FunctionId)
  | expr (e : Expr)
  | loop (id : LoopId)
  | done

/-- Requests are the operations of the builder. -/
def perform : Request → Build Reply
  | .declareIn owner receiver name parameters returnType =>
    .function <$> declareIn owner receiver name parameters returnType
  | .declare name parameters returnType => .function <$> declare name parameters returnType
  | .declareLocal parent name parameters returnType =>
    .function <$> declareLocal parent name parameters returnType
  | .member owner name parameterTypes returnType =>
    .function <$> member owner name parameterTypes returnType
  | .intrinsic name parameterTypes returnType =>
    .function <$> intrinsic name parameterTypes returnType
  | .define id body => (fun _ => .done) <$> define id body
  | .newLoop => .loop <$> newLoop
  | .intOp name left right => .expr <$> intOp name left right
  | .intTest name left right => .expr <$> intTest name left right
  | .sameTest left right => .expr <$> sameTest left right
  | .negation operand => .expr <$> negation operand
  | .addTo owner name amount => .expr <$> addTo owner name amount

/-- A request and the reply that it got. -/
structure Event where
  request : Request
  reply : Reply

/-- Performs the requests in order and keeps a record. -/
def record (requests : List Request) : Build (List Event) :=
  requests.mapM fun request => return ⟨request, ← perform request⟩

/-- The function that the reply is about. A shorthand gives back a call, maybe one whose value is
assigned, and the function is the one that is called there. -/
def Reply.function? : Reply → Option FunctionId
  | .function id => some id
  | .expr (.call callee _ _) => some callee
  | .expr (.assign _ _ (.call callee _ _)) => some callee
  | _ => none

/-- The loop that the reply is about. -/
def Reply.loop? : Reply → Option LoopId
  | .loop id => some id
  | _ => none

namespace Request

/-- The request for a primitive operation that a shorthand makes. -/
def plain : Request → Request
  | .intOp name _ _ => .member .int name [.int] .int
  | .intTest name _ _ => .intrinsic name [.int, .int] .boolean
  | .sameTest _ _ => .intrinsic "EQEQ" [.anything, .anything] .boolean
  | .negation _ => .member .boolean "not" [] .boolean
  | .addTo _ _ _ => .member .int "plus" [.int] .int
  | request => request

/-- The request adds a function of its own. -/
def declares : Request → Bool
  | .declareIn .. | .declare .. | .declareLocal .. => true
  | _ => false

/-- The key of the shared operation that is asked for. -/
def key? (request : Request) : Option OperationKey :=
  match request.plain with
  | .member owner name parameterTypes _ => some ⟨.type owner, name, parameterTypes⟩
  | .intrinsic name parameterTypes _ => some ⟨.package intrinsicsPackage, name, parameterTypes⟩
  | _ => none

/-- Declared parameters have their names with them. -/
def named (parameters : List (String × Ty)) : List Parameter :=
  parameters.map fun parameter => ⟨parameter.1, parameter.2⟩

/-- The parameters of a shared operation have the names `p0`, `p1` and so on. -/
def unnamed (parameterTypes : List Ty) : List Parameter :=
  parameterTypes.mapIdx fun i type => ⟨"p" ++ toString i, type⟩

/-- What is asked for, if it is a function. -/
def signature? (request : Request) : Option Signature :=
  match request.plain with
  | .declareIn owner receiver name parameters returnType =>
    some ⟨name, owner, receiver, named parameters, returnType⟩
  | .declare name parameters returnType =>
    some ⟨name, .package "", none, named parameters, returnType⟩
  | .declareLocal parent name parameters returnType =>
    some ⟨name, .function parent, none, named parameters, returnType⟩
  | .member owner name parameterTypes returnType =>
    some ⟨name, .type owner, some owner, unnamed parameterTypes, returnType⟩
  | .intrinsic name parameterTypes returnType =>
    some ⟨name, .package intrinsicsPackage, none, unnamed parameterTypes, returnType⟩
  | _ => none

/-- The body that the request gives to the function `id`. -/
def bodyFor? (id : FunctionId) : Request → Option Expr
  | .define target body => if target = id then some body else none
  | _ => none

end Request

/-- The body that the requests give last to the function `id`. -/
def lastBody? (id : FunctionId) (requests : List Request) : Option Expr :=
  (requests.filterMap (·.bodyFor? id)).getLast?

/-- The function at position `i` was created in this event, and has what was asked for then. -/
structure CreatedAt (i : Nat) (function : Function) (before : List Event) (event : Event)
    (after : List Event) : Prop where
  reply : event.reply.function? = some ⟨i⟩
  first : ∀ e ∈ before, e.reply.function? ≠ some ⟨i⟩
  signature : event.request.signature? = some function.signature
  body : function.body = lastBody? ⟨i⟩ (after.map (·.request))

/-- The record of the events and the program agree on what the numbers stand for. -/
structure Orderly (events : List Event) (program : Program) : Prop where
  numbered : ∀ (i : Nat) (function : Function), program.functions[i]? = some function →
    function.id = ⟨i⟩
  /-- Who asks for a function gets the number of one. -/
  answers : ∀ e ∈ events, ∀ signature, e.request.signature? = some signature →
    ∃ id function, e.reply.function? = some id ∧ program.function? id = some function
  shares : ∀ e ∈ events, ∀ e' ∈ events, ∀ key key', e.request.key? = some key →
    e'.request.key? = some key' → (e.reply.function? = e'.reply.function? ↔ key = key')
  /-- No other event has the number of a declared function. -/
  separates : events.Pairwise fun e e' => e.request.declares ∨ e'.request.declares →
    e.reply.function? ≠ e'.reply.function?
  keeps : ∀ (i : Nat) (function : Function), program.functions[i]? = some function →
    ∃ before event after, events = before ++ event :: after ∧
      CreatedAt i function before event after
  loops : ∀ e ∈ events, e.request = .newLoop → ∃ id, e.reply = .loop id
  /-- No two loops have the same number, if the counter has enough of them. -/
  loops_nodup : (events.filterMap (·.reply.loop?)).length ≤ UInt32.size →
    (events.filterMap (·.reply.loop?)).Nodup

section

variable {request : Request} {reply : Reply} {signature : Signature} {key : OperationKey}
  {id : FunctionId}

/-- A function of one's own is not shared. -/
theorem Request.key?_of_declares (h : request.declares) : request.key? = none := by
  cases request with
  | declareIn | declare | declareLocal => rfl
  | _ => cases h

/-- A function is asked for either as one's own or as a shared operation. -/
theorem Request.declares_or_key? (h : request.signature? = some signature) :
    request.declares ∨ ∃ key, request.key? = some key := by
  cases request with
  | declareIn | declare | declareLocal => exact .inl rfl
  | define | newLoop => cases h
  | _ => exact .inr ⟨_, rfl⟩

/-- A request for a function gives no body. -/
theorem Request.bodyFor?_of_signature? (h : request.signature? = some signature) :
    request.bodyFor? id = none := by
  cases request with
  | define => cases h
  | _ => rfl

theorem Request.bodyFor?_of_key? (h : request.key? = some key) : request.bodyFor? id = none := by
  cases request with
  | define => cases h
  | _ => rfl

/-- A reply is not about a function and a loop at once. -/
theorem Reply.loop?_of_function? (h : reply.function? = some id) : reply.loop? = none := by
  cases reply with
  | loop => cases h
  | _ => rfl

/-- The numbers of loops in a record that is longer by one event. -/
theorem filterMap_loop?_append (events : List Event) (event : Event) :
    (events ++ [event]).filterMap (·.reply.loop?) =
      events.filterMap (·.reply.loop?) ++ event.reply.loop?.toList := by
  rw [List.filterMap_append]
  cases hloop : event.reply.loop? with
  | none => simp [hloop]
  | some id => simp [hloop]

/-- The last body of longer requests is that of the last request, if it gives one. -/
theorem lastBody?_append (requests : List Request) :
    lastBody? id (requests ++ [request]) = (request.bodyFor? id).or (lastBody? id requests) := by
  unfold lastBody?
  rw [List.filterMap_append]
  cases hbody : request.bodyFor? id with
  | none => simp [hbody]
  | some body => simp [hbody]

end

end Build

/-! ## What a request does -/

namespace Signature

/-- A function without a body. -/
def function (signature : Signature) (id : FunctionId) : Function :=
  ⟨id, signature.name, signature.owner, signature.receiver, signature.parameters,
    signature.returnType, none⟩

end Signature

namespace Builder

/-- The number of the next function. -/
def fresh (b : Builder) : FunctionId :=
  ⟨b.functions.size⟩

/-- Adds a function with the next number. -/
def add (b : Builder) (signature : Signature) : Builder :=
  { b with functions := b.functions.push (signature.function b.fresh) }

/-- Remembers the number of an operation under its key. -/
def share (b : Builder) (key : OperationKey) (id : FunctionId) : Builder :=
  { b with operations := (key, id) :: b.operations }

/-- Gives the function a body, if there is one with this number. -/
def setBody (b : Builder) (id : FunctionId) (body : Expr) : Builder :=
  { b with
    functions := b.functions.modify id.index fun function => { function with body := some body } }

/-- Moves the counter of loops on. -/
def countLoop (b : Builder) : Builder :=
  { b with nextLoop := b.nextLoop + 1 }

section

variable (b : Builder) (signature : Signature) (key : OperationKey) (id : FunctionId) (body : Expr)
  (i : Nat)

@[simp] theorem size_add : (b.add signature).functions.size = b.functions.size + 1 :=
  Array.size_push _

@[simp] theorem size_share : (b.share key id).functions.size = b.functions.size :=
  rfl

@[simp] theorem size_setBody : (b.setBody id body).functions.size = b.functions.size :=
  Array.size_modify

/-- An operation that is remembered is found, and hides no other. -/
theorem lookup_share (other : OperationKey) : (b.share key id).operations.lookup other =
    if other = key then some id else b.operations.lookup other := by
  rw [share, List.lookup_cons]
  by_cases heq : other = key
  · rw [if_pos heq, heq, beq_self_eq_true]
  · rw [if_neg heq, beq_false_of_ne heq]

end

section

variable {b : Builder} {i : Nat} {function : Function}

/-- After adding a function there are the old ones and the new one. -/
theorem getElem?_add_cases {signature : Signature}
    (h : (b.add signature).functions[i]? = some function) :
    b.functions[i]? = some function ∨
      i = b.functions.size ∧ function = signature.function ⟨i⟩ := by
  rw [add, Array.getElem?_push] at h
  by_cases hsize : i = b.functions.size
  · rw [if_pos hsize, Option.some.injEq] at h
    subst hsize
    exact .inr ⟨rfl, h.symm⟩
  · rw [if_neg hsize] at h
    exact .inl h

/-- After giving a body the functions are the old ones up to that body. -/
theorem getElem?_setBody_cases {id : FunctionId} {body : Expr}
    (h : (b.setBody id body).functions[i]? = some function) :
    ∃ old, b.functions[i]? = some old ∧
      function = { old with body := if id = ⟨i⟩ then some body else old.body } := by
  rw [setBody, Array.getElem?_modify] at h
  by_cases hid : id = ⟨i⟩
  · subst hid
    rw [if_pos rfl] at h
    obtain ⟨old, hold, rfl⟩ := Option.map_eq_some_iff.mp h
    exact ⟨old, hold, by rw [if_pos rfl]⟩
  · have hindex : id.index ≠ i := fun heq => hid (by rw [← heq])
    rw [if_neg hindex] at h
    exact ⟨function, h, by rw [if_neg hid]⟩

end

end Builder

namespace Build

/-- What a request can do, and with which reply. -/
inductive Step (b : Builder) : Event → Builder → Prop
  | declared {event : Event} {signature : Signature} (hkey : event.request.key? = none)
      (hsignature : event.request.signature? = some signature)
      (hreply : event.reply.function? = some b.fresh) : Step b event (b.add signature)
  | added {event : Event} {signature : Signature} {key : OperationKey}
      (hkey : event.request.key? = some key) (hnew : b.operations.lookup key = none)
      (hsignature : event.request.signature? = some signature)
      (hreply : event.reply.function? = some b.fresh) :
      Step b event ((b.add signature).share key b.fresh)
  | reused {event : Event} {key : OperationKey} {id : FunctionId}
      (hkey : event.request.key? = some key) (hold : b.operations.lookup key = some id)
      (hreply : event.reply.function? = some id) : Step b event b
  | defined (id : FunctionId) (body : Expr) : Step b ⟨.define id body, .done⟩ (b.setBody id body)
  | counted : Step b ⟨.newLoop, .loop ⟨b.nextLoop.toNat⟩⟩ b.countLoop

section

variable (b : Builder)

/-- A declaration adds a function and gives back its number. -/
theorem run_declareIn (owner : Owner) (receiver : Option Ty) (name : String)
    (parameters : List (String × Ty)) (returnType : Ty) :
    StateT.run (m := Id) (declareIn owner receiver name parameters returnType) b =
      (b.fresh, b.add ⟨name, owner, receiver, Request.named parameters, returnType⟩) :=
  rfl

/-- Numbering the types first and naming them later is naming them by position. -/
theorem named_zipIdx (types : List Ty) :
    Request.named (types.zipIdx.map fun (type, i) => ("p" ++ toString i, type)) =
      Request.unnamed types := by
  unfold Request.named Request.unnamed
  rw [List.map_map, List.mapIdx_eq_zipIdx_map]
  rfl

/-- An operation is looked up first and only added if it is not there. -/
theorem run_operation (key : OperationKey) (receiver : Option Ty) (returnType : Ty) :
    StateT.run (m := Id) (operation key receiver returnType) b =
      match b.operations.lookup key with
      | some id => (id, b)
      | none => (b.fresh, (b.add ⟨key.name, key.owner, receiver,
          Request.unnamed key.parameterTypes, returnType⟩).share key b.fresh) := by
  rw [← named_zipIdx]
  unfold operation
  simp only [StateT.run_bind, StateT.run_get, pure_bind]
  cases b.operations.lookup key with
  | none => rfl
  | some id => rfl

section

variable {request : Request} {owner : Owner} {receiver : Option Ty} {name : String}
  {returnType : Ty}

/-- All declarations come down to this one. -/
theorem step_declareIn {parameters : List (String × Ty)} (hkey : request.key? = none)
    (hsignature : request.signature? =
      some ⟨name, owner, receiver, Request.named parameters, returnType⟩) :
    let out := StateT.run (m := Id) (declareIn owner receiver name parameters returnType) b
    Step b ⟨request, .function out.1⟩ out.2 := by
  rw [run_declareIn]
  exact .declared hkey hsignature rfl

/-- A request for an operation, whatever is made of its number for the reply. -/
theorem step_operation (answer : FunctionId → Reply)
    (hanswer : ∀ id, (answer id).function? = some id) {parameterTypes : List Ty}
    (hkey : request.key? = some ⟨owner, name, parameterTypes⟩)
    (hsignature : request.signature? =
      some ⟨name, owner, receiver, Request.unnamed parameterTypes, returnType⟩) :
    let out := StateT.run (m := Id) (operation ⟨owner, name, parameterTypes⟩ receiver returnType) b
    Step b ⟨request, answer out.1⟩ out.2 := by
  rw [run_operation]
  cases hlookup : b.operations.lookup ⟨owner, name, parameterTypes⟩ with
  | none => exact .added hkey hlookup hsignature (hanswer _)
  | some id => exact .reused hkey hlookup (hanswer id)

end

/-- **Every request is one of the steps.** -/
theorem step_perform (request : Request) :
    let out := StateT.run (m := Id) (perform request) b
    Step b ⟨request, out.1⟩ out.2 := by
  cases request with
  | declareIn => exact step_declareIn b rfl rfl
  | declare => exact step_declareIn b rfl rfl
  | declareLocal => exact step_declareIn b rfl rfl
  | member => exact step_operation b .function (fun _ => rfl) rfl rfl
  | intrinsic => exact step_operation b .function (fun _ => rfl) rfl rfl
  | define id body => exact .defined id body
  | newLoop => exact .counted
  | intOp name left right =>
    exact step_operation b (fun id => .expr (.call id (some left) [right])) (fun _ => rfl) rfl rfl
  | intTest name left right =>
    exact step_operation b (fun id => .expr (.call id none [left, right])) (fun _ => rfl) rfl rfl
  | sameTest left right =>
    exact step_operation b (fun id => .expr (.call id none [left, right])) (fun _ => rfl) rfl rfl
  | negation operand =>
    exact step_operation b (fun id => .expr (.call id (some operand) [])) (fun _ => rfl) rfl rfl
  | addTo owner name amount =>
    exact step_operation b
      (fun id => .expr (.assign name owner (.call id (some (.read name owner)) [amount])))
      (fun _ => rfl) rfl rfl

end

namespace Step

section

variable {b b' : Builder} {event : Event} {key : OperationKey} {id : FunctionId}

theorem size_le (h : Step b event b') : b.functions.size ≤ b'.functions.size := by
  cases h with
  | declared | added | defined => simp
  | reused | counted => exact Nat.le_refl _

/-- The number of a shared operation does not change. -/
theorem lookup_eq (h : Step b event b') (hlookup : b.operations.lookup key = some id) :
    b'.operations.lookup key = some id := by
  cases h with
  | @added _ _ added _ hnew =>
    have hne : key ≠ added := by
      rintro rfl
      rw [hlookup] at hnew
      cases hnew
    rw [Builder.lookup_share, if_neg hne]
    exact hlookup
  | _ => exact hlookup

/-- Only fresh numbers are taken up as those of shared operations. -/
theorem lookup_cases (h : Step b event b') (hlookup : b'.operations.lookup key = some id) :
    b.operations.lookup key = some id ∨ event.request.key? = some key ∧ id = b.fresh ∧
      b'.functions.size = b.functions.size + 1 := by
  cases h with
  | @added _ _ added hkey =>
    rw [Builder.lookup_share] at hlookup
    by_cases heq : key = added
    · rw [if_pos heq, Option.some.injEq] at hlookup
      exact .inr ⟨heq ▸ hkey, hlookup.symm, by simp⟩
    · rw [if_neg heq] at hlookup
      exact .inl hlookup
  | _ => exact .inl hlookup

/-- A function that is there does not become a shared operation. -/
theorem lookup_ne (h : Step b event b') (hid : id.index < b.functions.size)
    (hne : b.operations.lookup key ≠ some id) : b'.operations.lookup key ≠ some id := by
  intro hlookup
  rcases h.lookup_cases hlookup with hold | ⟨-, rfl, -⟩
  · exact hne hold
  · exact Nat.lt_irrefl _ hid

/-- A number in a reply is fresh or that of a shared operation. -/
theorem reply_cases (h : Step b event b') (hreply : event.reply.function? = some id) :
    id = b.fresh ∧ b'.functions.size = b.functions.size + 1 ∨
      ∃ key, b.operations.lookup key = some id := by
  cases h with
  | declared _ _ hfresh | added _ _ _ hfresh =>
    rw [hfresh, Option.some.injEq] at hreply
    exact .inl ⟨hreply.symm, by simp⟩
  | reused _ hold hid =>
    rw [hid] at hreply
    cases hreply
    exact .inr ⟨_, hold⟩
  | defined | counted => cases hreply

/-- Who asks for an operation gets the number that it is shared under from then on. -/
theorem reply_of_key? (h : Step b event b') (hkey : event.request.key? = some key) :
    ∃ id, event.reply.function? = some id ∧ b'.operations.lookup key = some id := by
  cases h with
  | declared hnone =>
    rw [hnone] at hkey
    cases hkey
  | added hadded _ _ hreply =>
    rw [hadded, Option.some.injEq] at hkey
    exact ⟨_, hreply, by rw [Builder.lookup_share, if_pos hkey.symm]⟩
  | reused hreused hold hreply =>
    rw [hreused, Option.some.injEq] at hkey
    exact ⟨_, hreply, hkey ▸ hold⟩
  | defined | counted => cases hkey

/-- Who declares a function gets a fresh number, and nothing is shared for it. -/
theorem reply_of_declares (h : Step b event b') (hdeclares : event.request.declares) :
    event.reply.function? = some b.fresh ∧ b'.operations = b.operations := by
  have hnone := Request.key?_of_declares hdeclares
  cases h with
  | declared _ _ hreply => exact ⟨hreply, rfl⟩
  | added hkey | reused hkey =>
    rw [hnone] at hkey
    cases hkey
  | defined | counted => cases hdeclares

/-- A function is new, or it was there and at most its body is another. -/
theorem function_cases (h : Step b event b') {i : Nat} {function : Function}
    (hi : b'.functions[i]? = some function) :
    (∃ old, b.functions[i]? = some old ∧
      function = { old with body := (event.request.bodyFor? ⟨i⟩).or old.body }) ∨
    i = b.functions.size ∧ event.reply.function? = some ⟨i⟩ ∧
      ∃ signature, event.request.signature? = some signature ∧
        function = signature.function ⟨i⟩ := by
  -- Requests that give no body leave the old functions as they are.
  have hkept (hbody : event.request.bodyFor? ⟨i⟩ = none) (hold : b.functions[i]? = some function) :
      ∃ old, b.functions[i]? = some old ∧
        function = { old with body := (event.request.bodyFor? ⟨i⟩).or old.body } :=
    ⟨function, hold, by rw [hbody, Option.none_or]⟩
  cases h with
  | declared _ hsignature hreply | added _ _ hsignature hreply =>
    rcases Builder.getElem?_add_cases hi with hold | ⟨rfl, rfl⟩
    · exact .inl (hkept (Request.bodyFor?_of_signature? hsignature) hold)
    · exact .inr ⟨rfl, hreply, _, hsignature, rfl⟩
  | reused hkey => exact .inl (hkept (Request.bodyFor?_of_key? hkey) hi)
  | defined id body =>
    obtain ⟨old, hold, rfl⟩ := Builder.getElem?_setBody_cases hi
    refine .inl ⟨old, hold, ?_⟩
    by_cases hid : id = ⟨i⟩
    · rw [Request.bodyFor?, if_pos hid, if_pos hid, Option.some_or]
    · rw [Request.bodyFor?, if_neg hid, if_neg hid, Option.none_or]
  | counted => exact .inl (hkept rfl hi)

theorem loop_of_newLoop (h : Step b event b') (hrequest : event.request = .newLoop) :
    ∃ id, event.reply = .loop id := by
  cases h with
  | declared _ hsignature =>
    rw [hrequest] at hsignature
    cases hsignature
  | added hkey | reused hkey =>
    rw [hrequest] at hkey
    cases hkey
  | defined => cases hrequest
  | counted => exact ⟨_, rfl⟩

/-- Either a loop is numbered, or the counter stays. -/
theorem loop?_cases (h : Step b event b') :
    event.reply.loop? = none ∧ b'.nextLoop = b.nextLoop ∨
      event.reply.loop? = some ⟨b.nextLoop.toNat⟩ ∧ b'.nextLoop = b.nextLoop + 1 := by
  cases h with
  | counted => exact .inr ⟨rfl, rfl⟩
  | defined => exact .inl ⟨rfl, rfl⟩
  | declared _ _ hfunction | added _ _ _ hfunction | reused _ _ hfunction =>
    exact .inl ⟨Reply.loop?_of_function? hfunction, rfl⟩

end

end Step

/-! ## Numbers of loops -/

/-- The first `n` numbers of loops that a counter of 32 bits gives out. -/
def loopsUpTo (n : Nat) : List LoopId :=
  (List.range n).map fun i => ⟨(UInt32.ofNat i).toNat⟩

theorem loopsUpTo_succ (n : Nat) :
    loopsUpTo (n + 1) = loopsUpTo n ++ [⟨(UInt32.ofNat n).toNat⟩] := by
  rw [loopsUpTo, List.range_succ, List.map_append, List.map_singleton, ← loopsUpTo]

/-- While the counter has not gone round, its numbers are different. -/
theorem nodup_loopsUpTo {n : Nat} (hn : n ≤ UInt32.size) : (loopsUpTo n).Nodup := by
  refine List.Nodup.map_on (fun i hi j hj heq => ?_) List.nodup_range
  have hi' : i < UInt32.size := Nat.lt_of_lt_of_le (List.mem_range.mp hi) hn
  have hj' : j < UInt32.size := Nat.lt_of_lt_of_le (List.mem_range.mp hj) hn
  -- Below the size of the counter the numbers are the positions themselves.
  have hnat : (UInt32.ofNat i).toNat = (UInt32.ofNat j).toNat := congrArg LoopId.index heq
  rwa [UInt32.toNat_ofNat_of_lt' hi', UInt32.toNat_ofNat_of_lt' hj'] at hnat

/-- The number after the last one is the first one again. -/
theorem not_nodup_loopsUpTo : ¬ (loopsUpTo (UInt32.size + 1)).Nodup := by
  intro hnodup
  have heq : (⟨(UInt32.ofNat 0).toNat⟩ : LoopId) = ⟨(UInt32.ofNat UInt32.size).toNat⟩ := rfl
  have hzero : 0 ∈ List.range (UInt32.size + 1) := List.mem_range.mpr (Nat.succ_pos _)
  have hlast : UInt32.size ∈ List.range (UInt32.size + 1) :=
    List.mem_range.mpr (Nat.lt_succ_self _)
  cases List.inj_on_of_nodup_map hnodup hzero hlast heq

/-- If every reply is a loop, none is lost in their list. -/
theorem length_filterMap_loop? {events : List Event}
    (h : ∀ e ∈ events, ∃ id, e.reply = .loop id) :
    (events.filterMap (·.reply.loop?)).length = events.length := by
  induction events with
  | nil => rfl
  | cons event events ih =>
    -- The induction is on the record, and each event of it adds one loop.
    obtain ⟨id, hid⟩ := h event List.mem_cons_self
    have hloop : event.reply.loop? = some id := by rw [hid, Reply.loop?]
    simp only [List.filterMap_cons, hloop, List.length_cons,
      ih fun e he => h e (List.mem_cons_of_mem _ he)]

/-! ## What holds after every request -/

/-- The replies so far agree with what the builder has now. -/
structure Account (events : List Event) (b : Builder) : Prop where
  numbered : ∀ (i : Nat) (function : Function), b.functions[i]? = some function →
    function.id = ⟨i⟩
  recorded : ∀ e ∈ events, ∀ id, e.reply.function? = some id → id.index < b.functions.size
  /-- Shared operations have numbers of functions, and no two of them the same. -/
  bounded : ∀ key id, b.operations.lookup key = some id → id.index < b.functions.size
  distinct : ∀ key key' id, b.operations.lookup key = some id →
    b.operations.lookup key' = some id → key = key'
  shared : ∀ e ∈ events, ∀ key, e.request.key? = some key →
    ∃ id, e.reply.function? = some id ∧ b.operations.lookup key = some id
  unshared : ∀ e ∈ events, e.request.declares →
    ∃ id, e.reply.function? = some id ∧ ∀ key, b.operations.lookup key ≠ some id
  separates : events.Pairwise fun e e' => e.request.declares ∨ e'.request.declares →
    e.reply.function? ≠ e'.reply.function?
  created : ∀ (i : Nat) (function : Function), b.functions[i]? = some function →
    ∃ before event after, events = before ++ event :: after ∧
      CreatedAt i function before event after
  loops : ∀ e ∈ events, e.request = .newLoop → ∃ id, e.reply = .loop id
  loops_eq : events.filterMap (·.reply.loop?) =
    loopsUpTo (events.filterMap (·.reply.loop?)).length
  nextLoop_eq : b.nextLoop = .ofNat (events.filterMap (·.reply.loop?)).length

namespace Account

/-- Before the first request there is nothing to account for. -/
theorem nil : Account [] {} where
  numbered i function h := by simp at h
  recorded e he := absurd he List.not_mem_nil
  bounded key id h := by cases h
  distinct key key' id h := by cases h
  shared e he := absurd he List.not_mem_nil
  unshared e he := absurd he List.not_mem_nil
  separates := .nil
  created i function h := by simp at h
  loops e he := absurd he List.not_mem_nil
  loops_eq := rfl
  nextLoop_eq := rfl

section

variable {events : List Event} {event : Event} {b b' : Builder} (h : Account events b)
  (hstep : Step b event b')

include h

/-- A fresh number is in no reply so far. -/
theorem ne_fresh {e : Event} (he : e ∈ events) : e.reply.function? ≠ some b.fresh := fun hreply =>
  Nat.lt_irrefl _ (h.recorded e he b.fresh hreply)

/-- No shared operation has the fresh number. -/
theorem lookup_ne_fresh (key : OperationKey) : b.operations.lookup key ≠ some b.fresh :=
  fun hlookup => Nat.lt_irrefl _ (h.bounded key b.fresh hlookup)

include hstep

/-- Functions keep their positions as numbers. -/
theorem numbered_step {i : Nat} {function : Function} (hi : b'.functions[i]? = some function) :
    function.id = ⟨i⟩ := by
  rcases hstep.function_cases hi with ⟨old, hold, rfl⟩ | ⟨-, -, signature, -, rfl⟩
  · exact h.numbered i old hold
  · rfl

/-- The new reply names a function that is there. -/
theorem recorded_step {id : FunctionId} (hreply : event.reply.function? = some id) :
    id.index < b'.functions.size := by
  rcases hstep.reply_cases hreply with ⟨rfl, hsize⟩ | ⟨key, hlookup⟩
  · rw [hsize]
    exact Nat.lt_succ_self _
  · exact Nat.lt_of_lt_of_le (h.bounded key id hlookup) hstep.size_le

theorem bounded_step {key : OperationKey} {id : FunctionId}
    (hlookup : b'.operations.lookup key = some id) : id.index < b'.functions.size := by
  rcases hstep.lookup_cases hlookup with hold | ⟨-, rfl, hsize⟩
  · exact Nat.lt_of_lt_of_le (h.bounded key id hold) hstep.size_le
  · rw [hsize]
    exact Nat.lt_succ_self _

theorem distinct_step {key key' : OperationKey} {id : FunctionId}
    (hlookup : b'.operations.lookup key = some id)
    (hlookup' : b'.operations.lookup key' = some id) : key = key' := by
  rcases hstep.lookup_cases hlookup with hold | ⟨hkey, rfl, -⟩ <;>
    rcases hstep.lookup_cases hlookup' with hold' | ⟨hkey', hfresh, -⟩
  -- A number of before is not fresh, so both keys are of before or both are that of the request.
  · exact h.distinct key key' id hold hold'
  · exact absurd (hfresh ▸ hold) (h.lookup_ne_fresh key)
  · exact absurd hold' (h.lookup_ne_fresh key')
  · exact Option.some.inj (hkey.symm.trans hkey')

/-- The new reply and an earlier one agree only on a shared operation. -/
theorem separates_step {e : Event} (he : e ∈ events)
    (hdeclares : e.request.declares ∨ event.request.declares) :
    e.reply.function? ≠ event.reply.function? := by
  intro heq
  rcases hdeclares with hold | hnew
  · -- The number is not fresh any more, and no shared operation has it.
    obtain ⟨id, hreply, hunshared⟩ := h.unshared e he hold
    rcases hstep.reply_cases (heq.symm.trans hreply) with ⟨rfl, -⟩ | ⟨key, hlookup⟩
    · exact h.ne_fresh he hreply
    · exact hunshared key hlookup
  · exact h.ne_fresh he (heq.trans (hstep.reply_of_declares hnew).1)

/-- Every function still has the event that created it, with the bodies that came after it. -/
theorem created_step {i : Nat} {function : Function} (hi : b'.functions[i]? = some function) :
    ∃ before e after, events ++ [event] = before ++ e :: after ∧
      CreatedAt i function before e after := by
  rcases hstep.function_cases hi with ⟨old, hold, rfl⟩ | ⟨rfl, hreply, signature, hsignature, rfl⟩
  · -- The event that created it is the same; what comes after it is longer by one request.
    obtain ⟨before, e, after, rfl, hcreated⟩ := h.created i old hold
    refine ⟨before, e, after ++ [event], by simp, hcreated.reply, hcreated.first,
      hcreated.signature, ?_⟩
    rw [List.map_append, List.map_singleton, lastBody?_append, ← hcreated.body]
  -- A new function has a number that no earlier event had, and no body yet.
  · exact ⟨events, event, [], rfl, hreply, fun e he => h.ne_fresh he, hsignature, rfl⟩

/-- The loops so far are numbered in order, and the counter has the next number. -/
theorem loops_step :
    (events ++ [event]).filterMap (·.reply.loop?) =
        loopsUpTo ((events ++ [event]).filterMap (·.reply.loop?)).length ∧
      b'.nextLoop = .ofNat ((events ++ [event]).filterMap (·.reply.loop?)).length := by
  rw [filterMap_loop?_append]
  -- The number that is given out is the count of loops so far, reduced to 32 bits.
  rcases hstep.loop?_cases with ⟨hnone, hnext⟩ | ⟨hsome, hnext⟩
  · rw [hnone, Option.toList_none, List.append_nil]
    exact ⟨h.loops_eq, hnext.trans h.nextLoop_eq⟩
  · rw [hsome, Option.toList_some, List.length_append, List.length_singleton, loopsUpTo_succ,
      ← h.loops_eq, ← h.nextLoop_eq, hnext, h.nextLoop_eq, UInt32.ofNat_add]
    exact ⟨rfl, rfl⟩

/-- **The account is kept from one request to the next.** -/
theorem step : Account (events ++ [event]) b' where
  numbered _ _ := h.numbered_step hstep
  recorded e he id hreply := by
    rcases List.mem_append.mp he with hold | hnew
    · exact Nat.lt_of_lt_of_le (h.recorded e hold id hreply) hstep.size_le
    · rw [List.mem_singleton.mp hnew] at hreply
      exact h.recorded_step hstep hreply
  bounded _ _ := h.bounded_step hstep
  distinct _ _ _ := h.distinct_step hstep
  shared e he key hkey := by
    rcases List.mem_append.mp he with hold | hnew
    · obtain ⟨id, hreply, hlookup⟩ := h.shared e hold key hkey
      exact ⟨id, hreply, hstep.lookup_eq hlookup⟩
    · rw [List.mem_singleton.mp hnew] at hkey ⊢
      exact hstep.reply_of_key? hkey
  unshared e he hdeclares := by
    rcases List.mem_append.mp he with hold | hnew
    · obtain ⟨id, hreply, hunshared⟩ := h.unshared e hold hdeclares
      have hid := h.recorded e hold id hreply
      exact ⟨id, hreply, fun key => hstep.lookup_ne hid (hunshared key)⟩
    · rw [List.mem_singleton.mp hnew] at hdeclares ⊢
      obtain ⟨hreply, hoperations⟩ := hstep.reply_of_declares hdeclares
      exact ⟨b.fresh, hreply, fun key => hoperations ▸ h.lookup_ne_fresh key⟩
  separates := by
    refine List.pairwise_append.mpr ⟨h.separates, List.pairwise_singleton _ _, ?_⟩
    intro e he e' he'
    rw [List.mem_singleton.mp he']
    exact h.separates_step hstep he
  created _ _ := h.created_step hstep
  loops e he hrequest := by
    rcases List.mem_append.mp he with hold | hnew
    · exact h.loops e hold hrequest
    · rw [List.mem_singleton.mp hnew] at hrequest ⊢
      exact hstep.loop_of_newLoop hrequest
  loops_eq := (h.loops_step hstep).1
  nextLoop_eq := (h.loops_step hstep).2

end

section

variable {events : List Event} {b : Builder}

/-- The account is all that has to be known of the stores. -/
theorem orderly (h : Account events b) : Orderly events ⟨b.functions⟩ where
  numbered := h.numbered
  answers e he signature hsignature := by
    -- Who asks for a function declares one or shares one, and both are in the account.
    have hreply : ∃ id, e.reply.function? = some id := by
      rcases Request.declares_or_key? hsignature with hdeclares | ⟨key, hkey⟩
      · obtain ⟨id, hreply, -⟩ := h.unshared e he hdeclares
        exact ⟨id, hreply⟩
      · obtain ⟨id, hreply, -⟩ := h.shared e he key hkey
        exact ⟨id, hreply⟩
    obtain ⟨id, hreply⟩ := hreply
    exact ⟨id, _, hreply, Array.getElem?_eq_getElem (h.recorded e he id hreply)⟩
  shares e he e' he' key key' hkey hkey' := by
    obtain ⟨id, hreply, hlookup⟩ := h.shared e he key hkey
    obtain ⟨id', hreply', hlookup'⟩ := h.shared e' he' key' hkey'
    rw [hreply, hreply', Option.some.injEq]
    constructor
    · rintro rfl
      exact h.distinct key key' id hlookup hlookup'
    · rintro rfl
      exact Option.some.inj (hlookup.symm.trans hlookup')
  separates := h.separates
  keeps := h.created
  loops := h.loops
  loops_nodup hlength := by
    rw [h.loops_eq]
    exact nodup_loopsUpTo hlength

end

end Account

/-- Performing one request more. -/
theorem run_record_append (requests : List Request) (request : Request) (b : Builder) :
    StateT.run (m := Id) (record (requests ++ [request])) b =
      let out := StateT.run (m := Id) (record requests) b
      let last := StateT.run (m := Id) (perform request) out.2
      (out.1 ++ [⟨request, last.1⟩], last.2) := by
  unfold record
  rw [List.mapM_append]
  simp only [List.mapM_cons, List.mapM_nil, StateT.run_bind]
  rfl

/-- By induction on the last request. -/
theorem account_record (requests : List Request) :
    let out := StateT.run (m := Id) (record requests) {}
    out.1.map (·.request) = requests ∧ Account out.1 out.2 := by
  induction requests using List.reverseRecOn with
  | nil => exact ⟨rfl, .nil⟩
  | append_singleton requests request ih =>
    rw [run_record_append]
    obtain ⟨hrequests, haccount⟩ := ih
    exact ⟨by simp [hrequests], haccount.step (step_perform _ request)⟩

/-- **Numbers stand for the functions that they were given out for.** -/
theorem orderly_record (requests : List Request) :
    (run (record requests)).1.map (·.request) = requests ∧
      Orderly (run (record requests)).1 (run (record requests)).2 := by
  obtain ⟨hrequests, haccount⟩ := account_record requests
  exact ⟨hrequests, haccount.orderly⟩

/-- Requests for loops only are answered with the numbers of the counter in order. -/
theorem loops_record_replicate (n : Nat) :
    (run (record (.replicate n .newLoop))).1.filterMap (·.reply.loop?) = loopsUpTo n := by
  obtain ⟨hrequests, haccount⟩ := account_record (.replicate n .newLoop)
  have hloops := length_filterMap_loop? fun e he => haccount.loops e he
    (List.eq_of_mem_replicate (hrequests ▸ List.mem_map_of_mem he))
  have hlength := congrArg List.length hrequests
  rw [List.length_map, List.length_replicate] at hlength
  rw [hlength] at hloops
  have heq := haccount.loops_eq
  rw [hloops] at heq
  exact heq

/-- A body that is given to a number before there is a function with it is lost, and the counter
of loops starts over. -/
theorem lost_body_and_repeated_loop :
    (¬ ∀ (requests : List Request) (i : Nat) (function : Function),
      (run (record requests)).2.functions[i]? = some function →
        function.body = lastBody? ⟨i⟩ requests) ∧
    ¬ ∀ requests : List Request,
      ((run (record requests)).1.filterMap (·.reply.loop?)).Nodup := by
  constructor
  · intro h
    -- The body comes first, and the function that gets its number is declared without one.
    have hbody : none = some (Expr.block []) :=
      h [.define ⟨0⟩ (.block []), .declare "f" [] .unit] 0
        ⟨⟨0⟩, "f", .package "", none, [], .unit, none⟩ rfl
    cases hbody
  · intro h
    -- One loop more than there are numbers.
    have hnodup := h (.replicate (UInt32.size + 1) .newLoop)
    rw [loops_record_replicate] at hnodup
    exact not_nodup_loopsUpTo hnodup

end Build

end CallFolding
