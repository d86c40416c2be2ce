import CallFolding.Proofs.Pass
import CallFolding.Proofs.Walk

/-!
The folding pass child by child. Expressions come in eleven kinds, but a pass treats only calls in a
way of their own: of everything else it folds what is right inside and puts the same node around the
results. `withChildren` is that node, and a pass is then described by one statement for all kinds of
expressions (`Folds.exists_children`). An induction over expressions has one case for it.
-/

set_option autoImplicit false

namespace CallFolding

theorem Call.expr_injective {call call' : Call} (h : call.expr = call'.expr) : call = call' := by
  obtain ⟨id, receiver, args⟩ := call
  obtain ⟨id', receiver', args'⟩ := call'
  cases h
  rfl

/-! ## Nodes and their children -/

namespace Expr

/-- The expressions right inside of this one, in the order in which a pass comes to them. -/
def children (e : Expr) : List Expr :=
  e.parts.map (·.2)

/-- Two expressions each, as the arms of a branch. -/
def pairs : List Expr → List (Expr × Expr)
  | test :: result :: es => (test, result) :: pairs es
  | _ => []

/-- The same node around other children. There have to be as many as it has. -/
def withChildren : Expr → List Expr → Expr
  | const value, _ => const value
  | read name owner, _ => read name owner
  | declare name type init, es => declare name type (init.map es.headD)
  | assign name owner value, es => assign name owner (es.headD value)
  | call id receiver _, es => call id (receiver.map es.headD) (es.drop receiver.toList.length)
  | block _, es => block es
  | branch _, es => branch (pairs es)
  | loop kind id label test body, es =>
    loop kind id label (es.headD test) (body.map es.tail.headD)
  | returnFrom target value, es => returnFrom target (es.headD value)
  | breakLoop target, _ => breakLoop target
  | continueLoop target, _ => continueLoop target

/-- What holds of an expression as soon as it holds of its children holds of every expression. -/
theorem induction_on_children {motive : Expr → Prop}
    (h : ∀ e, (∀ child ∈ e.children, motive child) → motive e) (e : Expr) : motive e := by
  induction e using induction_on_parts with
  | h e ih =>
    refine h e fun child hmem => ?_
    obtain ⟨part, hpart, rfl⟩ := List.mem_map.mp hmem
    exact ih part hpart

/-- The children of a declaration: its initial value, if there is one. -/
@[simp] theorem children_declare (name : String) (type : Ty) (init : Option Expr) :
    (declare name type init).children = init.toList := by
  simp [children, parts, Function.comp_def]

/-- The children of a call: its operands, the receiver first. -/
@[simp] theorem children_call (id : FunctionId) (receiver : Option Expr) (args : List Expr) :
    (call id receiver args).children = receiver.toList ++ args := by
  simp [children, parts, Call.operands, Function.comp_def]

@[simp] theorem children_block (statements : List Expr) :
    (block statements).children = statements := by
  simp [children, parts, Function.comp_def]

/-- The children of a loop: its condition, and its body if there is one. -/
@[simp] theorem children_loop (kind : LoopKind) (id : LoopId) (label : Option String)
    (test : Expr) (body : Option Expr) :
    (loop kind id label test body).children = test :: body.toList := by
  simp [children, parts, Function.comp_def]

/-! ### Branches

The children of a branch are the conditions and results of its arms in turn. -/

theorem children_branch_cons (arm : Expr × Expr) (arms : List (Expr × Expr)) :
    (branch (arm :: arms)).children = arm.1 :: arm.2 :: (branch arms).children :=
  rfl

/-- The children of a branch are paired into its arms again. -/
theorem pairs_children (arms : List (Expr × Expr)) : pairs (branch arms).children = arms := by
  induction arms with
  | nil => rfl
  | cons arm arms ih => rw [children_branch_cons, pairs, ih]

/-- As many expressions as a branch has children come in pairs. -/
theorem exists_arms {arms : List (Expr × Expr)} {es : List Expr}
    (h : es.length = (branch arms).children.length) : ∃ arms', es = (branch arms').children := by
  induction arms generalizing es with
  | nil => exact ⟨[], List.eq_nil_of_length_eq_zero h⟩
  | cons arm arms ih =>
    rw [children_branch_cons] at h
    -- The number is even, so after a first expression there is a second one.
    rcases es with _ | ⟨test, _ | ⟨result, es⟩⟩
    · simp at h
    · simp at h
    · simp only [List.length_cons, Nat.add_right_cancel_iff] at h
      obtain ⟨arms', rfl⟩ := ih h
      exact ⟨(test, result) :: arms', rfl⟩

/-! ### Putting children in and taking them out -/

/-- Every expression is its own node around its own children. -/
theorem withChildren_children (e : Expr) : e.withChildren e.children = e := by
  cases e with
  | declare name type init => cases init <;> rfl
  | call id receiver args =>
    cases receiver <;> simp [withChildren]
  | block es => simp [withChildren]
  | branch arms => rw [withChildren, pairs_children]
  | loop kind id label test body => cases body <;> rfl
  | _ => rfl

variable {e : Expr} {es : List Expr} (h : es.length = e.children.length)

include h

/-- A node has the children that were put into it. -/
theorem children_withChildren : (e.withChildren es).children = es := by
  cases e with
  | const value => exact (List.eq_nil_of_length_eq_zero h).symm
  | read name owner => exact (List.eq_nil_of_length_eq_zero h).symm
  | declare name type init =>
    cases init with
    | none => exact (List.eq_nil_of_length_eq_zero h).symm
    | some init =>
      obtain ⟨value, rfl⟩ := List.length_eq_one_iff.mp h
      rfl
  | assign name owner value =>
    obtain ⟨value', rfl⟩ := List.length_eq_one_iff.mp h
    rfl
  | call id receiver args =>
    cases receiver with
    | none => simp [withChildren]
    | some receiver =>
      cases es with
      | nil => simp at h
      | cons receiver' args' => simp [withChildren]
  | block statements => simp [withChildren]
  -- The number of children is that of some arms, so pairing loses none of them.
  | branch arms =>
    obtain ⟨arms', rfl⟩ := exists_arms h
    rw [withChildren, pairs_children]
  | loop kind id label test body =>
    cases body with
    | none =>
      obtain ⟨test', rfl⟩ := List.length_eq_one_iff.mp h
      rfl
    | some body =>
      obtain ⟨test', body', rfl⟩ := List.length_eq_two.mp h
      rfl
  | returnFrom target value =>
    obtain ⟨value', rfl⟩ := List.length_eq_one_iff.mp h
    rfl
  | breakLoop target => exact (List.eq_nil_of_length_eq_zero h).symm
  | continueLoop target => exact (List.eq_nil_of_length_eq_zero h).symm

/-- Children that are put in replace all that were there before. -/
theorem withChildren_withChildren {es' : List Expr} :
    (e.withChildren es').withChildren es = e.withChildren es := by
  -- As many children are put in as there are, so each kind of node gets its own number of them.
  cases e with
  | declare name type init =>
    cases init with
    | none => rfl
    | some init =>
      obtain ⟨value, rfl⟩ := List.length_eq_one_iff.mp h
      rfl
  | assign name owner value =>
    obtain ⟨value', rfl⟩ := List.length_eq_one_iff.mp h
    rfl
  | call id receiver args =>
    cases receiver with
    | none => rfl
    | some receiver =>
      cases es with
      | nil => simp at h
      | cons receiver' args' => rfl
  | loop kind id label test body =>
    cases body with
    | none =>
      obtain ⟨test', rfl⟩ := List.length_eq_one_iff.mp h
      rfl
    | some body =>
      obtain ⟨test', body', rfl⟩ := List.length_eq_two.mp h
      rfl
  | returnFrom target value =>
    obtain ⟨value', rfl⟩ := List.length_eq_one_iff.mp h
    rfl
  | _ => rfl

end Expr

/-! ## Calls replaced in the children -/

section

variable {swap : Call → Literal → Prop}

/-- Calls replaced in each of a list, one by one. -/
theorem ReplacedEach.of_forall₂ {es es' : List Expr} (h : List.Forall₂ (Replaced swap) es es') :
    ReplacedEach swap es es' := by
  induction h with
  | nil => exact .nil
  | cons hfirst _ ih => exact .cons hfirst ih

/-- Calls replaced in the children of a branch are replaced in its arms. -/
theorem ReplacedArms.of_forall₂ {arms : List (Expr × Expr)} {es' : List Expr}
    (h : List.Forall₂ (Replaced swap) (Expr.branch arms).children es') :
    ReplacedArms swap arms (Expr.pairs es') := by
  induction arms generalizing es' with
  | nil =>
    cases h
    exact .nil
  | cons arm arms ih =>
    rw [Expr.children_branch_cons] at h
    obtain ⟨test', _, htest, hrest, rfl⟩ := List.forall₂_cons_left_iff.mp h
    obtain ⟨result', _, hresult, harms, rfl⟩ := List.forall₂_cons_left_iff.mp hrest
    exact .cons htest hresult (ih harms)

/-- Calls may be replaced in all the children of a node. -/
theorem Replaced.withChildren {e : Expr} {es es' : List Expr}
    (hlength : es.length = e.children.length) (h : List.Forall₂ (Replaced swap) es es') :
    Replaced swap (e.withChildren es) (e.withChildren es') := by
  cases e with
  | const value => exact .const value
  | read name owner => exact .read name owner
  | declare name type init =>
    cases init with
    | none => exact .declare name type .none
    | some init =>
      obtain ⟨value, rfl⟩ := List.length_eq_one_iff.mp hlength
      obtain ⟨value', _, hvalue, hrest, rfl⟩ := List.forall₂_cons_left_iff.mp h
      exact .declare name type (.some hvalue)
  | assign name owner value =>
    obtain ⟨value, rfl⟩ := List.length_eq_one_iff.mp hlength
    obtain ⟨value', _, hvalue, hrest, rfl⟩ := List.forall₂_cons_left_iff.mp h
    exact .assign name owner hvalue
  | call id receiver args =>
    cases receiver with
    | none => exact .call id .none (.of_forall₂ h)
    | some receiver =>
      cases h with
      | nil => simp at hlength
      | cons hreceiver hargs => exact .call id (.some hreceiver) (.of_forall₂ hargs)
  | block statements => exact .block (.of_forall₂ h)
  | branch arms =>
    -- The children of a branch come in pairs again.
    obtain ⟨arms', rfl⟩ := Expr.exists_arms hlength
    rw [Expr.withChildren, Expr.pairs_children]
    exact .branch (.of_forall₂ h)
  | loop kind id label test body =>
    cases body with
    | none =>
      obtain ⟨test', rfl⟩ := List.length_eq_one_iff.mp hlength
      obtain ⟨test', _, htest, hrest, rfl⟩ := List.forall₂_cons_left_iff.mp h
      exact .loop kind id label htest .none
    | some body =>
      obtain ⟨test', body', rfl⟩ := List.length_eq_two.mp hlength
      obtain ⟨test', _, htest, hrest, rfl⟩ := List.forall₂_cons_left_iff.mp h
      obtain ⟨body', _, hbody, _, rfl⟩ := List.forall₂_cons_left_iff.mp hrest
      exact .loop kind id label htest (.some hbody)
  | returnFrom target value =>
    obtain ⟨value, rfl⟩ := List.length_eq_one_iff.mp hlength
    obtain ⟨value', _, hvalue, hrest, rfl⟩ := List.forall₂_cons_left_iff.mp h
    exact .returnFrom target hvalue
  | breakLoop target => exact .breakLoop target
  | continueLoop target => exact .continueLoop target

end

/-! ## A pass, child by child -/

namespace Fold.Each

variable {α β : Type} {P Q : α → β → List FoldRecord → Prop} {as as' : List α} {bs bs' : List β}
  {new new' : List FoldRecord}

/-- There is one result for each of the inputs. -/
theorem length_eq (h : Each P as bs new) : bs.length = as.length :=
  h.forall₂.length_eq.symm

/-- A relation may be exchanged for another that follows from it on the inputs at hand. -/
theorem imp (h : Each P as bs new)
    (himp : ∀ a ∈ as, ∀ {b : β} {new : List FoldRecord}, P a b new → Q a b new) :
    Each Q as bs new := by
  induction h with
  | nil => exact .nil
  | cons hfirst _ ih =>
    rw [List.forall_mem_cons] at himp
    exact .cons (himp.1 hfirst) (ih himp.2)

/-- Two lists one after the other. The records follow in the same order. -/
theorem append (h : Each P as bs new) (h' : Each P as' bs' new') :
    Each P (as ++ as') (bs ++ bs') (new ++ new') := by
  induction h with
  | nil => exact h'
  | cons hfirst _ ih =>
    rw [List.append_assoc]
    exact .cons hfirst ih

theorem single {a : α} {b : β} (h : P a b new) : Each P [a] [b] new := by
  rw [← List.append_nil new]
  exact .cons h .nil

end Fold.Each

namespace Folding

section

variable (program : Program) (options : Options) (caller : FunctionId)

/-- What a pass makes of the expression `e` once it has folded its children and `node` is what is
around them. -/
inductive Completes (e node : Expr) : Expr → List FoldRecord → Prop
  | kept : e.call? = none → Completes e node node []
  | settled {call call' : Call} {e' : Expr} {last : List FoldRecord} : e = call.expr →
    node = call'.expr → call'.callee = call.callee →
    Settled program options caller call' e' last → Completes e node e' last

end

variable {program : Program} {options : Options} {caller : FunctionId}

/-- A pass over an expression that may be missing, as one over a list. -/
theorem FoldsOption.each {e e' : Option Expr} {new : List FoldRecord}
    (h : FoldsOption program options caller e e' new) :
    Fold.Each (Folds program options caller) e.toList e'.toList new := by
  cases h with
  | none => exact .nil
  | some h => exact .single h

/-- A pass over a list, child by child. -/
theorem FoldsEach.each {es es' : List Expr} {new : List FoldRecord}
    (h : FoldsEach program options caller es es' new) :
    Fold.Each (Folds program options caller) es es' new := by
  induction es generalizing es' new with
  | nil =>
    cases h
    exact .nil
  | cons e es ih =>
    cases h with
    | cons hfirst hrest => exact .cons hfirst (ih hrest)

/-- A pass over arms, as one over their tests and results in turn. -/
theorem FoldsArms.each {arms arms' : List (Expr × Expr)} {new : List FoldRecord}
    (h : FoldsArms program options caller arms arms' new) :
    Fold.Each (Folds program options caller) (Expr.branch arms).children
      (Expr.branch arms').children new := by
  induction arms generalizing arms' new with
  | nil =>
    cases h
    exact .nil
  | cons arm arms ih =>
    cases h with
    | cons htest hresult hrest => exact .cons htest (.cons hresult (ih hrest))

/-- If the expression is not a call, the node around its folded children stays. -/
theorem exists_children_of_kept {e e' : Expr} {es : List Expr} {new : List FoldRecord}
    (hcall : e.call? = none) (hnode : e.withChildren es = e')
    (h : Fold.Each (Folds program options caller) e.children es new) : ∃ es first last,
      Fold.Each (Folds program options caller) e.children es first ∧ new = first ++ last ∧
        Completes program options caller e (e.withChildren es) e' last := by
  refine ⟨es, new, [], h, (List.append_nil _).symm, ?_⟩
  rw [hnode]
  exact .kept hcall

/-- **A pass folds the children of an expression and puts the same node around them.** If that is a
call, it remains to be seen what takes its place. -/
theorem Folds.exists_children {e e' : Expr} {new : List FoldRecord}
    (h : Folds program options caller e e' new) : ∃ es first last,
      Fold.Each (Folds program options caller) e.children es first ∧ new = first ++ last ∧
        Completes program options caller e (e.withChildren es) e' last := by
  cases h with
  | const value => exact exists_children_of_kept rfl rfl .nil
  | read name owner => exact exists_children_of_kept rfl rfl .nil
  | declare name type hinit =>
    refine exists_children_of_kept rfl ?_ (by rw [Expr.children_declare]; exact hinit.each)
    cases hinit <;> rfl
  | assign name owner hvalue => exact exists_children_of_kept rfl rfl (.single hvalue)
  -- The operands come first, and what is settled about the call itself comes last.
  | @call id receiver receiver' args args' _ _ _ _ hreceiver hargs hsettled =>
    have hcall : Expr.call id receiver args = Call.expr ⟨id, receiver, args⟩ := rfl
    have hcallee : Call.callee ⟨id, receiver', args'⟩ = Call.callee ⟨id, receiver, args⟩ := rfl
    refine ⟨receiver'.toList ++ args', _, _, ?_, (List.append_assoc _ _ _).symm,
      .settled hcall ?_ hcallee hsettled⟩
    · rw [Expr.children_call]
      exact hreceiver.each.append hargs.each
    · cases hreceiver <;> rfl
  | block hstatements =>
    exact exists_children_of_kept rfl rfl (by rw [Expr.children_block]; exact hstatements.each)
  | branch harms =>
    refine exists_children_of_kept rfl ?_ harms.each
    rw [Expr.withChildren, Expr.pairs_children]
  | loop kind id label htest hbody =>
    refine exists_children_of_kept rfl ?_
      (by rw [Expr.children_loop]; exact .cons htest hbody.each)
    cases hbody <;> rfl
  | returnFrom target hvalue => exact exists_children_of_kept rfl rfl (.single hvalue)
  | breakLoop target => exact exists_children_of_kept rfl rfl .nil
  | continueLoop target => exact exists_children_of_kept rfl rfl .nil

end Folding

end CallFolding
