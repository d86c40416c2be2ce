import CallFolding.Proofs.Execution
import CallFolding.Sample
import Mathlib.Algebra.BigOperators.Intervals
import Mathlib.Algebra.BigOperators.Ring.Finset

/-!
The sample with loops: what its functions compute, and in how many steps.

Each body is followed through its states. A state is named by what the variables stand for in `ℤ`,
so an invariant of a loop is an equation between states and nothing has to be said about overflow:
the counters stay in range because the bounds they are tested against are, and the sums are only
reduced when they are returned.
-/

set_option autoImplicit false

namespace CallFolding.Samples

open Setting
open Literal (num)

/-! ## Counters and sums -/

/-- Whether one variable is below another. -/
def below (f less : FunctionId) (index bound : String) : Expr :=
  .call less none [.read index f, .read bound f]

/-- The sum of two expressions, by the operation of this number. -/
def sum (plus : FunctionId) (x y : Expr) : Expr :=
  .call plus (some x) [y]

/-- Adds an amount to a variable. -/
def increase (f plus : FunctionId) (name : String) (amount : Expr) : Expr :=
  .assign name f (sum plus (.read name f) amount)

section

variable {setting : Setting} {room : Nat} {f less plus : FunctionId}
  {s s' : Scope.Activation Literal} {x y : Expr} {m n : Int}

/-- A sum stands for the sum of what its operands stand for. -/
theorem takes_sum (hplus : setting.Combines plus "plus")
    (hx : setting.Takes room x s 0 (.ok (num m)) s)
    (hy : setting.Takes room y s 0 (.ok (num n)) s) :
    setting.Takes room (sum plus x y) s 0 (.ok (num (m + n))) s :=
  hplus.takes rfl hx hy (dispatch_num .plus (by decide) rfl)

/-- The variable then stands for the sum. -/
theorem takes_increase (hplus : setting.Combines plus "plus") {name : String}
    (hname : s.lookup name = some (num m)) (hamount : setting.Takes room x s 0 (.ok (num n)) s)
    (hassign : s.assign name (num (m + n)) = .ok s') :
    setting.Takes room (increase f plus name x) s 0 (.ok (num (m + n))) s' :=
  takes_assign f (takes_sum hplus (takes_read f hname) hamount) hassign

theorem takes_start {name : String} (hdefine : s.define name (num 0) = .ok s') :
    setting.Takes room (.declare name .int (some (.int 0))) s 0 (.ok (num 0)) s' :=
  takes_declare .int (takes_const (num 0) s) hdefine

/-- A counter that has not passed its bound is in range, since the bound is. -/
theorem takes_below (hless : setting.Combines less "less") {index bound : String} {i : Nat}
    (hindex : s.lookup index = some (num i)) (hbound : s.lookup bound = some (num n))
    (hn : (Window.signed 32).Holds n) (hi : i ≤ n.toNat) :
    setting.Takes room (below f less index bound) s 0
      (.ok (.boolean (decide (i < n.toNat)))) s := by
  have hholds : (Window.signed 32).Holds i := by
    simp only [Window.Holds, Window.signed] at hn ⊢
    omega
  have hdecide : decide (i < n.toNat) = decide ((i : Int) < n) := by
    rw [decide_eq_decide]
    omega
  rw [hdecide]
  exact hless.takes rfl (takes_read f hindex) (takes_read f hbound) (dispatch_less hholds hn)

end

/-- The frames of a loop and of a pass through its body, with nothing in them. -/
def inPass (s : Scope.Activation Literal) : Scope.Activation Literal :=
  .inside .empty (.inside .empty s)

/-- The operands of a function of two integers. -/
def operandPair (a b : Int) : Scope.Activation Literal :=
  .only ⟨[("b", num b), ("a", num a)], (by decide : ["b", "a"].Nodup)⟩

/-! ## Multiplying by adding up -/

/-- One pass adds the first factor once and counts it. -/
def multiplyPass (f plus : FunctionId) : List Expr :=
  [increase f plus "res" (.read "a" f), increase f plus "i" (.int 1)]

/-- The body that `multiply` gives to the function it declares. -/
def multiplyBody (f less plus : FunctionId) (loop : LoopId) : Expr :=
  .block
    [.declare "i" .int (some (.int 0)),
      .declare "res" .int (some (.int 0)),
      whileLoop loop (below f less "i" "b") (multiplyPass f plus),
      .returnFrom f (.read "res" f)]

/-- The product so far and how often the first factor was added. -/
def multiplying (a b res i : Int) : Scope.Activation Literal :=
  .inside ⟨[("res", num res), ("i", num i)], (by decide : ["res", "i"].Nodup)⟩ (operandPair a b)

section

variable {setting : Setting} {room : Nat} {f less plus : FunctionId} {a b : Int}

/-- A pass adds the first factor and one to the counter, without a step of its own. -/
theorem takes_multiplyPass (hplus : setting.Combines plus "plus") (res i : Int) :
    setting.TakesEach room (multiplyPass f plus)
      (inPass (multiplying a b res i)) 0 (.ok (num (i + 1)))
      (inPass (multiplying a b (res + a) (i + 1))) := by
  have hres : setting.Takes room (increase f plus "res" (.read "a" f))
      (inPass (multiplying a b res i)) 0 (.ok (num (res + a)))
      (inPass (multiplying a b (res + a) i)) :=
    takes_increase hplus rfl (takes_read f rfl) rfl
  apply takesEach_cons_zero hres
  apply takesEach_single
  exact takes_increase hplus rfl (takes_const (num 1) _) rfl

/-- Before round `i`, the first factor was added `i` times. -/
theorem takes_multiplyLoop (hless : setting.Combines less "less")
    (hplus : setting.Combines plus "plus") (hb : (Window.signed 32).Holds b) (loop : LoopId) :
    setting.Takes room (whileLoop loop (below f less "i" "b") (multiplyPass f plus))
      (multiplying a b 0 0) b.toNat (.ok .unit) (multiplying a b (a * b.toNat) b.toNat) := by
  have htest : ∀ i ≤ b.toNat, setting.Takes room (below f less "i" "b")
      (.inside .empty (multiplying a b (a * i) i)) 0 (.ok (.boolean (decide (i < b.toNat))))
      (.inside .empty (multiplying a b (a * i) i)) := by
    intro i hi
    exact takes_below hless rfl rfl hb hi
  have hpass : ∀ i < b.toNat, ∃ value frame, setting.TakesEach room
      (Expr.statements (some (.block (multiplyPass f plus))))
      (.inside .empty (.inside .empty (multiplying a b (a * i) i))) 0 (.ok value)
      (.inside frame (.inside .empty (multiplying a b (a * (i + 1 : Nat)) (i + 1 : Nat)))) := by
    intro i hi
    have hnext : a * (i + 1 : Nat) = a * i + a := by
      rw [Nat.cast_succ, Int.mul_add, Int.mul_one]
    rw [hnext, Nat.cast_succ]
    exact ⟨_, _, takes_multiplyPass hplus (a * i) i⟩
  -- Each round takes the one step of the loop, so there are as many steps as rounds.
  have hloop := takes_loop loop none b.toNat (fun i : Nat => multiplying a b (a * i) i)
    (fun _ => 0) htest hpass
  rw [Nat.cast_zero, Int.mul_zero, ← Finset.card_eq_sum_ones, Finset.card_range] at hloop
  exact hloop

/-- The body counts a step for each time the first factor is added. -/
theorem takes_multiplyBody (hless : setting.Combines less "less")
    (hplus : setting.Combines plus "plus") (hb : (Window.signed 32).Holds b) (loop : LoopId) :
    setting.Takes room (multiplyBody f less plus loop) (operandPair a b) b.toNat
      (.error (.returned f (num (a * b.toNat)))) (operandPair a b) := by
  have hi : setting.Takes room (.declare "i" .int (some (.int 0)))
      (.inside .empty (operandPair a b)) 0 (.ok (num 0))
      (.inside ⟨[("i", num 0)], List.nodup_singleton _⟩ (operandPair a b)) :=
    takes_start rfl
  have hres : setting.Takes room (.declare "res" .int (some (.int 0)))
      (.inside ⟨[("i", num 0)], List.nodup_singleton _⟩ (operandPair a b)) 0 (.ok (num 0))
      (multiplying a b 0 0) :=
    takes_start rfl
  have hreturn : setting.Takes room (.returnFrom f (.read "res" f))
      (multiplying a b (a * b.toNat) b.toNat) 0 (.error (.returned f (num (a * b.toNat))))
      (multiplying a b (a * b.toNat) b.toNat) :=
    takes_returnFrom f (takes_read f rfl)
  apply takes_block
  apply takesEach_cons_zero hi
  apply takesEach_cons_zero hres
  exact takesEach_cons (takes_multiplyLoop hless hplus hb loop) (takesEach_single hreturn)

end

/-! ## A loop in a loop -/

/-- The pass of the inner loop adds both counters up. -/
def innerPass (f plus : FunctionId) : List Expr :=
  [increase f plus "r" (sum plus (.read "i" f) (.read "j" f)), increase f plus "j" (.int 1)]

/-- The pass of the outer loop runs the inner one, which does not start over. -/
def outerPass (f less plus : FunctionId) (inner : LoopId) : List Expr :=
  [whileLoop inner (below f less "j" "b") (innerPass f plus), increase f plus "i" (.int 1)]

/-- The body that `nestedLoop` gives to the function it declares. -/
def nestedBody (f less plus : FunctionId) (outer inner : LoopId) : Expr :=
  .block
    [.declare "r" .int (some (.int 0)),
      .declare "i" .int (some (.int 0)),
      .declare "j" .int (some (.int 0)),
      whileLoop outer (below f less "i" "a") (outerPass f less plus inner),
      .returnFrom f (.read "r" f)]

/-- The sum so far and the two counters. -/
def nesting (a b r i j : Int) : Scope.Activation Literal :=
  .inside ⟨[("j", num j), ("i", num i), ("r", num r)], (by decide : ["j", "i", "r"].Nodup)⟩
    (operandPair a b)

/-- The inner loop after `t` rounds. -/
def inner (a b r i : Int) (start t : Nat) : Scope.Activation Literal :=
  nesting a b (r + ∑ u ∈ Finset.range t, (i + (start + u : Nat))) i (start + t : Nat)

theorem inner_zero (a b r i : Int) (start : Nat) :
    inner a b r i start 0 = nesting a b r i start := by
  rw [inner, Finset.sum_range_zero, add_zero, Nat.add_zero]

/-- One more round of the inner loop adds one more pair of counters. -/
theorem inner_succ (a b r i : Int) (start t : Nat) : inner a b r i start (t + 1) =
    nesting a b (r + ∑ u ∈ Finset.range t, (i + (start + u : Nat)) + (i + (start + t : Nat))) i
      ((start + t : Nat) + 1) := by
  rw [inner, Finset.sum_range_succ, ← add_assoc r, ← Nat.add_assoc start, Nat.cast_succ]

section

variable {setting : Setting} {room : Nat} {f less plus : FunctionId} {a b : Int}

/-- A pass of the inner loop takes no step of its own. -/
theorem takes_innerPass (hplus : setting.Combines plus "plus") (r i j : Int) :
    setting.TakesEach room (innerPass f plus) (inPass (inPass (nesting a b r i j))) 0
      (.ok (num (j + 1))) (inPass (inPass (nesting a b (r + (i + j)) i (j + 1)))) := by
  have hr : setting.Takes room (increase f plus "r" (sum plus (.read "i" f) (.read "j" f)))
      (inPass (inPass (nesting a b r i j))) 0 (.ok (num (r + (i + j))))
      (inPass (inPass (nesting a b (r + (i + j)) i j))) :=
    takes_increase hplus rfl (takes_sum hplus (takes_read f rfl) (takes_read f rfl)) rfl
  apply takesEach_cons_zero hr
  apply takesEach_single
  exact takes_increase hplus rfl (takes_const (num 1) _) rfl

/-- The inner loop starts with the counter as it was left the last time. -/
theorem takes_innerLoop (hless : setting.Combines less "less")
    (hplus : setting.Combines plus "plus") (hb : (Window.signed 32).Holds b) (loop : LoopId)
    (r i : Int) {start rounds : Nat} (hrounds : start + rounds = b.toNat) :
    setting.Takes room (whileLoop loop (below f less "j" "b") (innerPass f plus))
      (inPass (nesting a b r i start)) rounds (.ok .unit)
      (inPass (inner a b r i start rounds)) := by
  have htest : ∀ t ≤ rounds, setting.Takes room (below f less "j" "b")
      (.inside .empty (inPass (inner a b r i start t))) 0 (.ok (.boolean (decide (t < rounds))))
      (.inside .empty (inPass (inner a b r i start t))) := by
    intro t ht
    -- The rounds are counted from where the counter starts.
    have hdecide : decide (t < rounds) = decide (start + t < b.toNat) := by
      rw [decide_eq_decide]
      omega
    rw [hdecide]
    exact takes_below hless rfl rfl hb (by omega)
  have hpass : ∀ t < rounds, ∃ value frame, setting.TakesEach room
      (Expr.statements (some (.block (innerPass f plus)))) (inPass (inPass (inner a b r i start t)))
      0 (.ok value) (.inside frame (.inside .empty (inPass (inner a b r i start (t + 1))))) := by
    intro t ht
    rw [inner_succ]
    exact ⟨_, _, takes_innerPass hplus _ i (start + t : Nat)⟩
  have hloop := takes_loop loop none rounds (fun t => inPass (inner a b r i start t))
    (fun _ => 0) htest hpass
  rw [inner_zero, ← Finset.card_eq_sum_ones, Finset.card_range] at hloop
  exact hloop

/-- A pass of the outer loop takes the rounds that the inner counter has left. -/
theorem takes_outerPass (hless : setting.Combines less "less")
    (hplus : setting.Combines plus "plus") (hb : (Window.signed 32).Holds b) (loop : LoopId)
    {r r' i : Int} {start rounds : Nat} (hrounds : start + rounds = b.toNat)
    (hr : r' = r + ∑ u ∈ Finset.range rounds, (i + (start + u : Nat))) :
    setting.TakesEach room (outerPass f less plus loop) (inPass (nesting a b r i start)) rounds
      (.ok (num (i + 1))) (inPass (nesting a b r' (i + 1) b.toNat)) := by
  have hi : setting.Takes room (increase f plus "i" (.int 1))
      (inPass (inner a b r i start rounds)) 0 (.ok (num (i + 1)))
      (inPass (nesting a b r' (i + 1) b.toNat)) := by
    rw [inner, hrounds, ← hr]
    exact takes_increase hplus rfl (takes_const (num 1) _) rfl
  exact takesEach_cons (takes_innerLoop hless hplus hb loop r i hrounds) (takesEach_single hi)

/-- The outer loop after `k` rounds. The inner loop runs in the first of them only: after that its
counter has come to its bound. -/
def outer (a b : Int) (k : Nat) : Scope.Activation Literal :=
  nesting a b (if k = 0 then 0 else ∑ u ∈ Finset.range b.toNat, u : Nat) k
    (if k = 0 then 0 else b.toNat : Nat)

theorem outer_zero (a b : Int) : outer a b 0 = nesting a b 0 0 (0 : Nat) :=
  rfl

theorem outer_succ (a b : Int) (k : Nat) : outer a b (k + 1) =
    nesting a b (∑ u ∈ Finset.range b.toNat, u : Nat) (k + 1 : Nat) b.toNat :=
  rfl

/-- In the first round the inner loop runs from zero to its bound. -/
theorem takes_firstRound (hless : setting.Combines less "less")
    (hplus : setting.Combines plus "plus") (hb : (Window.signed 32).Holds b) (loop : LoopId) :
    setting.TakesEach room (outerPass f less plus loop) (inPass (outer a b 0)) b.toNat
      (.ok (num (0 + 1))) (inPass (outer a b 1)) := by
  rw [outer_zero, outer_succ]
  apply takes_outerPass hless hplus hb loop (Nat.zero_add b.toNat)
  simp only [zero_add, Nat.cast_sum]

/-- In the later ones its counter is at the bound already. -/
theorem takes_laterRound (hless : setting.Combines less "less")
    (hplus : setting.Combines plus "plus") (hb : (Window.signed 32).Holds b) (loop : LoopId)
    (k : Nat) :
    setting.TakesEach room (outerPass f less plus loop) (inPass (outer a b (k + 1))) 0
      (.ok (num ((k + 1 : Nat) + 1))) (inPass (outer a b (k + 2))) := by
  rw [outer_succ, outer_succ]
  apply takes_outerPass hless hplus hb loop (Nat.add_zero b.toNat)
  rw [Finset.sum_range_zero, add_zero]

/-- The rounds of the outer loop, and those of the inner one in the first of them. -/
theorem takes_outerLoop (hless : setting.Combines less "less")
    (hplus : setting.Combines plus "plus") (ha : (Window.signed 32).Holds a)
    (hb : (Window.signed 32).Holds b) (loop inner : LoopId) :
    setting.Takes room (whileLoop loop (below f less "i" "a") (outerPass f less plus inner))
      (nesting a b 0 0 0) (if a ≤ 0 then 0 else a.toNat + b.toNat) (.ok .unit)
      (outer a b a.toNat) := by
  have htest : ∀ k ≤ a.toNat, setting.Takes room (below f less "i" "a")
      (.inside .empty (outer a b k)) 0 (.ok (.boolean (decide (k < a.toNat))))
      (.inside .empty (outer a b k)) := by
    intro k hk
    exact takes_below hless rfl rfl ha hk
  have hpass : ∀ k < a.toNat, ∃ value frame, setting.TakesEach room
      (Expr.statements (some (.block (outerPass f less plus inner)))) (inPass (outer a b k))
      (if k = 0 then b.toNat else 0) (.ok value)
      (.inside frame (.inside .empty (outer a b (k + 1)))) := by
    intro k hk
    cases k with
    | zero => exact ⟨_, _, takes_firstRound hless hplus hb inner⟩
    | succ k => exact ⟨_, _, takes_laterRound hless hplus hb inner k⟩
  have hsteps : ∑ k ∈ Finset.range a.toNat, ((if k = 0 then b.toNat else 0) + 1) =
      if a ≤ 0 then 0 else a.toNat + b.toNat := by
    by_cases hle : a ≤ 0
    · rw [if_pos hle, Int.toNat_of_nonpos hle, Finset.sum_range_zero]
    -- There is a first round, and the ones after it only count themselves.
    · obtain ⟨q, hq⟩ : ∃ q, a.toNat = q + 1 := ⟨a.toNat - 1, by omega⟩
      have hlater : ∑ k ∈ Finset.range q, ((if k + 1 = 0 then b.toNat else 0) + 1) = q := by
        simp
      rw [if_neg hle, hq, Finset.sum_range_succ', hlater, if_pos rfl]
      omega
  rw [← hsteps]
  exact takes_loop loop none a.toNat (outer a b) (fun k => if k = 0 then b.toNat else 0) htest hpass

theorem sum_range_eq (n : Nat) : ((∑ u ∈ Finset.range n, u : Nat) : Int) = n * (n - 1) / 2 := by
  rw [Finset.sum_range_id]
  cases n with
  | zero => rfl
  | succ n =>
    rw [Nat.add_sub_cancel, Nat.cast_succ, Int.add_sub_cancel]
    norm_cast

/-- The body counts the rounds of both loops. -/
theorem takes_nestedBody (hless : setting.Combines less "less")
    (hplus : setting.Combines plus "plus") (ha : (Window.signed 32).Holds a)
    (hb : (Window.signed 32).Holds b) (loop inner : LoopId) :
    setting.Takes room (nestedBody f less plus loop inner) (operandPair a b)
      (if a ≤ 0 then 0 else a.toNat + b.toNat)
      (.error (.returned f (num (if a ≤ 0 then 0 else b.toNat * (b.toNat - 1) / 2))))
      (operandPair a b) := by
  have hr : setting.Takes room (.declare "r" .int (some (.int 0)))
      (.inside .empty (operandPair a b)) 0 (.ok (num 0))
      (.inside ⟨[("r", num 0)], List.nodup_singleton _⟩ (operandPair a b)) :=
    takes_start rfl
  have hi : setting.Takes room (.declare "i" .int (some (.int 0)))
      (.inside ⟨[("r", num 0)], List.nodup_singleton _⟩ (operandPair a b)) 0 (.ok (num 0))
      (.inside ⟨[("i", num 0), ("r", num 0)], (by decide : ["i", "r"].Nodup)⟩ (operandPair a b)) :=
    takes_start rfl
  have hj : setting.Takes room (.declare "j" .int (some (.int 0)))
      (.inside ⟨[("i", num 0), ("r", num 0)], (by decide : ["i", "r"].Nodup)⟩ (operandPair a b)) 0
      (.ok (num 0)) (nesting a b 0 0 0) :=
    takes_start rfl
  -- Without a round of the outer loop the sum is as it was at the start.
  have hlookup : (outer a b a.toNat).lookup "r" =
      some (num (if a ≤ 0 then 0 else b.toNat * (b.toNat - 1) / 2)) := by
    by_cases hle : a ≤ 0
    · rw [if_pos hle, Int.toNat_of_nonpos hle]
      rfl
    · obtain ⟨q, hq⟩ : ∃ q, a.toNat = q + 1 := ⟨a.toNat - 1, by omega⟩
      rw [if_neg hle, hq, ← sum_range_eq]
      rfl
  have hreturn : setting.Takes room (.returnFrom f (.read "r" f)) (outer a b a.toNat) 0
      (.error (.returned f (num (if a ≤ 0 then 0 else b.toNat * (b.toNat - 1) / 2))))
      (outer a b a.toNat) :=
    takes_returnFrom f (takes_read f hlookup)
  -- Three declarations without steps, then the loop, then the return.
  apply takes_block
  apply takesEach_cons_zero hr
  apply takesEach_cons_zero hi
  apply takesEach_cons_zero hj
  exact takesEach_cons (takes_outerLoop hless hplus ha hb loop inner) (takesEach_single hreturn)

end

/-! ## The functions of the sample -/

/-- A function of two integers, local to the first one. -/
def pairFunction (id : FunctionId) (name : String) (body : Expr) : Function :=
  ⟨id, name, .function ⟨0⟩, none, [⟨"a", .int⟩, ⟨"b", .int⟩], .int, some body⟩

/-- Calls come to what the body returns, where there is room for it. -/
theorem settles_of_takes {setting : Setting} {id : FunctionId} {name : String} {body : Expr}
    {a b : Int32} {steps : Nat} {n : Int} {s : Scope.Activation Literal}
    (hfound : setting.program.function? id = some (pairFunction id name body))
    (hmarked : (pairFunction id name body).isMarked setting.marker)
    (hdepth : 1 ≤ setting.limits.depth)
    (hbody : ∀ room, setting.Takes room body (operandPair a.toInt b.toInt) steps
      (.error (.returned id (num n))) s) :
    setting.Settles ⟨id, none, [.const (.int a), .const (.int b)]⟩ (steps ≤ setting.limits.steps) n
      (.steps setting.limits.steps) (min steps (setting.limits.steps + 1)) := by
  obtain ⟨room, hroom⟩ : ∃ room, setting.limits.room 0 = room + 1 :=
    ⟨setting.limits.depth - 1, by rw [Limits.room]; omega⟩
  -- The operands are bound in order, so the last one is on top.
  have hbindings : [("b", num b.toInt), ("a", num a.toInt)] =
      ((pairFunction id name body).operandNames.zip [.int a, .int b]).reverse := by
    rw [Literal.num_toInt, Literal.num_toInt]
    rfl
  have hactivate : Run.Costs setting.limits
      (activate (pairFunction id name body) [.int a, .int b] (setting.evalAt room body)) steps
      (.ok (num n)) :=
    costs_activate hbindings (hbody room) fun _ => if_pos rfl
  have hcosts : Run.Costs setting.limits (setting.evalAt (room + 1)
      (Call.expr ⟨id, none, [.const (.int a), .const (.int b)]⟩)) steps (.ok (num n)) :=
    costs_call ⟨hfound, rfl, if_pos hmarked, rfl⟩ rfl hactivate
  rw [← hroom] at hcosts
  have heval := evalCallFrom_of_costs hcosts
  rw [Settles]
  by_cases hsteps : steps ≤ setting.limits.steps
  · rw [if_pos hsteps] at heval ⊢
    rw [Nat.min_eq_left (by omega)]
    exact ⟨num n, heval, Literal.isResidue_num n⟩
  · rw [if_neg hsteps] at heval ⊢
    rw [Nat.min_eq_right (by omega)]
    exact heval

/-- The sample under the usual marker. -/
def looping (limits : Limits) : Setting :=
  ⟨loops.run.2, "eval", limits⟩

theorem combines_less (limits : Limits) : (looping limits).Combines ⟨3⟩ "less" :=
  ⟨_, rfl, rfl, rfl, rfl, rfl, fun _ _ => rfl⟩

theorem combines_plus (limits : Limits) : (looping limits).Combines ⟨4⟩ "plus" :=
  ⟨_, rfl, rfl, rfl, rfl, rfl, fun _ _ => rfl⟩

theorem function?_multiply (limits : Limits) : (looping limits).program.function? ⟨2⟩ =
    some (pairFunction ⟨2⟩ "evalMultiply" (multiplyBody ⟨2⟩ ⟨3⟩ ⟨4⟩ ⟨0⟩)) :=
  rfl

theorem function?_nested (limits : Limits) : (looping limits).program.function? ⟨5⟩ =
    some (pairFunction ⟨5⟩ "evalNestedLoop" (nestedBody ⟨5⟩ ⟨3⟩ ⟨4⟩ ⟨1⟩ ⟨2⟩)) :=
  rfl

/-- **Loops compute their closed forms in as many steps as they make rounds.** The product is added
up in one round for each time, and where the two loops are nested the inner one runs only once, so
that its rounds and those of the outer one are added up. Beyond the limit on steps the call is
stopped one step later. -/
theorem settles_loops (a b : Int32) (limits : Limits) (hdepth : 1 ≤ limits.depth) :
    let p := b.toInt.toNat
    let rounds := if a.toInt ≤ 0 then 0 else a.toInt.toNat + p
    (∃ call, loops.run.2.callOf? "evalMultiply" [.int a, .int b] = some call ∧
      (looping limits).Settles call (p ≤ limits.steps) (a.toInt * p) (.steps limits.steps)
        (min p (limits.steps + 1))) ∧
    ∃ call, loops.run.2.callOf? "evalNestedLoop" [.int a, .int b] = some call ∧
      (looping limits).Settles call (rounds ≤ limits.steps)
        (if a.toInt ≤ 0 then 0 else p * (p - 1) / 2) (.steps limits.steps)
        (min rounds (limits.steps + 1)) := by
  intro p rounds
  have hless := combines_less limits
  have hplus := combines_plus limits
  -- The operands are integers of 32 bits, so the counters never go beyond them.
  have hholds : ∀ v : Int32, (Window.signed 32).Holds v.toInt := fun v =>
    ⟨v.le_toInt, v.toInt_lt⟩
  constructor
  · refine ⟨⟨⟨2⟩, none, [.const (.int a), .const (.int b)]⟩, rfl, ?_⟩
    have hmarked : "eval".toList.isPrefixOf "evalMultiply".toList := by decide +kernel
    apply settles_of_takes (function?_multiply limits) hmarked hdepth
    intro room
    exact takes_multiplyBody hless hplus (hholds b) ⟨0⟩
  · refine ⟨⟨⟨5⟩, none, [.const (.int a), .const (.int b)]⟩, rfl, ?_⟩
    have hmarked : "eval".toList.isPrefixOf "evalNestedLoop".toList := by decide +kernel
    apply settles_of_takes (function?_nested limits) hmarked hdepth
    intro room
    exact takes_nestedBody hless hplus (hholds a) (hholds b) ⟨1⟩ ⟨2⟩

/-- Ten steps are enough for the product of five and ten, and too few for the nested loops. -/
theorem settles_loops_tenSteps :
    let limits : Limits := ⟨10, 1⟩
    1 ≤ limits.depth ∧
    (∃ call value, loops.run.2.callOf? "evalMultiply" [.int 5, .int 10] = some call ∧
      (looping limits).evalCallFrom call {} = (.ok value, { steps := 10 }) ∧
      value.IsResidue .int 50) ∧
    ∃ call, loops.run.2.callOf? "evalNestedLoop" [.int 5, .int 10] = some call ∧
      (looping limits).evalCallFrom call {} = (.error (.limit (.steps 10)), { steps := 11 }) := by
  intro limits
  obtain ⟨⟨product, hproduct, hfits⟩, nested, hnested, hstopped⟩ :=
    settles_loops 5 10 limits (by decide)
  rw [Settles, if_pos (by decide)] at hfits
  rw [Settles, if_neg (by decide)] at hstopped
  obtain ⟨value, heval, hvalue⟩ := hfits
  exact ⟨by decide, ⟨product, value, hproduct, heval, hvalue⟩, nested, hnested, hstopped⟩

end CallFolding.Samples
