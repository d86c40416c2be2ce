import CallFolding.Proofs.Execution
import CallFolding.Proofs.Folding
import CallFolding.Proofs.Recount
import CallFolding.Proofs.Threshold

/-!
Evaluation with steps counted in 64 bits.

The greatest number of 64 bits is no limit: the counter never exceeds it and starts over. Under
every other limit a call that is evaluated on its own ends as it does under the unbounded count
(`evalCallFrom?_eq`), so limits only cut evaluation off (`evalCallFrom?_limits`) and a call does not
depend on where it is made (`eval?_alike_alone`).

Neither is true of the greatest limit. A loop can count up to `UInt64.size`, which is no step at
all (`evalCallFrom?_counting`), and where the counter is at its end a call goes on that would be
stopped on its own (`eval?_not_alike_alone`).
-/

set_option autoImplicit false

namespace CallFolding

/-- A failure and a value are not alike. -/
theorem Outcome.not_alike {x y : Outcome Literal} {cause : Failure} {value : Literal}
    (hx : x.result = .error cause) (hy : y.result = .ok value) : ¬ x.Alike y := by
  intro h
  cases h with
  | value a m m' => cases hx
  | exit m m' hlike => cases hy

namespace Setting

/-! ## Limits that the counter can exceed -/

variable {setting : Setting}

/-- At most the step that exceeds the limit is counted beyond it. -/
theorem steps_eval_le (setting : Setting) (e : Expr) {m : Machine}
    (hm : m.steps ≤ setting.limits.steps) :
    (Outcome.machine (setting.eval e m)).steps ≤ setting.limits.steps + 1 := by
  have hwithin := (setting.metered_evalAt (setting.limits.room m.scope.depth) e m hm).within
  rcases hwithin with hle | ⟨heq, -⟩
  · exact Nat.le_succ_of_le hle
  · exact Nat.le_of_eq heq

/-- An evaluation whose count stays within 64 bits is not changed by the counter. -/
theorem evalCallFrom?_of_lt {call : Call} {result : Except Failure Literal} {m : Machine}
    (heval : setting.evalCallFrom call {} = (result, m)) (h : m.steps < UInt64.size) :
    setting.evalCallFrom? call {} = some (result, m) := by
  have hsteps : (Outcome.machine (setting.eval call.expr {})).steps < UInt64.size := by
    have hmachine : Outcome.machine (setting.eval call.expr {}) = m := congrArg Prod.snd heval
    rw [hmachine]
    exact h
  rw [evalCallFrom?, eval?_eq hsteps, ← heval]
  rfl

/-- **Calls on their own are evaluated alike** by the counter of 64 bits and the unbounded count,
under every limit but the greatest. -/
theorem evalCallFrom?_eq (hlimit : setting.limits.steps + 1 < UInt64.size) (call : Call) :
    setting.evalCallFrom? call {} = some (setting.evalCallFrom call {}) := by
  have hstart : ({} : Machine).steps ≤ setting.limits.steps := Nat.zero_le _
  have hle := setting.steps_eval_le call.expr hstart
  exact evalCallFrom?_of_lt rfl (Nat.lt_of_le_of_lt hle hlimit)

theorem exists_evalCallFrom?_eq (hlimit : setting.limits.steps + 1 < UInt64.size) {call : Call}
    {result : Except Failure Literal} (h : setting.evalCall call = result) :
    ∃ m, setting.evalCallFrom? call {} = some (result, m) := by
  -- The state is that of the unbounded count.
  refine ⟨(setting.evalCallFrom call {}).2, ?_⟩
  rw [evalCallFrom?_eq hlimit, ← h]
  rfl

/-- **Limits only cut evaluation off, at an exact threshold**, unless the limit on steps is one that
the counter cannot exceed. -/
theorem evalCallFrom?_limits (program : Program) (marker : String) (limits : Limits) (call : Call)
    (hlimit : limits.steps + 1 < UInt64.size) {result : Except Failure Literal} {m : Machine}
    (h : evalCallFrom? ⟨program, marker, limits⟩ call {} = some (result, m))
    (hlimited : ∀ cause, result ≠ .error (.limit cause))
    (hpop : ∀ cause, result ≠ .error (.defect (.pop cause))) :
    m.steps ≤ limits.steps ∧
    (∀ limits' : Limits, m.steps ≤ limits'.steps → limits.depth ≤ limits'.depth →
      evalCallFrom? ⟨program, marker, limits'⟩ call {} = some (result, m)) ∧
    (∀ steps, steps < m.steps → ∃ m',
      evalCallFrom? ⟨program, marker, ⟨steps, limits.depth⟩⟩ call {} =
        some (.error (.limit (.steps steps)), m')) ∧
    ∀ depth, depth < limits.depth →
      evalCallFrom? ⟨program, marker, ⟨limits.steps, depth⟩⟩ call {} = some (result, m) ∨
        ∃ m', evalCallFrom? ⟨program, marker, ⟨limits.steps, depth⟩⟩ call {} =
          some (.error (.limit (.depth depth)), m') := by
  -- On its own the call is the same for both counts, so the thresholds are those of the unbounded
  -- one.
  have heval : evalCallFrom ⟨program, marker, limits⟩ call {} = (result, m) :=
    Option.some.inj ((evalCallFrom?_eq hlimit call).symm.trans h)
  obtain ⟨hsteps, hmore, hfewer, hless⟩ :=
    evalCallFrom_limits program marker limits call heval hlimited hpop
  refine ⟨hsteps, ?_, ?_, ?_⟩
  · -- The other limit may be the greatest one: the count does not come that far.
    intro limits' hsteps' hdepth
    exact evalCallFrom?_of_lt (hmore limits' hsteps' hdepth) (by omega)
  · intro steps hlt
    have hbelow : steps + 1 < UInt64.size := by omega
    exact exists_evalCallFrom?_eq hbelow (hfewer steps hlt)
  · intro depth hlt
    rcases hless depth hlt with hsame | hstopped
    · exact .inl (evalCallFrom?_of_lt hsame (by omega))
    · exact .inr (exists_evalCallFrom?_eq hlimit hstopped)

/-- Five steps and two activations are just enough for both sums. -/
theorem evalCallFrom?_limits_sums : let call : Call := ⟨⟨3⟩, none, [.int 2]⟩
    (∀ limits : Limits, 5 ≤ limits.steps → 2 ≤ limits.depth → ∃ m,
      evalCallFrom? ⟨Folding.sums, "eval", limits⟩ call {} = some (.ok (.int 9), m) ∧
        m.steps = 5) ∧
    (∀ steps, steps < 5 → ∃ m, evalCallFrom? ⟨Folding.sums, "eval", ⟨steps, 2⟩⟩ call {} =
      some (.error (.limit (.steps steps)), m)) ∧
    ∀ depth, depth < 2 →
      (∃ m, evalCallFrom? ⟨Folding.sums, "eval", ⟨5, depth⟩⟩ call {} =
        some (.ok (.int 9), m)) ∨
      ∃ m, evalCallFrom? ⟨Folding.sums, "eval", ⟨5, depth⟩⟩ call {} =
        some (.error (.limit (.depth depth)), m) := by
  intro call
  have hvalue : evalCall ⟨Folding.sums, "eval", ⟨5, 2⟩⟩ call = .ok (.int 9) := by decide +kernel
  have hsteps : (evalCallFrom ⟨Folding.sums, "eval", ⟨5, 2⟩⟩ call {}).2.steps = 5 := by
    decide +kernel
  have hlimit : (⟨5, 2⟩ : Limits).steps + 1 < UInt64.size := by decide
  have heval : evalCallFrom? ⟨Folding.sums, "eval", ⟨5, 2⟩⟩ call {} =
      some (.ok (.int 9), (evalCallFrom ⟨Folding.sums, "eval", ⟨5, 2⟩⟩ call {}).2) := by
    rw [evalCallFrom?_eq hlimit, ← hvalue]
    rfl
  obtain ⟨-, hmore, hfewer, hless⟩ :=
    evalCallFrom?_limits Folding.sums "eval" ⟨5, 2⟩ call hlimit heval nofun nofun
  rw [hsteps] at hmore hfewer
  refine ⟨fun limits hs hd => ⟨_, hmore limits hs hd, hsteps⟩, hfewer, fun depth hd => ?_⟩
  exact (hless depth hd).imp_left fun h => ⟨_, h⟩

/-! ## A loop that counts around -/

/-- Adds one to the number `i`. -/
def increment (f plus : FunctionId) : Expr :=
  .assign "i" f (.call plus (some (.read "i" f)) [.const (.uLong 1)])

/-- Whether the number `i` is not zero. -/
def isPositive (f less : FunctionId) : Expr :=
  .call less none [.const (.uLong 0), .read "i" f]

/-- A loop that adds and then tests, and a value that does not depend on it. -/
def countBody (f plus less : FunctionId) (loop : LoopId) : Expr :=
  .block
    [.loop .testLast loop none (isPositive f less) (some (.block [increment f plus])),
      .returnFrom f (.int 7)]

/-- `evalCount` adds one to a number of 64 bits until that is zero. -/
def counting : Program :=
  Prod.snd <| Build.run do
    let count ← Build.declare "evalCount" [("i", ⟨.uLong, false⟩)] .int
    let loop ← Build.newLoop
    let plus ← Build.member ⟨.uLong, false⟩ "plus" [⟨.uLong, false⟩] ⟨.uLong, false⟩
    let less ← Build.intrinsic "less" [⟨.uLong, false⟩, ⟨.uLong, false⟩] .boolean
    Build.define count (countBody count plus less loop)

/-- Adding one starts over at zero after the greatest number. -/
theorem dispatch_successor (i : UInt64) :
    dispatch "plus" [⟨⟨.uLong, false⟩, .uLong i⟩, ⟨⟨.uLong, false⟩, .uLong 1⟩] =
      .ok (.uLong (i + 1)) := by
  have hi : Operand.IsInteger ⟨⟨.uLong, false⟩, .uLong i⟩ .uLong i.toNat := ⟨rfl, rfl⟩
  have hone : Operand.IsInteger ⟨⟨.uLong, false⟩, .uLong 1⟩ .uLong 1 := ⟨rfl, rfl⟩
  have hplus : BinaryOp.ofName? "plus" = some (.arith .plus) := Arith.plus.ofName?_name
  have hsum : UInt64.ofInt (i.toNat + 1) = i + 1 := by
    rw [← UInt64.toNat_inj, UInt64.ofInt, UInt64.toNat_add, UInt64.toNat_ofNat', UInt64.toNat_one]
    omega
  rw [dispatch_integers hplus hi hone, if_pos rfl]
  exact congrArg (fun v => Except.ok (Literal.uLong v)) hsum

/-- Of numbers without a sign all but zero are positive. -/
theorem dispatch_positive (i : UInt64) :
    dispatch "less" [⟨⟨.uLong, false⟩, .uLong 0⟩, ⟨⟨.uLong, false⟩, .uLong i⟩] =
      .ok (.boolean (decide (i ≠ 0))) := by
  have hzero : (Literal.uLong 0).integral? = some (.uLong, 0) := rfl
  have hi : (Literal.uLong i).integral? = some (.uLong, (i.toNat : Int)) := rfl
  have hholds : Comparison.less.holds (compare 0 (i.toNat : Int)) = decide (i ≠ 0) := by
    rw [Comparison.holds, Bool.eq_iff_iff, beq_iff_eq, decide_eq_true_eq, compare_lt_iff_lt, ne_eq,
      ← UInt64.toNat_inj, UInt64.toNat_zero]
    omega
  rw [← hholds]
  exact ((compares_integral hzero hi rfl).dispatch ⟨rfl, rfl⟩ ⟨rfl, rfl⟩ .less).2

/-- The activation of `evalCount`. -/
def counter (i : UInt64) : Scope.Activation Literal :=
  .only ⟨[("i", .uLong i)], List.nodup_singleton _⟩

/-- The frames of the body, of its loop and of a pass, with nothing in them. -/
def counterInPass (i : UInt64) : Scope.Activation Literal :=
  .inside .empty (.inside .empty (.inside .empty (counter i)))

section

variable {room : Nat} {f plus less : FunctionId}

/-- The number is the only variable, three frames out. -/
theorem takes_increment (hplus : setting.Combines plus "plus" ⟨.uLong, false⟩) (i : UInt64) :
    setting.Takes room (increment f plus) (counterInPass i) 0 (.ok (.uLong (i + 1)))
      (counterInPass (i + 1)) := by
  have hread : setting.Takes room (.read "i" f) (counterInPass i) 0 (.ok (.uLong i))
      (counterInPass i) := takes_read f rfl
  exact takes_assign f (hplus.takes rfl hread (takes_const _ _) (dispatch_successor i)) rfl

/-- The test is made in the frame of the pass. -/
theorem takes_isPositive (hless : setting.Combines less "less" ⟨.uLong, false⟩) (i : UInt64) :
    setting.Takes room (isPositive f less) (counterInPass i) 0 (.ok (.boolean (decide (i ≠ 0))))
      (counterInPass i) :=
  hless.takes rfl (takes_const _ _) (takes_read f rfl) (dispatch_positive i)

/-- The number is zero again after as many rounds as there are numbers of 64 bits. -/
theorem takes_countLoop (hplus : setting.Combines plus "plus" ⟨.uLong, false⟩)
    (hless : setting.Combines less "less" ⟨.uLong, false⟩) (loop : LoopId) :
    setting.Takes room
      (.loop .testLast loop none (isPositive f less) (some (.block [increment f plus])))
      (.inside .empty (counter 0)) UInt64.size (.ok .unit) (.inside .empty (counter 0)) := by
  obtain ⟨rounds, hrounds⟩ : ∃ rounds, rounds + 1 = UInt64.size := ⟨UInt64.size - 1, rfl⟩
  -- The round after `n` others finds the number `n`, and it is the last one if the next number is
  -- zero.
  have hround (n : Nat) (hn : n ≤ rounds) : ∃ value frame,
      setting.TakesEach room (Expr.statements (some (.block [increment f plus])))
        (counterInPass (.ofNat n)) 0 (.ok value)
        (.inside frame (.inside .empty (.inside .empty (counter (.ofNat (n + 1)))))) ∧
      setting.Takes room (isPositive f less)
        (.inside frame (.inside .empty (.inside .empty (counter (.ofNat (n + 1)))))) 0
        (.ok (.boolean (decide (n < rounds))))
        (.inside frame (.inside .empty (.inside .empty (counter (.ofNat (n + 1)))))) := by
    have hlast : decide (n < rounds) = decide (UInt64.ofNat (n + 1) ≠ 0) := by
      rw [decide_eq_decide, ne_eq, ← UInt64.toNat_inj, UInt64.toNat_ofNat', UInt64.toNat_zero]
      have hsize : UInt64.size = 2 ^ 64 := rfl
      omega
    refine ⟨.uLong (.ofNat (n + 1)), .empty, ?_, ?_⟩
    · rw [UInt64.ofNat_add]
      exact takesEach_single (takes_increment hplus (.ofNat n))
    · rw [hlast]
      exact takes_isPositive hless (.ofNat (n + 1))
  have hloop := takes_loop_testLast loop none rounds
    (fun n => .inside .empty (counter (.ofNat n))) (fun _ => 0) hround
  rw [← Finset.card_eq_sum_ones, Finset.card_range, hrounds] at hloop
  exact hloop

/-- The loop and the return, in the frame of the body. -/
theorem takes_countBody (hplus : setting.Combines plus "plus" ⟨.uLong, false⟩)
    (hless : setting.Combines less "less" ⟨.uLong, false⟩) (loop : LoopId) :
    setting.Takes room (countBody f plus less loop) (counter 0) UInt64.size
      (.error (.returned f (.int 7))) (counter 0) := by
  have hreturn : setting.Takes room (.returnFrom f (.int 7)) (.inside .empty (counter 0)) 0
      (.error (.returned f (.int 7))) (.inside .empty (counter 0)) :=
    takes_returnFrom f (takes_const _ _)
  apply takes_block
  exact takesEach_cons (takes_countLoop hplus hless loop) (takesEach_single hreturn)

end

/-- `evalCount` as it is in the program. -/
def count : Function :=
  ⟨⟨0⟩, "evalCount", .package "", none, [⟨"i", ⟨.uLong, false⟩⟩], .int,
    some (countBody ⟨0⟩ ⟨1⟩ ⟨2⟩ ⟨0⟩)⟩

/-- From zero, `evalCount` counts as many steps as there are numbers of 64 bits. -/
theorem costs_counting (limits : Limits) (room : Nat) :
    Run.Costs limits (evalAt ⟨counting, "eval", limits⟩ (room + 1)
      (Call.expr ⟨⟨0⟩, none, [.const (.uLong 0)]⟩)) UInt64.size (.ok (.int 7)) := by
  let setting : Setting := ⟨counting, "eval", limits⟩
  have hplus : setting.Combines ⟨1⟩ "plus" ⟨.uLong, false⟩ :=
    ⟨_, rfl, rfl, rfl, rfl, rfl, fun _ _ => rfl⟩
  have hless : setting.Combines ⟨2⟩ "less" ⟨.uLong, false⟩ :=
    ⟨_, rfl, rfl, rfl, rfl, rfl, fun _ _ => rfl⟩
  have hactivate : Run.Costs setting.limits (activate count [.uLong 0]
      (setting.evalAt room (countBody ⟨0⟩ ⟨1⟩ ⟨2⟩ ⟨0⟩))) UInt64.size (.ok (.int 7)) :=
    costs_activate rfl (takes_countBody hplus hless ⟨0⟩) fun _ => rfl
  have henters : setting.Enters ⟨⟨0⟩, none, [.const (.uLong 0)]⟩ count
      (countBody ⟨0⟩ ⟨1⟩ ⟨2⟩ ⟨0⟩) := by
    have hmarked : "eval".toList.isPrefixOf "evalCount".toList := by decide +kernel
    exact ⟨rfl, rfl, if_pos hmarked, rfl⟩
  exact costs_call henters rfl hactivate

/-- Under the greatest limit the counter comes around to zero and the call to its value, but zero
steps are not enough for it. -/
theorem evalCallFrom?_counting :
    let call : Call := ⟨⟨0⟩, none, [.const (.uLong 0)]⟩
    evalCallFrom? ⟨counting, "eval", ⟨UInt64.size - 1, 1⟩⟩ call {} =
        some (.ok (.int 7), { steps := 0 }) ∧
      evalCallFrom? ⟨counting, "eval", ⟨0, 1⟩⟩ call {} =
        some (.error (.limit (.steps 0)), { steps := 1 }) := by
  intro call
  constructor
  · have hlimits : UInt64.size ≤ (⟨UInt64.size - 1, 1⟩ : Limits).steps + 1 := by decide
    have heval : eval ⟨counting, "eval", ⟨UInt64.size, 1⟩⟩ call.expr {} =
        .ok (.int 7) { steps := UInt64.size } := by
      have hwithin := (costs_counting ⟨UInt64.size, 1⟩ 0).within .empty 0
        (Nat.le_of_eq (Nat.zero_add UInt64.size))
      rw [Nat.zero_add] at hwithin
      exact hwithin
    -- The unbounded count may go one step further, and its remainder is what the counter shows.
    have hwrapped := eval?_wrapped hlimits heval (Nat.le_refl UInt64.size)
    have hstart : ({} : Machine).recount (· % UInt64.size) = {} := rfl
    rw [hstart] at hwrapped
    rw [evalCallFrom?, hwrapped]
    simp only [Option.map_some, Outcome.recount, Outcome.result, Outcome.machine, Machine.recount,
      Nat.mod_self]
  · rw [evalCallFrom?_eq (by decide), evalCallFrom_of_costs (costs_counting ⟨0, 1⟩ 0)]
    rfl

/-! ## Where a call is made -/

/-- The result of an evaluation whose count stays within 64 bits. -/
theorem result_of_eval? {e : Expr} {m : Machine} {x : Outcome Literal}
    (h : setting.eval? e m = some x)
    (hsteps : (Outcome.machine (setting.eval e m)).steps < UInt64.size) :
    x.result = Outcome.result (setting.eval e m) := by
  rw [eval?_eq hsteps] at h
  rw [Option.some.inj h]

/-- **A call does not depend on where it is made**, unless the limit on steps is one that the
counter cannot exceed or the counter is at its end. -/
theorem eval?_alike_alone (program : Program) (marker : String) (limits : Limits) (m : Machine)
    (call : Call) (hlimit : limits.steps + 1 < UInt64.size) (hcount : m.steps + 1 < UInt64.size)
    {function : Function} (hfound : program.function? call.callee = some function)
    (hmarked : function.classify marker = .marked) {values : List Literal}
    (hconst : call.operands = values.map .const) :
    ∃ alone here : Outcome Literal,
      eval? ⟨program, marker, ⟨limits.steps - m.steps, limits.depth - m.scope.depth⟩⟩
        call.expr {} = some alone ∧
      eval? ⟨program, marker, limits⟩ call.expr m = some here ∧
      alone.Alike here ∧ here.machine.steps = m.steps + alone.machine.steps ∧
      here.machine.scope = m.scope := by
  have halike := eval_alike_alone program marker limits m call hfound hmarked hconst
  -- On its own the call counts at most one step more than it may, and here as many.
  have halone := steps_eval_le
    ⟨program, marker, ⟨limits.steps - m.steps, limits.depth - m.scope.depth⟩⟩ call.expr
    (show ({} : Machine).steps ≤ _ from Nat.zero_le _)
  have hsteps := halike.2.1
  dsimp only at halone
  refine ⟨_, _, eval?_eq ?_, eval?_eq ?_, halike⟩ <;> omega

/-- The call that adds up from three counts three steps, if it may. -/
theorem eval?_alike_alone_sums :
    let m : Machine := { scope := ⟨#[("n", .int 7), ("s", .int 1)], #[0], #[0]⟩, steps := 4 }
    let call : Call := ⟨⟨0⟩, none, [.const (.int 3)]⟩
    (∃ alone here : Outcome Literal,
      eval? ⟨Folding.sums, "eval", ⟨5, 2⟩⟩ call.expr {} = some alone ∧
      eval? ⟨Folding.sums, "eval", ⟨9, 3⟩⟩ call.expr m = some here ∧
      alone.result = .ok (.int 6) ∧ here.result = .ok (.int 6) ∧ alone.Alike here ∧
      here.machine.steps = 4 + alone.machine.steps ∧ here.machine.scope = m.scope) ∧
    ∃ alone here : Outcome Literal,
      eval? ⟨Folding.sums, "eval", ⟨2, 2⟩⟩ call.expr {} = some alone ∧
      eval? ⟨Folding.sums, "eval", ⟨6, 3⟩⟩ call.expr m = some here ∧
      alone.result = .error (.limit (.steps 2)) ∧ here.result = .error (.limit (.steps 6)) ∧
      alone.Alike here ∧ here.machine.steps = 4 + alone.machine.steps ∧
      here.machine.scope = m.scope := by
  intro m call
  -- The function is not spelled out: it is enough that there is one and that it is marked.
  have hmarked : (Folding.sums.function? ⟨0⟩).map (·.classify "eval") = some .marked := by
    decide +kernel
  obtain ⟨function, hfound, hmarked⟩ := Option.map_eq_some_iff.mp hmarked
  have hconst : call.operands = [Literal.int 3].map .const := rfl
  constructor
  · obtain ⟨alone, here, halone, hhere, halike⟩ := eval?_alike_alone Folding.sums "eval" ⟨9, 3⟩ m
      call (by decide) (by decide) hfound hmarked hconst
    refine ⟨alone, here, halone, hhere, ?_, ?_, halike⟩
    · exact (result_of_eval? halone (by decide +kernel)).trans (by decide +kernel)
    · exact (result_of_eval? hhere (by decide +kernel)).trans (by decide +kernel)
  · obtain ⟨alone, here, halone, hhere, halike⟩ := eval?_alike_alone Folding.sums "eval" ⟨6, 3⟩ m
      call (by decide) (by decide) hfound hmarked hconst
    refine ⟨alone, here, halone, hhere, ?_, ?_, halike⟩
    · exact (result_of_eval? halone (by decide +kernel)).trans (by decide +kernel)
    · exact (result_of_eval? hhere (by decide +kernel)).trans (by decide +kernel)

/-- Where the counter is at its end, a call that counts one step comes to its value. On its own,
with no step left, it is stopped. -/
theorem eval?_not_alike_alone :
    let limits : Limits := ⟨UInt64.size - 1, 1⟩
    let m : Machine := { steps := UInt64.size - 1 }
    let call : Call := ⟨⟨0⟩, none, [.const (.int 1)]⟩
    ∃ alone here : Outcome Literal,
      eval? ⟨Folding.sums, "eval", ⟨limits.steps - m.steps, limits.depth - m.scope.depth⟩⟩
        call.expr {} = some alone ∧
      eval? ⟨Folding.sums, "eval", limits⟩ call.expr m = some here ∧
      alone.result = .error (.limit (.steps 0)) ∧ here.result = .ok (.int 1) ∧
      here.machine.steps = 0 ∧ ¬ alone.Alike here := by
  intro limits m call
  let alone : Outcome Literal := eval ⟨Folding.sums, "eval", ⟨0, 1⟩⟩ call.expr {}
  -- A step more than the counter has numbers for is enough.
  let here : Outcome Literal := eval ⟨Folding.sums, "eval", ⟨UInt64.size, 1⟩⟩ call.expr m
  have halone : alone.result = .error (.limit (.steps 0)) ∧ alone.machine.steps < UInt64.size := by
    decide +kernel
  have hhere : here.result = .ok (.int 1) ∧ here.machine.steps = UInt64.size := by
    decide +kernel
  have hlimits : UInt64.size ≤ limits.steps + 1 := by decide
  have hwrapped : eval? ⟨Folding.sums, "eval", limits⟩ call.expr m =
      some (here.recount (· % UInt64.size)) := eval?_wrapped hlimits rfl (Nat.le_of_eq hhere.2)
  have hresult : (here.recount (· % UInt64.size)).result = .ok (.int 1) := by
    rw [Outcome.result_recount, hhere.1]
  have hsteps : (here.recount (· % UInt64.size)).machine.steps = 0 := by
    rw [Outcome.steps_recount, hhere.2, Nat.mod_self]
  have hleft : (⟨limits.steps - m.steps, limits.depth - m.scope.depth⟩ : Limits) = ⟨0, 1⟩ := by
    decide
  refine ⟨alone, here.recount (· % UInt64.size), ?_, hwrapped, halone.1, hresult, hsteps,
    Outcome.not_alike halone.1 hresult⟩
  rw [hleft]
  exact eval?_eq halone.2

end Setting

end CallFolding
