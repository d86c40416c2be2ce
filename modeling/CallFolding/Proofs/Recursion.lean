import CallFolding.Proofs.Execution
import CallFolding.Sample
import Mathlib.Data.Nat.Factorial.Basic
import Mathlib.Data.Nat.Fib.Basic

/-!
The sample with recursion: what its functions compute, and how deep they go.

Both functions return one for small arguments and call themselves with smaller ones for the others.
No step is counted on the way, so the only thing that can stop a call is the limit on depth; a call
with argument `n` needs room for `max n 1` activations, its own among them. The induction is on the
room that is left: a call inside the body finds one less, and asks for one less.
-/

set_option autoImplicit false

namespace CallFolding.Samples

open Setting
open Literal (num)

/-- How a call ends that has this value if it `fits` into the limit on depth. -/
def limited (limits : Limits) (fits : Prop) [Decidable fits] (n : Int) : Except Exit Literal :=
  if fits then .ok (num n) else .error (.failed (.limit (.depth limits.depth)))

/-- It does not matter how the room that is asked for is put. -/
theorem limited_congr (limits : Limits) {p q : Prop} [Decidable p] [Decidable q] (h : p ↔ q)
    (n : Int) : limited limits p n = limited limits q n :=
  if_congr h rfl rfl

/-! ## Functions that call themselves -/

/-- One for small arguments, and something else for the others. -/
def recursiveBody (f : FunctionId) (small otherwise : Expr) : Expr :=
  .block [.ifThen small (.returnFrom f (.int 1)), .returnFrom f otherwise]

/-- A function of one integer, local to the first one. -/
def recursive (f : FunctionId) (name : String) (small otherwise : Expr) : Function :=
  ⟨f, name, .function ⟨0⟩, none, [⟨"n", .int⟩], .int, some (recursiveBody f small otherwise)⟩

/-- The operand of such a function. -/
def operand (n : Int) : Scope.Activation Literal :=
  .only ⟨[("n", num n)], List.nodup_singleton _⟩

section

variable (setting : Setting) (f : FunctionId) (name : String) (small otherwise : Expr)

/-- Such a function is there, and may be run. -/
structure Provides : Prop where
  found : setting.program.function? f = some (recursive f name small otherwise)
  marked : (recursive f name small otherwise).isMarked setting.marker

/-- How the function ends on `n` when its body has this room. -/
def Ends (room : Nat) (n : Int) (x : Except Exit Literal) : Prop :=
  Run.Costs setting.limits (activate (recursive f name small otherwise) [num n]
    (setting.evalAt room (recursiveBody f small otherwise))) 0 x

/-- With this room, the function has this value on every integer that is not too large for it. -/
def Computes (value : Int → Int) (room : Nat) : Prop :=
  ∀ n, (Window.signed 32).Holds n →
    Ends setting f name small otherwise room n
      (limited setting.limits (max n 1 ≤ room + 1) (value n))

end

section

variable {setting : Setting} {room : Nat} {f minus : FunctionId} {name : String}
  {small otherwise : Expr} {m n r : Int} {s : Scope.Activation Literal} {value : Int → Int}
  {p q : Prop} [Decidable p] [Decidable q]

/-- A small argument ends in the first statement. -/
theorem ends_of_small
    (hsmall : setting.Takes room small (.inside .empty (.inside .empty (operand n))) 0
      (.ok (.boolean true)) (.inside .empty (.inside .empty (operand n)))) :
    Ends setting f name small otherwise room n (.ok (num 1)) := by
  have hreturn : setting.Takes room (.ifThen small (.returnFrom f (.int 1)))
      (.inside .empty (operand n)) 0 (.error (.returned f (num 1))) (.inside .empty (operand n)) :=
    takes_branch [] hsmall (takes_returnFrom f (takes_const (num 1) _))
  have hbody : setting.Takes room (recursiveBody f small otherwise) (operand n) 0
      (.error (.returned f (num 1))) (operand n) :=
    takes_block (takesEach_exit hreturn _)
  exact costs_activate rfl hbody fun _ => if_pos rfl

/-- Any other ends as the last line does. -/
theorem ends_of_otherwise
    (hsmall : setting.Takes room small (.inside .empty (.inside .empty (operand n))) 0
      (.ok (.boolean false)) (.inside .empty (.inside .empty (operand n))))
    (h : setting.Takes room otherwise (.inside .empty (operand n)) 0 (limited setting.limits p r)
      (.inside .empty (operand n))) :
    Ends setting f name small otherwise room n (limited setting.limits p r) := by
  have hskip : setting.Takes room (.ifThen small (.returnFrom f (.int 1)))
      (.inside .empty (operand n)) 0 (.ok .unit) (.inside .empty (operand n)) :=
    takes_branch_of_false _ hsmall
  -- A value is returned, and a limit that was hit goes past the return and out of the call.
  by_cases hp : p
  · rw [limited, if_pos hp] at h ⊢
    have hbody : setting.Takes room (recursiveBody f small otherwise) (operand n) 0
        (.error (.returned f (num r))) (operand n) :=
      takes_block (takesEach_cons_zero hskip (takesEach_single (takes_returnFrom f h)))
    exact costs_activate rfl hbody fun _ => if_pos rfl
  · rw [limited, if_neg hp] at h ⊢
    have hbody : setting.Takes room (recursiveBody f small otherwise) (operand n) 0
        (.error (.failed (.limit (.depth setting.limits.depth)))) (operand n) :=
      takes_block (takesEach_cons_zero hskip (takesEach_single (takes_returnFrom_exit f h)))
    exact costs_activate rfl hbody fun _ => rfl

/-- The call of the function on `n - d`. -/
def again (f minus : FunctionId) (d : Int) : Expr :=
  .call f none [.call minus (some (.read "n" f)) [.int d]]

/-- A call needs room for an activation, and leaves the rest of it to the body. -/
theorem takes_again (hprovides : Provides setting f name small otherwise)
    (hminus : setting.Combines minus "minus")
    (hinner : ∀ inner, room = inner + 1 → Computes setting f name small otherwise value inner)
    (d : Int) (hholds : (Window.signed 32).Holds (n - d)) :
    setting.Takes room (again f minus d) (.inside .empty (operand n)) 0
      (limited setting.limits (max (n - d) 1 ≤ room) (value (n - d)))
      (.inside .empty (operand n)) := by
  have henters (e : Expr) : setting.Enters ⟨f, none, [e]⟩ (recursive f name small otherwise)
      (recursiveBody f small otherwise) :=
    ⟨hprovides.found, rfl, if_pos hprovides.marked, rfl⟩
  cases room with
  | zero =>
    -- Refused before the argument is looked at, so it does not matter how small that is.
    have hnone : ¬ max (n - d) 1 ≤ ((0 : Nat) : Int) := by omega
    rw [limited, if_neg hnone]
    exact (costs_call_zero (henters _)).takes _
  | succ inner =>
    have hoperand : setting.Takes (inner + 1) (.call minus (some (.read "n" f)) [.int d])
        (.inside .empty (operand n)) 0 (.ok (num (n - d))) (.inside .empty (operand n)) :=
      hminus.takes rfl (takes_read f rfl) (takes_const (num d) _)
        (dispatch_num .minus (by decide) rfl)
    rw [Nat.cast_succ]
    exact takes_call (henters _) hoperand (hinner inner rfl (n - d) hholds)

/-- Both operands have to fit. -/
theorem takes_limited (op : Arith) {id : FunctionId} {left right : Expr}
    (hcombines : setting.Combines id op.name) (hop : op ≠ .div ∧ op ≠ .rem)
    (hexact : op.IsExact m n r)
    (hleft : setting.Takes room left s 0 (limited setting.limits p m) s)
    (hright : setting.Takes room right s 0 (limited setting.limits q n) s) :
    setting.Takes room (.call id (some left) [right]) s 0 (limited setting.limits (p ∧ q) r) s := by
  by_cases hp : p
  · rw [limited, if_pos hp] at hleft
    by_cases hq : q
    · rw [limited, if_pos hq] at hright
      rw [limited, if_pos ⟨hp, hq⟩]
      exact hcombines.takes rfl hleft hright (dispatch_num op hop hexact)
    · rw [limited, if_neg hq] at hright
      rw [limited, if_neg fun h => hq h.2]
      exact hcombines.takes_exit_right rfl hleft hright
  · rw [limited, if_neg hp] at hleft
    rw [limited, if_neg fun h => hp h.1]
    exact hcombines.takes_exit_left rfl hleft

/-- The induction on the room: a function that is one on small arguments computes `value` if its
last line does, as long as the calls in it do. -/
theorem computes_of_parts
    (hsmall : ∀ room n, (Window.signed 32).Holds n →
      setting.Takes room small (.inside .empty (.inside .empty (operand n))) 0
        (.ok (.boolean (decide (n ≤ 1)))) (.inside .empty (.inside .empty (operand n))))
    (hone : ∀ n ≤ 1, value n = 1)
    (hotherwise : ∀ room,
      (∀ inner, room = inner + 1 → Computes setting f name small otherwise value inner) →
      ∀ n, (Window.signed 32).Holds n → 1 < n →
        setting.Takes room otherwise (.inside .empty (operand n)) 0
          (limited setting.limits (max n 1 ≤ room + 1) (value n)) (.inside .empty (operand n)))
    (room : Nat) : Computes setting f name small otherwise value room := by
  -- One activation, given what the calls inside of it do with one room less.
  have hstep : ∀ room,
      (∀ inner, room = inner + 1 → Computes setting f name small otherwise value inner) →
      Computes setting f name small otherwise value room := by
    intro room hinner n hn
    have htest := hsmall room n hn
    by_cases hle : n ≤ 1
    · have hfits : max n 1 ≤ (room : Int) + 1 := by omega
      rw [decide_eq_true hle] at htest
      rw [limited, if_pos hfits, hone n hle]
      exact ends_of_small htest
    · rw [decide_eq_false hle] at htest
      exact ends_of_otherwise htest (hotherwise room hinner n hn (by omega))
  induction room with
  | zero =>
    apply hstep
    intro inner hroom
    omega
  | succ room ih =>
    apply hstep
    intro inner hroom
    obtain rfl := Nat.succ.inj hroom
    exact ih

/-- A call on its own finds all the room there is. -/
theorem settles_of_computes (hprovides : Provides setting f name small otherwise)
    (hcomputes : ∀ room, Computes setting f name small otherwise value room) (n : Int32) :
    setting.Settles ⟨f, none, [.const (.int n)]⟩ (max n.toInt 1 ≤ setting.limits.depth)
      (value n.toInt) (.depth setting.limits.depth) 0 := by
  have henters : setting.Enters ⟨f, none, [.const (.int n)]⟩ (recursive f name small otherwise)
      (recursiveBody f small otherwise) :=
    ⟨hprovides.found, rfl, if_pos hprovides.marked, rfl⟩
  -- On its own the call opens the first activation, and its body has the rest of the room.
  have hcosts : Run.Costs setting.limits (setting.evalAt (setting.limits.room 0)
      (Call.expr ⟨f, none, [.const (.int n)]⟩)) 0
      (limited setting.limits (max n.toInt 1 ≤ setting.limits.depth) (value n.toInt)) := by
    rw [Limits.room, Nat.sub_zero]
    cases hdepth : setting.limits.depth with
    | zero =>
      have hnone : ¬ max n.toInt 1 ≤ ((0 : Nat) : Int) := by omega
      rw [limited, if_neg hnone]
      exact costs_call_zero henters
    | succ room =>
      have hends := hcomputes room n.toInt ⟨n.le_toInt, n.toInt_lt⟩
      rw [Ends, Literal.num_toInt] at hends
      rw [Nat.cast_succ]
      exact costs_call henters rfl hends
  have heval := evalCallFrom_of_costs hcosts
  rw [if_pos (Nat.zero_le _)] at heval
  rw [Settles]
  by_cases hfits : max n.toInt 1 ≤ (setting.limits.depth : Int)
  · rw [limited, if_pos hfits] at heval
    rw [if_pos hfits]
    exact ⟨num (value n.toInt), heval, Literal.isResidue_num _⟩
  · rw [limited, if_neg hfits] at heval
    rw [if_neg hfits]
    exact heval

end

/-! ## Factorials -/

/-- The test for factorials. -/
def atMostOne (f lessOrEqual : FunctionId) : Expr :=
  .call lessOrEqual none [.read "n" f, .int 1]

/-- The argument times the factorial of the one before. -/
def product (f minus times : FunctionId) : Expr :=
  .call times (some (.read "n" f)) [again f minus 1]

/-- The recursion of factorials, for integers. -/
theorem factorial_toNat {n : Int} (h : 1 < n) :
    (n.toNat.factorial : Int) = n * (n - 1).toNat.factorial := by
  obtain ⟨k, rfl⟩ : ∃ k : Nat, n = k + 1 := ⟨(n - 1).toNat, by omega⟩
  have hsucc : ((k : Int) + 1).toNat = k + 1 := by omega
  have hpred : ((k : Int) + 1 - 1).toNat = k := by omega
  rw [hsucc, hpred, Nat.factorial_succ, Nat.cast_mul, Nat.cast_succ]

section

variable {setting : Setting} {f lessOrEqual minus times : FunctionId} {name : String}

/-- With enough room the value is the factorial, as far as it fits into 32 bits. -/
theorem computes_factorial
    (hprovides : Provides setting f name (atMostOne f lessOrEqual) (product f minus times))
    (hlessOrEqual : setting.Combines lessOrEqual "lessOrEqual")
    (hminus : setting.Combines minus "minus") (htimes : setting.Combines times "times")
    (room : Nat) :
    Computes setting f name (atMostOne f lessOrEqual) (product f minus times)
      (fun n => n.toNat.factorial) room := by
  apply computes_of_parts
  · intro room n hn
    exact hlessOrEqual.takes rfl (takes_read f rfl) (takes_const (num 1) _)
      (dispatch_lessOrEqual hn (by decide))
  · intro n hn
    have hone : n.toNat.factorial = 1 := Nat.factorial_eq_one.mpr (by omega)
    rw [hone, Nat.cast_one]
  · intro room hinner n hn hlt
    have hpred : (Window.signed 32).Holds (n - 1) := by
      simp only [Window.Holds, Window.signed] at hn ⊢
      omega
    -- The other factor needs no room.
    have hself : setting.Takes room (.read "n" f) (.inside .empty (operand n)) 0
        (limited setting.limits True n) (.inside .empty (operand n)) :=
      takes_read f rfl
    have hproduct := takes_limited .times htimes (by decide) rfl hself
      (takes_again hprovides hminus hinner 1 hpred)
    have hfits : True ∧ max (n - 1) 1 ≤ (room : Int) ↔ max n 1 ≤ (room : Int) + 1 := by
      rw [true_and]
      omega
    rw [limited_congr setting.limits hfits, ← factorial_toNat hlt] at hproduct
    exact hproduct

end

/-! ## Fibonacci numbers -/

/-- The test for Fibonacci numbers. -/
def belowTwo (f less : FunctionId) : Expr :=
  .call less none [.read "n" f, .int 2]

/-- The sum of the two numbers before. -/
def lastTwo (f minus plus : FunctionId) : Expr :=
  .call plus (some (again f minus 1)) [again f minus 2]

/-- The sequence starts with one at zero, a place earlier than that of the library. -/
theorem fib_toNat {n : Int} (h : 1 < n) : (Nat.fib (n.toNat + 1) : Int) =
    Nat.fib ((n - 1).toNat + 1) + Nat.fib ((n - 2).toNat + 1) := by
  obtain ⟨k, rfl⟩ : ∃ k : Nat, n = k + 2 := ⟨(n - 2).toNat, by omega⟩
  have hsucc : ((k : Int) + 2).toNat = k + 2 := by omega
  have hpred : ((k : Int) + 2 - 1).toNat = k + 1 := by omega
  have hlast : ((k : Int) + 2 - 2).toNat = k := by omega
  rw [hsucc, hpred, hlast, Nat.fib_add_two, Nat.cast_add, add_comm]

section

variable {setting : Setting} {f less minus plus : FunctionId} {name : String}

/-- The first of the two calls goes deeper than the second: where it fits, both do. -/
theorem computes_fibonacci
    (hprovides : Provides setting f name (belowTwo f less) (lastTwo f minus plus))
    (hless : setting.Combines less "less") (hminus : setting.Combines minus "minus")
    (hplus : setting.Combines plus "plus") (room : Nat) :
    Computes setting f name (belowTwo f less) (lastTwo f minus plus)
      (fun n => Nat.fib (n.toNat + 1)) room := by
  apply computes_of_parts
  · intro room n hn
    have hdecide : decide (n ≤ 1) = decide (n < 2) := by
      rw [decide_eq_decide]
      omega
    rw [hdecide]
    exact hless.takes rfl (takes_read f rfl) (takes_const (num 2) _)
      (dispatch_less hn (by decide))
  · intro n hn
    have hcases : n.toNat = 0 ∨ n.toNat = 1 := by omega
    rcases hcases with h | h
    · rw [h]
      rfl
    · rw [h]
      rfl
  · intro room hinner n hn hlt
    have hholds : (Window.signed 32).Holds (n - 1) ∧ (Window.signed 32).Holds (n - 2) := by
      simp only [Window.Holds, Window.signed] at hn ⊢
      omega
    -- The second call starts with the room that the first one found: each leaves it as it was.
    have hsum := takes_limited .plus hplus (by decide) rfl
      (takes_again hprovides hminus hinner 1 hholds.1)
      (takes_again hprovides hminus hinner 2 hholds.2)
    have hfits : max (n - 1) 1 ≤ (room : Int) ∧ max (n - 2) 1 ≤ (room : Int) ↔
        max n 1 ≤ (room : Int) + 1 := by
      omega
    rw [limited_congr setting.limits hfits, ← fib_toNat hlt] at hsum
    exact hsum

end

/-! ## The functions of the sample -/

/-- The sample under the usual marker. -/
def recurring (limits : Limits) : Setting :=
  ⟨recursion.run.2, "eval", limits⟩

/-- The sample has the function for factorials. -/
theorem provides_factorial (limits : Limits) :
    Provides (recurring limits) ⟨2⟩ "evalFac" (atMostOne ⟨2⟩ ⟨3⟩) (product ⟨2⟩ ⟨4⟩ ⟨5⟩) := by
  have hmarked : "eval".toList.isPrefixOf "evalFac".toList := by decide +kernel
  exact ⟨rfl, hmarked⟩

theorem provides_fibonacci (limits : Limits) :
    Provides (recurring limits) ⟨6⟩ "evalFib" (belowTwo ⟨6⟩ ⟨7⟩) (lastTwo ⟨6⟩ ⟨4⟩ ⟨8⟩) := by
  have hmarked : "eval".toList.isPrefixOf "evalFib".toList := by decide +kernel
  exact ⟨rfl, hmarked⟩

/-- **Recursion computes its closed forms as deep as its argument says.** The value is the factorial
or the Fibonacci number, reduced into the range of 32 bits, if as many activations may be open as
the argument, and at least one; and the limit on depth if not. No step is counted either way. -/
theorem settles_recursion (n : Int32) (limits : Limits) :
    (∃ call, recursion.run.2.callOf? "evalFac" [.int n] = some call ∧
      (recurring limits).Settles call (max n.toInt 1 ≤ limits.depth) (n.toInt.toNat.factorial)
        (.depth limits.depth) 0) ∧
    ∃ call, recursion.run.2.callOf? "evalFib" [.int n] = some call ∧
      (recurring limits).Settles call (max n.toInt 1 ≤ limits.depth) (Nat.fib (n.toInt.toNat + 1))
        (.depth limits.depth) 0 := by
  have hminus : (recurring limits).Combines ⟨4⟩ "minus" :=
    ⟨_, rfl, rfl, rfl, rfl, rfl, fun _ _ => rfl⟩
  constructor
  · have hlessOrEqual : (recurring limits).Combines ⟨3⟩ "lessOrEqual" :=
      ⟨_, rfl, rfl, rfl, rfl, rfl, fun _ _ => rfl⟩
    have htimes : (recurring limits).Combines ⟨5⟩ "times" :=
      ⟨_, rfl, rfl, rfl, rfl, rfl, fun _ _ => rfl⟩
    have hprovides := provides_factorial limits
    exact ⟨_, rfl, settles_of_computes hprovides
      (computes_factorial hprovides hlessOrEqual hminus htimes) n⟩
  · have hless : (recurring limits).Combines ⟨7⟩ "less" :=
      ⟨_, rfl, rfl, rfl, rfl, rfl, fun _ _ => rfl⟩
    have hplus : (recurring limits).Combines ⟨8⟩ "plus" :=
      ⟨_, rfl, rfl, rfl, rfl, rfl, fun _ _ => rfl⟩
    have hprovides := provides_fibonacci limits
    exact ⟨_, rfl, settles_of_computes hprovides
      (computes_fibonacci hprovides hless hminus hplus) n⟩

end CallFolding.Samples
