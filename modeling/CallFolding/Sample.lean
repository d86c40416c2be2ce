import CallFolding.Program.Builder

/-!
Sample programs. Each has a `main` that prints the results of calls to functions local to it.
-/

set_option autoImplicit false

namespace CallFolding

structure Sample where
  name : String
  description : String
  build : Build Unit

def Sample.program (sample : Sample) : Program :=
  sample.build.run.2

namespace Samples

open Build

/-! ## Parts -/

/-- `main` and the function it prints with. -/
def mainAndPrintln : Build (FunctionId × FunctionId) := do
  let main ← declare "main" [] .unit
  let println ← declareIn (.package "kotlin.io") none "println" [("message", .anything)] .unit
  return (main, println)

/-- A call without a receiver. -/
def call (callee : FunctionId) (args : List Expr) : Expr :=
  .call callee none args

def whileLoop (id : LoopId) (condition : Expr) (statements : List Expr) : Expr :=
  .loop .testFirst id none condition (some (.block statements))

/-- The body of `main`: prints each value. -/
def printAll (println : FunctionId) (values : List Expr) : Expr :=
  .block (values.map fun value => call println [value])

/-- Two integer parameters. -/
def intPair : List (String × Ty) := [("a", .int), ("b", .int)]

/-! ## Operations -/

def operations : Build Unit := do
  let (main, println) ← mainAndPrintln
  let stringPlus ← member .string "plus" [.anything] .string
  let length ← member .string "length" [] .int

  let sum ← declareLocal main "evalSum" intPair .int
  define sum (.block [.returnFrom sum (← intOp "plus" (.read "a" sum) (.read "b" sum))])

  let sub ← declareLocal main "evalSub" intPair .int
  define sub (.block [.returnFrom sub (← intOp "minus" (.read "a" sub) (.read "b" sub))])

  let not ← declareLocal main "evalNot" [("b", .boolean)] .boolean
  define not (.block [.returnFrom not (← negation (.read "b" not))])

  let concat ← declareLocal main "evalConcat" [("a", .string), ("b", .string)] .string
  define concat (.block
    [.returnFrom concat (.call stringPlus (some (.read "a" concat)) [.read "b" concat])])

  let len ← declareLocal main "evalLen" [("a", .string)] .int
  define len (.block [.returnFrom len (.call length (some (.read "a" len)) [])])

  let fizbuz := call concat [.text "fiz", .text "buz"]
  define main (printAll println
    [call sum [.int 1, .int 2],
      call sub [.int 1, .int 2],
      call not [.bool false],
      fizbuz,
      .call length (some fizbuz) [],
      call len [.text "fiz"]])

/-! ## Loops -/

/-- Multiplies by adding up. -/
def multiply (main : FunctionId) : Build FunctionId := do
  let f ← declareLocal main "evalMultiply" intPair .int
  let loop ← newLoop
  define f (.block
    [.declare "i" .int (some (.int 0)),
      .declare "res" .int (some (.int 0)),
      whileLoop loop (← intTest "less" (.read "i" f) (.read "b" f))
        [← addTo f "res" (.read "a" f), ← addTo f "i" (.int 1)],
      .returnFrom f (.read "res" f)])
  return f

/-- Two loops, one inside the other, of which the inner counter is never set back. -/
def nestedLoop (main : FunctionId) : Build FunctionId := do
  let f ← declareLocal main "evalNestedLoop" intPair .int
  let outer ← newLoop
  let inner ← newLoop
  define f (.block
    [.declare "r" .int (some (.int 0)),
      .declare "i" .int (some (.int 0)),
      .declare "j" .int (some (.int 0)),
      whileLoop outer (← intTest "less" (.read "i" f) (.read "a" f))
        [whileLoop inner (← intTest "less" (.read "j" f) (.read "b" f))
            [← addTo f "r" (← intOp "plus" (.read "i" f) (.read "j" f)), ← addTo f "j" (.int 1)],
          ← addTo f "i" (.int 1)],
      .returnFrom f (.read "r" f)])
  return f

def loops : Build Unit := do
  let (main, println) ← mainAndPrintln
  let multiply ← multiply main
  let nested ← nestedLoop main
  define main (printAll println
    [call multiply [.int 5, .int 10], call nested [.int 5, .int 10]])

def nestedLoops : Build Unit := do
  let (main, println) ← mainAndPrintln
  let nested ← nestedLoop main
  define main (printAll println [call nested [.int 5, .int 10]])

/-! ## Recursion -/

def recursion : Build Unit := do
  let (main, println) ← mainAndPrintln

  let fac ← declareLocal main "evalFac" [("n", .int)] .int
  define fac (.block
    [.ifThen (← intTest "lessOrEqual" (.read "n" fac) (.int 1)) (.returnFrom fac (.int 1)),
      .returnFrom fac (← intOp "times" (.read "n" fac)
        (call fac [← intOp "minus" (.read "n" fac) (.int 1)]))])

  let fib ← declareLocal main "evalFib" [("n", .int)] .int
  define fib (.block
    [.ifThen (← intTest "less" (.read "n" fib) (.int 2)) (.returnFrom fib (.int 1)),
      .returnFrom fib (← intOp "plus"
        (call fib [← intOp "minus" (.read "n" fib) (.int 1)])
        (call fib [← intOp "minus" (.read "n" fib) (.int 2)]))])

  define main (printAll println [call fac [.int 6], call fib [.int 5]])

/-! ## Limits -/

def exceedingLimits : Build Unit := do
  let (main, println) ← mainAndPrintln

  let iterate ← declareLocal main "evalIterate" [("a", .int)] .int
  let counting ← newLoop
  define iterate (.block
    [.declare "i" .int (some (.int 0)),
      whileLoop counting (← intTest "less" (.read "i" iterate) (.read "a" iterate))
        [← addTo iterate "i" (.int 1)],
      .returnFrom iterate (.read "i" iterate)])

  let forever ← declareLocal main "evalIterateInfinitely" [] .int
  let endless ← newLoop
  define forever (.block
    [whileLoop endless (.bool true) [], .returnFrom forever (.int 1)])

  let recurse ← declareLocal main "evalRecInfinitely" [("i", .int)] .int
  define recurse (.block [.returnFrom recurse (call recurse [.read "i" recurse])])

  define main (printAll println
    [call iterate [.int 1000100],
      call iterate [.int 1000],
      call forever [],
      call recurse [.int 1000]])

/-! ## Variables, conditions, calls -/

def shadowing : Build Unit := do
  let (main, println) ← mainAndPrintln

  let f ← declareLocal main "evalF" [("x", .int)] .int
  define f (.block
    [.declare "x" .int (some (← intOp "plus" (.read "x" f) (.int 1))),
      .returnFrom f (.read "x" f)])

  let swap ← declareLocal main "evalSwap" intPair .int
  define swap (.block
    [.declare "x" .int (some (.read "a" swap)),
      .declare "y" .int (some (.read "b" swap)),
      .block
        [.declare "t" .int (some (.read "x" swap)),
          .assign "x" swap (.read "y" swap),
          .assign "y" swap (.read "t" swap)],
      .returnFrom swap (← intOp "plus"
        (← intOp "times" (.read "x" swap) (.int 10)) (.read "y" swap))])

  define main (printAll println [call f [.int 5], call swap [.int 1, .int 2]])

def conditions : Build Unit := do
  let (main, println) ← mainAndPrintln

  let max ← declareLocal main "evalMax" intPair .int
  define max (.block
    [.ifThenElse (← intTest "greater" (.read "a" max) (.read "b" max))
      (.returnFrom max (.read "a" max)) (.returnFrom max (.read "b" max))])

  let sign ← declareLocal main "evalSign" [("n", .int)] .int
  define sign (.block
    [.branch
        [(← intTest "less" (.read "n" sign) (.int 0), .returnFrom sign (.int (-1))),
          (← sameTest (.read "n" sign) (.int 0), .returnFrom sign (.int 0))],
      .returnFrom sign (.int 1)])

  let both ← intrinsic "ANDAND" [.boolean, .boolean] .boolean
  let between ← declareLocal main "evalBetween" [("n", .int), ("lo", .int), ("hi", .int)] .boolean
  define between (.block
    [.returnFrom between (call both
      [← intTest "lessOrEqual" (.read "lo" between) (.read "n" between),
        ← intTest "lessOrEqual" (.read "n" between) (.read "hi" between)])])

  define main (printAll println
    [call max [.int 3, .int 7],
      call sign [.int (-5)],
      call sign [.int 0],
      call between [.int 15, .int 0, .int 10]])

def nestedCalls : Build Unit := do
  let (main, println) ← mainAndPrintln

  let square ← declareLocal main "evalSquare" [("x", .int)] .int
  define square (.block
    [.returnFrom square (← intOp "times" (.read "x" square) (.read "x" square))])

  let squarePlusOne ← declareLocal main "evalSquarePlusOne" [("x", .int)] .int
  define squarePlusOne (.block
    [.returnFrom squarePlusOne
      (← intOp "plus" (call square [.read "x" squarePlusOne]) (.int 1))])

  let triple ← declareLocal main "triple" [("x", .int)] .int
  define triple (.block [.returnFrom triple (← intOp "times" (.read "x" triple) (.int 3))])

  let usesPlain ← declareLocal main "evalUsesPlain" [("x", .int)] .int
  define usesPlain (.block
    [.returnFrom usesPlain (call triple [.read "x" usesPlain])])

  define main (printAll println [call squarePlusOne [.int 4], call usesPlain [.int 3]])

/-! ## The list -/

def all : List Sample :=
  [⟨"const_types_operations", "arithmetic, boolean and string operations", operations⟩,
    ⟨"loops", "while loops with compound assignment", loops⟩,
    ⟨"loops_nested", "a nested loop whose inner counter is never reset", nestedLoops⟩,
    ⟨"recursion", "factorial and Fibonacci", recursion⟩,
    ⟨"huge_loop", "calls that exceed the step or call depth limits", exceedingLimits⟩,
    ⟨"variables", "a local shadowing a parameter", shadowing⟩,
    ⟨"conditions", "if/else and when with several arms", conditions⟩,
    ⟨"nested_fun", "marker functions calling each other and plain functions", nestedCalls⟩]

def find? (name : String) : Option Sample :=
  all.find? (·.name == name)

end Samples

end CallFolding
