import CallFolding.Folding.Diagnostic
import CallFolding.Sample

/-!
The command line: reads arguments, folds samples and says what to print.

An argument that starts with two dashes is a long option, one that starts with a single dash is a
group of short ones, and a lone dash or anything after `--` is a name. The value of an option
stands behind an equals sign, directly behind a short option, or in the next argument, which then
must not look like an option. Only the repeatable options may occur twice.
-/

set_option autoImplicit false

namespace CallFolding.CommandLine

/-- What the arguments say. -/
structure Arguments where
  marker : Option String := none
  stepLimit : Option Nat := none
  depthLimit : Option Nat := none
  /-- Options of the pass as pairs, in order. -/
  options : List String := []
  showPrograms : Bool := false
  listSamples : Bool := false
  verbosity : Nat := 0
  /-- The name of a sample, or all of them. -/
  sample : Option String := none

/-- An option that takes a value. -/
inductive ValueOption where
  | marker
  | stepLimit
  | depthLimit
  | pair
deriving DecidableEq

/-- Why reading the arguments came to an end early. -/
inductive Stop where
  /-- Help was asked for. -/
  | help
  | usage (message : String)

/-- The arguments so far, and what the next one is going to be. -/
structure Reading where
  arguments : Arguments := {}
  /-- The option that still needs its value. -/
  pending : Option ValueOption := none
  /-- Whether everything that follows is a name. -/
  namesOnly : Bool := false

/-- Fails if something was given before. -/
def once {α : Type} (before : Option α) (name : String) : Except Stop Unit :=
  match before with
  | none => .ok ()
  | some _ => .error (.usage ("the argument '" ++ name ++ "' cannot be used multiple times"))

/-- Reads a limit. -/
def limit (name value : String) : Except Stop Nat :=
  match parseWord? value with
  | some n => .ok n
  | none => .error (.usage ("invalid value '" ++ value ++ "' for '" ++ name ++ "'"))

namespace Arguments

/-- Takes the value of an option. -/
def setValue (arguments : Arguments) (option : ValueOption) (value : String) :
    Except Stop Arguments :=
  match option with
  | .marker => do
    once arguments.marker "--prefix"
    return { arguments with marker := some value }
  | .stepLimit => do
    once arguments.stepLimit "--step-limit"
    return { arguments with stepLimit := some (← limit "--step-limit" value) }
  | .depthLimit => do
    once arguments.depthLimit "--stack-limit"
    return { arguments with depthLimit := some (← limit "--stack-limit" value) }
  | .pair => .ok { arguments with options := arguments.options ++ [value] }

/-- Takes a name. There is room for one. -/
def setName (arguments : Arguments) (name : String) : Except Stop Arguments :=
  match arguments.sample with
  | none => .ok { arguments with sample := some name }
  | some _ => .error (.usage ("unexpected argument '" ++ name ++ "' found"))

/-- Takes a long option that has no value. -/
def setFlag (arguments : Arguments) (name : String) : Except Stop Arguments :=
  match name with
  | "show-ir" => do
    once (if arguments.showPrograms then some () else none) "--show-ir"
    return { arguments with showPrograms := true }
  | "list" => do
    once (if arguments.listSamples then some () else none) "--list"
    return { arguments with listSamples := true }
  | "verbose" => .ok { arguments with verbosity := arguments.verbosity + 1 }
  | "help" => .error .help
  | _ => .error (.usage ("unexpected argument '--" ++ name ++ "' found"))

end Arguments

/-- The long options that take a value. -/
def valueOption? : String → Option ValueOption
  | "prefix" => some .marker
  | "step-limit" => some .stepLimit
  | "stack-limit" => some .depthLimit
  | "option" => some .pair
  | _ => none

/-- The parts before and after the first equals sign, if there is one. -/
def splitAtEquals (text : List Char) : String × Option String :=
  let name := String.ofList (text.takeWhile (· != '='))
  match text.dropWhile (· != '=') with
  | [] => (name, none)
  | _ :: value => (name, some (String.ofList value))

namespace Reading

/-- A long option, without its dashes. -/
def long (reading : Reading) (text : List Char) : Except Stop Reading := do
  let (name, value?) := splitAtEquals text
  match valueOption? name, value? with
  | some option, some value =>
    return { reading with arguments := ← reading.arguments.setValue option value }
  | some option, none => return { reading with pending := some option }
  | none, none => return { reading with arguments := ← reading.arguments.setFlag name }
  | none, some _ => throw (.usage ("unexpected value for '--" ++ name ++ "' found"))

/-- A group of short options, without its dash. One that takes a value takes the rest of the
group. -/
def short (reading : Reading) : List Char → Except Stop Reading
  | [] => .ok reading
  | 'v' :: rest => do
    short { reading with arguments := ← reading.arguments.setFlag "verbose" } rest
  | 'h' :: _ => .error .help
  | 'P' :: [] => .ok { reading with pending := some .pair }
  | 'P' :: '=' :: value | 'P' :: value => do
    return { reading with
      arguments := ← reading.arguments.setValue .pair (String.ofList value) }
  | c :: _ => .error (.usage ("unexpected argument '-" ++ String.singleton c ++ "' found"))

/-- One more argument. -/
def next (reading : Reading) (text : String) : Except Stop Reading :=
  if reading.namesOnly then do
    return { reading with arguments := ← reading.arguments.setName text }
  else
    match text.toList, reading.pending with
    | '-' :: _ :: _, some _ => .error (.usage "a value is required for an option")
    | _, some option => do
      return { reading with
        arguments := ← reading.arguments.setValue option text
        pending := none }
    | ['-', '-'], none => .ok { reading with namesOnly := true }
    | '-' :: '-' :: name, none => reading.long name
    | '-' :: c :: rest, none => reading.short (c :: rest)
    | _, none => do
      return { reading with arguments := ← reading.arguments.setName text }

end Reading

/-- Reads all arguments. -/
def parse (args : List String) : Except Stop Arguments := do
  let reading ← args.foldlM Reading.next {}
  match reading.pending with
  | some _ => throw (.usage "a value is required for an option")
  | none => return reading.arguments

/-! ## What is done -/

/-- The options of the pass. Single limits win over pairs. -/
def passOptions (arguments : Arguments) : Except OptionError Options := do
  let pairs := arguments.options.map fun pair =>
    let (key, value?) := splitAtEquals pair.toList
    (key, value?.getD "")
  let options ← Options.ofChange do
    Options.setEach pairs
    if let some marker := arguments.marker then Options.set Options.prefixKey marker
  return { options with
    limits :=
      { steps := arguments.stepLimit.getD options.limits.steps
        depth := arguments.depthLimit.getD options.limits.depth } }

/-- The samples that are asked for. -/
def samples (arguments : Arguments) : Except Diagnostic (List Sample) :=
  let name := arguments.sample.getD "all"
  if name = "all" then .ok Samples.all
  else
    match Samples.find? name with
    | some sample => .ok [sample]
    | none => .error (.unknownSample name)

/-- What a run leaves: its exit code, what it printed, and what it had to complain about. -/
structure Outcome where
  exitCode : UInt32
  output : String
  complaint : String := ""

/-- One line of the list of samples: names are padded to the same width. -/
def sampleLine (sample : Sample) : String :=
  sample.name ++ String.ofList (List.replicate (24 - sample.name.length) ' ') ++ " "
    ++ sample.description ++ "\n"

/-- What is printed about a sample before it is folded. -/
def sampleHeader (showPrograms : Bool) (sample : Sample) : String :=
  let title := "=== " ++ sample.name ++ " (" ++ sample.description ++ ") ===\n"
  if showPrograms then
    let program := sample.program
    let defined := program.functions.toList.filter (·.body.isSome)
    title ++ String.join (defined.map fun function => program.renderFunction function.id ++ "\n")
      ++ "\n"
  else title

/-- What is printed about a folded sample: its `main`, then what became of each call. -/
def foldedText (folded : Folded) : String :=
  let main :=
    match folded.program.find? "main" with
    | some function => folded.program.renderFunction function.id ++ "\n"
    | none => ""
  let line (record : FoldRecord) : String :=
    "  " ++ record.call ++ " in " ++ folded.program.functionName record.function ++ ": "
      ++ record.verdict.message ++ "\n"
  main ++ String.join (folded.records.toList.map line) ++ "\n"

/-- Folds one sample after the other, up to the first that fails. -/
def foldSamples (options : Options) (showPrograms : Bool) : List Sample → String → Outcome
  | [], output => ⟨0, output, ""⟩
  | sample :: rest, output =>
    let output := output ++ sampleHeader showPrograms sample
    match fold sample.program options with
    | .ok folded => foldSamples options showPrograms rest (output ++ foldedText folded)
    | .error diagnostic => ⟨1, output, diagnostic.message⟩

/-- Does what the arguments ask for. -/
def execute (arguments : Arguments) : Outcome :=
  if arguments.listSamples then ⟨0, String.join (Samples.all.map sampleLine), ""⟩
  else
    match passOptions arguments with
    | .error cause => ⟨1, "", cause.message⟩
    | .ok options =>
      match samples arguments with
      | .error diagnostic => ⟨1, "", diagnostic.message⟩
      | .ok samples => foldSamples options arguments.showPrograms samples ""

/-- What is printed when help is asked for. -/
def helpText : String :=
  "Run the constant folding pass over a sample program\n\n"
    ++ "Usage: evalconst [OPTIONS] [FIXTURE]\n\n"
    ++ "Arguments:\n"
    ++ "  [FIXTURE]  Fixture to fold, or \"all\" [default: all]\n\n"
    ++ "Options:\n"
    ++ "      --prefix <PREFIX>            Name prefix of functions whose calls may be folded\n"
    ++ "      --step-limit <STEP_LIMIT>    Maximum number of loop iterations per folded call\n"
    ++ "      --stack-limit <STACK_LIMIT>  Maximum call depth per folded call\n"
    ++ "  -P, --option <KEY=VALUE>         Pass option in KEY=VALUE form, as a compiler plugin would "
    ++ "receive it\n"
    ++ "      --show-ir                    Print every function of the program before folding\n"
    ++ "      --list                       List the available fixtures and exit\n"
    ++ "  -v, --verbose...                 More logging (-v for debug, -vv for trace)\n"
    ++ "  -h, --help                       Print help\n"

/-- A whole run of the command line. -/
def run (args : List String) : Outcome :=
  match parse args with
  | .ok arguments => execute arguments
  | .error .help => ⟨0, helpText, ""⟩
  | .error (.usage message) => ⟨2, "", message⟩

end CallFolding.CommandLine
