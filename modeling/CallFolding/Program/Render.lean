import CallFolding.Literal.Text
import CallFolding.Program.Basic

/-!
Programs as text that looks like source code, for reports and messages.

The depth of an expression decides only how far the lines after its first one are indented. So an
expression that fits on one line looks the same wherever it stands.
-/

set_option autoImplicit false

namespace CallFolding

namespace Render

/-- Four blanks for each level. -/
def indent (depth : Nat) : String :=
  String.ofList (List.replicate (4 * depth) ' ')

/-- The operator that stands between the two operands of a call to this function. -/
def operator? : String → Option String
  | "plus" => some "+"
  | "minus" => some "-"
  | "times" => some "*"
  | "div" => some "/"
  | "rem" => some "%"
  | "less" => some "<"
  | "lessOrEqual" => some "<="
  | "greater" => some ">"
  | "greaterOrEqual" => some ">="
  | "EQEQ" => some "=="
  | "ieee754equals" => some "=="
  | "ANDAND" => some "&&"
  | "OROR" => some "||"
  | _ => none

/-- A call, from the texts of its receiver and arguments. -/
def call (name : String) (receiver : Option String) (args : List String) : String :=
  match operator? name, receiver.toList ++ args with
  | some operator, [left, right] => "(" ++ left ++ " " ++ operator ++ " " ++ right ++ ")"
  | _, _ =>
    match name, receiver, args with
    | "not", some operand, [] => "!" ++ operand
    | "length", some operand, [] => operand ++ ".length"
    | _, some operand, _ => operand ++ "." ++ name ++ "(" ++ ", ".intercalate args ++ ")"
    | _, none, _ => name ++ "(" ++ ", ".intercalate args ++ ")"

/-- A variable; the receiver has a word of its own. -/
def variableName (name : String) : String :=
  if name == Function.receiverName then "this" else name

/-- Lines between braces, one level deeper than the braces. -/
def braced (depth : Nat) (lines : List String) : String :=
  "\x7b\n" ++ String.join (lines.map fun line => indent (depth + 1) ++ line ++ "\n")
    ++ indent depth ++ "\x7d"

/-- What stands in front of a loop: its label, or its identity. -/
def loopLabel (id : LoopId) (label : Option String) : String :=
  label.getD id.text ++ "@ "

end Render

namespace Program

open Render

variable (program : Program)

/-- The simple name of a callee. -/
def calleeName (id : FunctionId) : String :=
  match program.function? id with
  | some function => function.name
  | none => "<unknown>"

mutual

/-- An expression whose first line starts at the given depth. -/
def renderAt (depth : Nat) : Expr → String
  | .const value => value.source
  | .read name _ => variableName name
  | .declare name type init =>
    match renderOption depth init with
    | some text => "var " ++ name ++ ": " ++ type.shortName ++ " = " ++ text
    | none => "var " ++ name ++ ": " ++ type.shortName
  | .assign name _ value => variableName name ++ " = " ++ renderAt depth value
  | .call callee receiver args =>
    Render.call (program.calleeName callee) (renderOption depth receiver) (renderEach depth args)
  | .block [] => "\x7b\x7d"
  | .block (first :: rest) =>
    braced depth (renderAt (depth + 1) first :: renderEach (depth + 1) rest)
  | .branch arms => "when " ++ braced depth (renderArms (depth + 1) arms)
  | .loop .testFirst id label condition body =>
    loopLabel id label ++ "while (" ++ renderAt depth condition ++ ") "
      ++ (renderOption depth body).getD "\x7b\x7d"
  | .loop .testLast id label condition body =>
    loopLabel id label ++ "do " ++ (renderOption depth body).getD "\x7b\x7d"
      ++ " while (" ++ renderAt depth condition ++ ")"
  | .returnFrom _ value => "return " ++ renderAt depth value
  | .breakLoop target => "break@" ++ target.text
  | .continueLoop target => "continue@" ++ target.text

def renderOption (depth : Nat) : Option Expr → Option String
  | none => none
  | some e => some (renderAt depth e)

def renderEach (depth : Nat) : List Expr → List String
  | [] => []
  | e :: es => renderAt depth e :: renderEach depth es

def renderArms (depth : Nat) : List (Expr × Expr) → List String
  | [] => []
  | (condition, result) :: arms =>
    (renderAt depth condition ++ " -> " ++ renderAt depth result) :: renderArms depth arms

end

/-- An expression on its own. -/
def render (e : Expr) : String :=
  program.renderAt 0 e

/-- A declaration: member functions with their type in front, and the body if there is one. -/
def renderDeclaration (function : Function) : String :=
  let owner :=
    match function.owner with
    | .type type => type.shortName ++ "."
    | _ => ""
  let parameters := function.parameters.map fun p => p.name ++ ": " ++ p.type.shortName
  let header := "fun " ++ owner ++ function.name ++ "(" ++ ", ".intercalate parameters ++ "): "
    ++ function.returnType.shortName
  match function.body with
  | some body => header ++ " " ++ program.render body
  | none => header

/-- The declaration of the function with this number; nothing if there is none. -/
def renderFunction (id : FunctionId) : String :=
  match program.function? id with
  | some function => program.renderDeclaration function
  | none => ""

end Program

end CallFolding
