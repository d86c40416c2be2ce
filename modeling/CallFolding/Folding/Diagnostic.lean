import CallFolding.Folding.Basic

/-!
Failures as they are reported to a user: with a code, perhaps some help, and for a defective call
the code around it and the place of the call in that code.
-/

set_option autoImplicit false

namespace CallFolding

/-- A part of a text, counted in UTF-8 bytes. -/
structure Span where
  start : Nat
  length : Nat
deriving DecidableEq

/-- The number of bytes before the first occurrence of `pattern`. -/
def bytesBefore? (pattern : List Char) : List Char → Option Nat
  | [] => if pattern.isEmpty then some 0 else none
  | c :: rest =>
    if pattern.isPrefixOf (c :: rest) then some 0
    else (bytesBefore? pattern rest).map (c.utf8Size + ·)

/-- The first place where `text` contains `part`. -/
def Span.find? (text part : String) : Option Span :=
  (bytesBefore? part.toList text.toList).map (⟨·, part.utf8ByteSize⟩)

inductive Diagnostic where
  /-- A defective call, with the source of the function around it. -/
  | defectiveCall (call : String) (cause : Defect) (source : String) (span : Option Span)
  | badOption (cause : OptionError)
  | unknownSample (name : String)

namespace Diagnostic

def message : Diagnostic → String
  | defectiveCall call _ _ _ => "evaluation of `" ++ call ++ "` failed unexpectedly"
  | badOption cause => cause.message
  | unknownSample name => "no fixture named '" ++ name ++ "'"

def code : Diagnostic → String
  | defectiveCall _ _ _ _ => "evalconst::internal"
  | badOption _ => "evalconst::options"
  | unknownSample _ => "evalconst::fixture"

def help : Diagnostic → Option String
  | defectiveCall _ _ _ _ =>
    some ("the checker accepted a call the evaluator could not run; "
      ++ "this is a bug in the tree or in evalconst")
  | badOption _ => some "supported options are prefix, step-limit and stack-limit"
  | unknownSample _ => none

/-- The diagnostic for a pass that was ended. The function around the call is looked up by its
qualified name; the first one of that name is shown. -/
def ofFoldError (program : Program) (error : FoldError) : Diagnostic :=
  let source :=
    match program.functions.find? (·.qualifiedName == error.function) with
    | some function => program.renderFunction function.id
    | none => error.function
  defectiveCall error.call error.cause source (Span.find? source error.call)

end Diagnostic

/-- Folds the calls of a program, with a failure turned into a diagnostic. -/
def fold (program : Program) (options : Options) : Except Diagnostic Folded :=
  (Folding.run program options).mapError (.ofFoldError program)

end CallFolding
