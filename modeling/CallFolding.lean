import CallFolding.Main
import CallFolding.Proofs.Scope
import CallFolding.Proofs.Run
import CallFolding.Proofs.RunRelation
import CallFolding.Proofs.Contrast
import CallFolding.Proofs.Constant
import CallFolding.Proofs.Pass
import CallFolding.Proofs.Folding
import CallFolding.Proofs.Metered
import CallFolding.Proofs.Threshold
import CallFolding.Proofs.Eligibility
import CallFolding.Proofs.Turn
import CallFolding.Proofs.Moment
import CallFolding.Proofs.Origin
import CallFolding.Proofs.Stepwise
import CallFolding.Proofs.Course
import CallFolding.Proofs.Bounds
import CallFolding.Proofs.Recount
import CallFolding.Proofs.Wraparound
import CallFolding.Proofs.Activation
import CallFolding.Proofs.Vetted
import CallFolding.Proofs.Outside
import CallFolding.Proofs.Jumps
import CallFolding.Proofs.Replacement
import CallFolding.Proofs.Owners
import CallFolding.Proofs.Balance
import CallFolding.Proofs.Context
import CallFolding.Proofs.Rule
import CallFolding.Proofs.Walk
import CallFolding.Proofs.SecondPass
import CallFolding.Proofs.Children
import CallFolding.Proofs.Raised
import CallFolding.Proofs.Rewriting
import CallFolding.Proofs.Nesting
import CallFolding.Proofs.History
import CallFolding.Proofs.Overload
import CallFolding.Proofs.Faults
import CallFolding.Proofs.Residue
import CallFolding.Proofs.Arithmetic
import CallFolding.Proofs.Narrowing
import CallFolding.Proofs.Units
import CallFolding.Proofs.Ordering
import CallFolding.Proofs.Surrogates
import CallFolding.Proofs.Concatenation
import CallFolding.Proofs.Slice
import CallFolding.Proofs.Descent
import CallFolding.Proofs.Diagnosis
import CallFolding.Proofs.Execution
import CallFolding.Proofs.Iteration
import CallFolding.Proofs.Recursion
import CallFolding.Proofs.Flattening
import CallFolding.Proofs.Building
import CallFolding.Proofs.Options
import CallFolding.Proofs.SourceForm
import CallFolding.Proofs.Nearest
import CallFolding.Proofs.Shortest
import CallFolding.Proofs.Spelling
