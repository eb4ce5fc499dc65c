import ScriptTree.Operation.Error
import ScriptTree.Syntax.Node

/-!
# Why an evaluation fails

`EnvironmentError` is what the binding table and the nesting limit refuse. `EvalError` is what ends a run: a fault of the
script, which carries the span it is blamed on once that is known, or one of the two limits of a run, which are nobody's
fault and carry none. `EvalError.locate` attaches a span to a fault that has none yet, so the innermost span stays.
-/

namespace ScriptTree

/-- A refusal of the environment. -/
inductive EnvironmentError where
  | unbound (name : String)
  | constReassigned (name : String)
  | nestingTooDeep (depth max : Nat)
  deriving DecidableEq

/-- A fault of a script. The texts that a fault carries are those that its report quotes. -/
inductive Fault where
  | unsupportedNode (kind : String)
  | unbound (name : String)
  | constReassigned (name : String)
  | propertyAccess (reason : String)
  | unsupportedOperation (operator left right : String)
  | range (reason : String)
  | notCallable (type : String)
  | arity (expected got : Nat) (name : String)
  | builtin (name reason : String)
  deriving DecidableEq

/-- What ends a run. -/
inductive EvalError where
  | fault (fault : Fault) (span : Option Span)
  | nestingTooDeep (depth max : Nat)
  | interrupted
  deriving DecidableEq

/-- A node that cannot be evaluated where it stands. -/
def Fault.ofNode (node : Node) : Fault := .unsupportedNode node.kindName

/-- The fault of an operation without a result. -/
def Fault.ofOperation : OperationError → Fault
  | .unsupported operator left right => .unsupportedOperation operator.token left.text right.text
  | .range cause => .range cause.message

namespace EvalError

/-- A fault that is not yet blamed on any span. -/
def bare (fault : Fault) : EvalError := .fault fault none

/-- A fault that is blamed on a span. -/
def located (fault : Fault) (span : Span) : EvalError := .fault fault (some span)

/-- The span that an error is blamed on. -/
def span? : EvalError → Option Span
  | .fault _ span => span
  | .nestingTooDeep .. | .interrupted => none

/-- Blames a fault on a span, unless it is blamed on one already. -/
def locate (span : Span) : EvalError → EvalError
  | .fault f none => .fault f (some span)
  | error => error

/-- The first span that a fault is blamed on is the one that stays. -/
theorem locate_of_span? {error : EvalError} {inner : Span} (h : error.span? = some inner) (outer : Span) :
    error.locate outer = error := by
  cases error with
  | fault f span =>
    obtain rfl : span = some inner := h
    rfl
  | nestingTooDeep depth max => cases h
  | interrupted => cases h

end EvalError

/-- The error of a run in which the environment refuses something. -/
def EnvironmentError.toEvalError : EnvironmentError → EvalError
  | .unbound name => .bare (.unbound name)
  | .constReassigned name => .bare (.constReassigned name)
  | .nestingTooDeep depth max => .nestingTooDeep depth max

end ScriptTree
