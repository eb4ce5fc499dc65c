import ScriptTree.Evaluation.Error

/-!
# Reports of errors

`message` is the short wording of an error. `EvalError.report` is what the user of a script sees: the fault under the name
that scripts know for it, and the span that it is blamed on.
-/

namespace ScriptTree

/-- The wording of a nesting limit. -/
def nestingMessage (depth max : Nat) : String :=
  "maximum nesting depth exceeded (" ++ depth.repr ++ " > " ++ max.repr ++ ")"

/-- The wording of a refusal. -/
def EnvironmentError.message : EnvironmentError → String
  | .unbound name => name ++ " is not defined"
  | .constReassigned name => "assignment to constant variable `" ++ name ++ "`"
  | .nestingTooDeep depth max => nestingMessage depth max

/-- The wording of a fault. -/
def Fault.message : Fault → String
  | .unsupportedNode kind => "unsupported node type: " ++ kind
  | .unbound name => (EnvironmentError.unbound name).message
  | .constReassigned name => (EnvironmentError.constReassigned name).message
  | .propertyAccess reason => "unsupported property access: " ++ reason
  | .unsupportedOperation operator left right =>
    "unsupported operation: " ++ left ++ " " ++ operator ++ " " ++ right
  | .range reason => "range error: " ++ reason
  | .notCallable type => type ++ " is not a function"
  | .arity expected got name =>
    name ++ " expects " ++ expected.repr ++ " argument(s), got " ++ got.repr
  | .builtin name reason => "error in builtin " ++ name ++ ": " ++ reason

/-- What the user of a script reads about a fault, its place aside. -/
def Fault.report : Fault → String
  | .unbound name => "ReferenceError: " ++ name ++ " is not defined"
  | .constReassigned name => "TypeError: Assignment to constant variable '" ++ name ++ "'."
  | .notCallable type => "TypeError: value of type " ++ type ++ " is not a function"
  | .unsupportedOperation operator left right =>
    "TypeError: cannot apply `" ++ operator ++ "` to " ++ left ++ " and " ++ right
  | .propertyAccess reason => "TypeError: " ++ reason
  | .range reason => "RangeError: " ++ reason
  | .arity expected got name =>
    "TypeError: " ++ name ++ " expects " ++ expected.repr ++ " argument" ++ (if expected = 1 then "" else "s") ++
      " but got " ++ got.repr
  | fault => "error: " ++ fault.message

namespace EvalError

/-- The wording of an error. -/
def message : EvalError → String
  | .fault f _ => f.message
  | .nestingTooDeep depth max => nestingMessage depth max
  | .interrupted => "evaluation interrupted"

/-- What the user of a script reads about an error. -/
def report : EvalError → String
  | .fault f none => f.report
  | .fault f (some span) => f.report ++ " (at " ++ span.start.repr ++ ".." ++ span.stop.repr ++ ")"
  | error => "error: " ++ error.message

end EvalError

end ScriptTree
