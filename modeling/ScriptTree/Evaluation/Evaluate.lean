import ScriptTree.Evaluation.State
import ScriptTree.Operation.Apply

/-!
# Evaluation

`Node.evaluate` runs a syntax tree. Every node is entered through `entering`, the one place where the interrupt flag and
the nesting limit are checked, the entry is recorded, and a fault that nobody has located yet is blamed on the node. The
recursion follows the tree: an operand before the operation, the left one first, the callee before the arguments, the
object before its property is read, an initial value before its name is bound.
-/

namespace ScriptTree

/-- A run that stops at a fault not yet blamed on any span. -/
def Run.fault {α : Type} (f : Fault) : Run α := throw (.bare f)

/-- The result of an operation as a run. -/
def Run.ofOperation (result : Except OperationError Value) : Run Value :=
  match result with
  | .ok value => pure value
  | .error error => Run.fault (.ofOperation error)

/-- A part of the environment's work as a run. -/
def Run.ofEnvironment {α : Type} (work : EStateM EnvironmentError State α) : Run α :=
  EStateM.adaptExcept EnvironmentError.toEvalError work

/-- Blames an error on a node, if the node has a span. -/
def Node.blame (node : Node) (error : EvalError) : EvalError :=
  match node.span? with
  | some span => error.locate span
  | none => error

/-- Runs the work of a node inside it. An interrupted run enters nothing, and neither does one at its nesting limit. -/
def entering (cx : Context) (node : Node) (work : Run Value) : Run Value := fun s =>
  if s.interrupted then .error .interrupted s
  else
    match s.environment.enter cx.maxDepth with
    | .error refusal => .error refusal.toEvalError s
    | .ok inside =>
      match work ({ s with environment := inside }.record (.entered node inside.depth)) with
      | .ok value after => .ok value after.leave
      | .error error after => .error (node.blame error) after.leave

/-- A fresh identity. -/
def freshIdentity : Run Identity := fun s => .ok s.nextIdentity { s with nextIdentity := s.nextIdentity + 1 }

/-- The value of a literal. A regular expression comes into being anew each time. -/
def LiteralValue.evaluate : LiteralValue → Run Value
  | .string s => pure (.string s)
  | .number x => pure (.number x)
  | .boolean b => pure (.boolean b)
  | .null => pure .null
  | .bigint b => pure (.bigint b)
  | .regex r => do return .regex (← freshIdentity) r

/-- The value of a name. -/
def lookUp (name : String) : Run Value := fun s =>
  match s.environment.get name with
  | .ok value => .ok value s
  | .error refusal => .error refusal.toEvalError s

/-- Reads a property of a value by the property node of a member expression. A property that is not there is
`undefined`. -/
def Value.member (base : Value) (property : Node) (computed : Bool) : Except Fault Value :=
  if computed then .error (.propertyAccess "computed property keys are not supported")
  else
    match property with
    | .identifier _ name =>
      if base.isNullish then
        .error (.propertyAccess ("cannot read properties of " ++ base.display ++ " (reading '" ++ name ++ "')"))
      else .ok ((base.property? name).getD .undefined)
    | _ => .error (.propertyAccess "property key is not a static name")

/-- Whether a builtin can be called with so many arguments. -/
def Builtin.checkArity (f : Builtin) (got : Nat) : Except Fault Unit :=
  match f.arity with
  | some expected => if got = expected then .ok () else .error (.arity expected got f.name)
  | none => .ok ()

/-- Runs the body of a builtin and gives what it returns. -/
def Builtin.perform (cx : Context) (f : Builtin) (arguments : List Value) : Run Value := fun s =>
  let reply := f.reply cx.host s.calls arguments
  let after := s.receive ⟨f.body, arguments⟩ reply
  match reply.result with
  | .ok value => .ok value after
  | .error reason => .error (.bare (.builtin f.name reason)) after

/-- Calls a builtin: its arity is checked, then its body runs. -/
def Builtin.call (cx : Context) (f : Builtin) (arguments : List Value) : Run Value :=
  match f.checkArity arguments.length with
  | .ok () => f.perform cx arguments
  | .error fault => Run.fault fault

/-- Calls a builtin from a node of a script; the call is recorded once its arity is known to fit. -/
def Builtin.callFrom (cx : Context) (site : Node) (f : Builtin) (arguments : List Value) : Run Value :=
  match f.checkArity arguments.length with
  | .ok () => do
    modify fun s => s.record (.calling site f.name arguments.length)
    f.perform cx arguments
  | .error fault => Run.fault fault

/-- The name that a declaration's target stands for; only a plain identifier does. -/
def Declarator.name (d : Declarator) : Except EvalError String :=
  match d.target with
  | .identifier _ name => .ok name
  | target =>
    .error (.located (.unsupportedNode ("declaration target " ++ target.kindName)) (target.span?.getD d.span))

/-- Binds the name of a declarator; a refusal is blamed on the declarator. -/
def Declarator.bind (d : Declarator) (name : String) (value : Value) (kind : DeclarationKind) : Run Unit :=
  EStateM.adaptExcept (EvalError.locate d.span) (Run.ofEnvironment (State.bind name value kind))

mutual

/-- Evaluates a node. -/
def Node.evaluate (cx : Context) (node : Node) : Run Value :=
  entering cx node <|
    match node with
    | .program _ body => evaluateStatements cx .undefined body
    | .expressionStatement _ expression => expression.evaluate cx
    | .binary _ left operator right => do
      let l ← left.evaluate cx
      let r ← right.evaluate cx
      Run.ofOperation (operator.apply l r)
    | .literal _ value => value.evaluate
    | .call span callee arguments _ => do
      match ← callee.evaluate cx with
      | .callable _ f =>
        let values ← evaluateArguments cx arguments
        let _ ← f.callFrom cx node values
        return .undefined
      | other => throw (.located (.notCallable other.typeName.text) (callee.span?.getD span))
    | .member _ object property computed _ => do
      match (← object.evaluate cx).member property computed with
      | .ok value => return value
      | .error fault => Run.fault fault
    | .identifier _ name => lookUp name
    | .declaration _ kind declarators => do
      evaluateDeclarators cx kind declarators
      return .undefined
    | .declarator _ => Run.fault (.unsupportedNode "VariableDeclarator outside a declaration")
    | .unsupported => Run.fault (.ofNode node)

/-- Evaluates statements in order and gives the value of the last one, or the given one if there is none. -/
def evaluateStatements (cx : Context) (last : Value) : List Node → Run Value
  | [] => pure last
  | statement :: rest => do evaluateStatements cx (← statement.evaluate cx) rest

/-- Evaluates arguments from left to right. -/
def evaluateArguments (cx : Context) : List Node → Run (List Value)
  | [] => pure []
  | argument :: rest => do
    let value ← argument.evaluate cx
    let values ← evaluateArguments cx rest
    return value :: values

/-- Evaluates the initial value of a declarator and binds its name; the target is looked at first. -/
def Declarator.evaluate (cx : Context) (kind : DeclarationKind) (d : Declarator) : Run Unit :=
  match d.name with
  | .error error => throw error
  | .ok name =>
    match d with
    | .mk _ _ init => do
      let value ← evaluateInit cx init
      d.bind name value kind

/-- Evaluates an initial value; without one a name starts out `undefined`. -/
def evaluateInit (cx : Context) : Option Node → Run Value
  | none => pure .undefined
  | some init => init.evaluate cx

/-- Evaluates declarators in order; those before a failing one stay bound. -/
def evaluateDeclarators (cx : Context) (kind : DeclarationKind) : List Declarator → Run Unit
  | [] => pure ()
  | d :: rest => do
    d.evaluate cx kind
    evaluateDeclarators cx kind rest

end

end ScriptTree
