import ScriptTree.Environment
import ScriptTree.Host

/-!
# The state of a run

A run works on an environment, the console's lines, the interrupt flag, the supply of fresh identities, and the calls that
the host can look back on; it keeps a record of the events that a trace shows. `Run` is a computation on that state which
ends with a value or an error and leaves a state behind in both cases.
-/

namespace ScriptTree

/-- What a trace shows: every attempt to bind a name, whether it took effect or was refused, every call whose body is about
to run, together with the node it comes from, and every node that was entered. -/
inductive Event where
  | bound (binding : Binding)
  | refused (binding : Binding)
  | calling (site : Node) (name : String) (arguments : Nat)
  | entered (node : Node) (depth : Nat)

/-- The state of a run. -/
structure State where
  environment : Environment
  lines : Array String
  interrupted : Bool
  nextIdentity : Identity
  calls : List Call
  events : Array Event

/-- What a run is given: the limit of nesting, and the host. -/
structure Context where
  maxDepth : Nat
  host : Host

/-- The limit of nesting that holds unless another is asked for. -/
def defaultMaxDepth : Nat := 1000

/-- A computation on the state of a run. -/
abbrev Run := EStateM EvalError State

namespace State

/-- Adds an event to the record. -/
def record (s : State) (event : Event) : State := { s with events := s.events.push event }

/-- Leaves the node that was entered last. -/
def leave (s : State) : State := { s with environment := s.environment.leave }

/-- Lets the reply to a call take effect on the console and on the interrupt flag. -/
def receive (s : State) (call : Call) (reply : Reply) : State :=
  { s with
    lines := s.lines ++ reply.lines
    interrupted := s.interrupted || reply.interrupt
    calls := call :: s.calls }

/-- Binds a name and records whether that was possible. -/
def bind (name : String) (value : Value) (kind : DeclarationKind) : EStateM EnvironmentError State Unit := fun s =>
  match s.environment.bind name value kind with
  | .ok environment => .ok () ({ s with environment := environment }.record (.bound ⟨name, value, kind⟩))
  | .error refusal => .error refusal (s.record (.refused ⟨name, value, kind⟩))

/-- The console: an object with the one property `log`. -/
def console (object log : Identity) : Value :=
  .object object [("log", .callable log ⟨"log", none, .consoleLog⟩)]

/-- The state without any binding. -/
def empty : State := ⟨.empty, #[], false, 0, [], #[]⟩

/-- The state in which a script starts: the console is bound, as a variable. -/
def initial : State :=
  match bind "console" (console 0 1) .var { empty with nextIdentity := 2 } with
  | .ok _ s => s
  | .error _ s => s

end State

end ScriptTree
