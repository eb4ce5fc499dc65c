import ScriptTree.Value.Inspect

/-!
# The host

A host provides the bodies of builtins: what a call writes to the console, whether it asks for the run to be interrupted,
and what it returns or why it fails. A reply depends on the key of the body, on the arguments and on the calls that were
made before, so a body can count or remember. The console's own body is fixed: one line with its arguments.
-/

namespace ScriptTree

/-- What the call of a builtin does. -/
structure Reply where
  lines : List String
  interrupt : Bool
  result : Except String Value

/-- A call that was made: the body that ran, and the arguments it got. -/
structure Call where
  body : Body
  arguments : List Value

/-- The bodies that a host provides: the reply to a call, after the calls made before it, the latest first. -/
abbrev Host := List Call → Nat → List Value → Reply

/-- The host that provides nothing: a call does nothing and returns `undefined`. -/
def Host.silent : Host := fun _ _ _ => ⟨[], false, .ok .undefined⟩

/-- The line that the console writes for some arguments. -/
def consoleLine (arguments : List Value) : String := " ".intercalate (arguments.map Value.display)

/-- What a builtin does when it is called after some other calls. -/
def Builtin.reply (host : Host) (earlier : List Call) (f : Builtin) (arguments : List Value) : Reply :=
  match f.body with
  | .consoleLog => ⟨[consoleLine arguments], false, .ok .undefined⟩
  | .host key => host earlier key arguments

end ScriptTree
