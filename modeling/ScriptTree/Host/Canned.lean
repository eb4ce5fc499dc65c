import ScriptTree.Host

/-!
# Canned host functions

Host functions that are described rather than written: what they do first, and how they end. They serve to try a script
out against a host of known behaviour.
-/

namespace ScriptTree

/-- What a canned function does before it ends: nothing, write its name and its arguments to the console, or ask for the
run to be interrupted. -/
inductive CannedEffect where
  | nothing
  | log
  | interrupt
  deriving DecidableEq

/-- A canned function: its name, what it does, and what it returns or why it fails. -/
structure Canned where
  name : String
  effect : CannedEffect
  result : Except String Value

/-- The line that a canned function writes about a call. -/
def Canned.line (f : Canned) (arguments : List Value) : String :=
  f.name ++ "[" ++ ", ".intercalate (arguments.map Value.inspect) ++ "]"

/-- What the call of a canned function does. -/
def Canned.reply (f : Canned) (arguments : List Value) : Reply where
  lines := if f.effect = .log then [f.line arguments] else []
  interrupt := f.effect = .interrupt
  result := f.result

/-- The host whose bodies are canned functions, by their place. -/
def Host.ofCanned (functions : Array Canned) : Host := fun earlier key arguments =>
  match functions[key]? with
  | some f => f.reply arguments
  | none => Host.silent earlier key arguments

end ScriptTree
