import ScriptTree.BigInt.Basic
import ScriptTree.Double.Basic

/-!
# Values

What an expression can evaluate to. Primitives are compared by what they hold; a regular expression, a function and an
object carry an identity, given once when they come into being, and are the same value exactly if they have the same
identity.

A function is a builtin: it has a name, an arity, and a body that is either the console's or one of the host's, named by a
key. What a host body does is the business of the host (`ScriptTree.Host`).
-/

namespace ScriptTree

/-- What tells one object-like value from another. -/
abbrev Identity := Nat

/-- A regular expression: its pattern, which is carried and never compiled, and its flag letters. -/
structure Regex where
  pattern : String
  flags : String
  deriving DecidableEq

/-- What a builtin does when it is called. -/
inductive Body where
  | consoleLog
  | host (key : Nat)
  deriving DecidableEq

/-- A function provided from outside the script. Without an arity it takes any number of arguments. -/
structure Builtin where
  name : String
  arity : Option Nat
  body : Body
  deriving DecidableEq

/-- A value of a running script. The properties of an object stand in the order in which they were first added. -/
inductive Value where
  | undefined
  | null
  | boolean (b : Bool)
  | number (x : Double)
  | string (s : String)
  | bigint (b : BigInt)
  | regex (identity : Identity) (regex : Regex)
  | callable (identity : Identity) (builtin : Builtin)
  | object (identity : Identity) (properties : List (String × Value))

instance : Inhabited Value := ⟨.undefined⟩

/-- The types that a script can tell apart with `typeof`. -/
inductive TypeName where
  | undefined
  | object
  | boolean
  | number
  | string
  | bigint
  | function
  deriving DecidableEq

/-- The word for a type. -/
def TypeName.text : TypeName → String
  | .undefined => "undefined"
  | .object => "object"
  | .boolean => "boolean"
  | .number => "number"
  | .string => "string"
  | .bigint => "bigint"
  | .function => "function"

namespace Value

/-- The type of a value; `null` and regular expressions count as objects. -/
def typeName : Value → TypeName
  | .undefined => .undefined
  | .null => .object
  | .boolean _ => .boolean
  | .number _ => .number
  | .string _ => .string
  | .bigint _ => .bigint
  | .regex .. => .object
  | .callable .. => .function
  | .object .. => .object

/-- Whether a value is `null` or `undefined`. -/
def isNullish : Value → Bool
  | .undefined | .null => true
  | _ => false

/-- Whether a value is a string. -/
def isString : Value → Bool
  | .string _ => true
  | _ => false

/-- Whether a value is a function. -/
def isCallable : Value → Bool
  | .callable .. => true
  | _ => false

/-- Whether a value has an identity: an object, a function or a regular expression. -/
def isObjectLike : Value → Bool
  | .regex .. | .callable .. | .object .. => true
  | _ => false

/-- The truth value that a boolean holds. -/
def asBool? : Value → Option Bool
  | .boolean b => some b
  | _ => none

/-- The double that a number holds. -/
def asNumber? : Value → Option Double
  | .number x => some x
  | _ => none

/-- The text that a string holds. -/
def asString? : Value → Option String
  | .string s => some s
  | _ => none

end Value

/-- Adds a property to an object's: a new key goes to the end, a known one keeps its place and gets the new value. -/
def putProperty (properties : List (String × Value)) (key : String) (value : Value) : List (String × Value) :=
  match properties with
  | [] => [(key, value)]
  | (k, v) :: rest => if k = key then (k, value) :: rest else (k, v) :: putProperty rest key value

end ScriptTree
