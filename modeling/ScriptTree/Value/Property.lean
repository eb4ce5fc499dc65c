import ScriptTree.Double.Rounding
import ScriptTree.Text.Units
import ScriptTree.Value.Basic

/-!
# Properties

Objects have the properties they were given, strings a length in UTF-16 code units, functions a name and a length, and
regular expressions their source and flags. Other values have none.
-/

namespace ScriptTree

/-- Whether a regular expression has a flag letter. -/
def Regex.hasFlag (r : Regex) (flag : Char) : Bool := r.flags.toList.contains flag

/-- The properties of a regular expression. -/
def Regex.property? (r : Regex) (name : String) : Option Value :=
  match name with
  | "source" => some (.string r.pattern)
  | "flags" => some (.string r.flags)
  | "global" => some (.boolean (r.hasFlag 'g'))
  | "ignoreCase" => some (.boolean (r.hasFlag 'i'))
  | "multiline" => some (.boolean (r.hasFlag 'm'))
  | "sticky" => some (.boolean (r.hasFlag 'y'))
  | "unicode" => some (.boolean (r.hasFlag 'u'))
  | "dotAll" => some (.boolean (r.hasFlag 's'))
  | "lastIndex" => some (.number (.zero false))
  | _ => none

/-- The properties of a function; one without an arity has the length zero. -/
def Builtin.property? (f : Builtin) (name : String) : Option Value :=
  match name with
  | "name" => some (.string f.name)
  | "length" => some (.number (.ofNat (f.arity.getD 0)))
  | _ => none

/-- The value of a property; none if the value has no property of that name. -/
def Value.property? (v : Value) (name : String) : Option Value :=
  match v with
  | .object _ properties => properties.lookup name
  | .string s => if name = "length" then some (.number (.ofNat (Text.unitLength s))) else none
  | .callable _ f => f.property? name
  | .regex _ r => r.property? name
  | _ => none

end ScriptTree
