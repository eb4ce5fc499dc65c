import ScriptTree.Double.Basic

/-!
# JSON values

A JSON value as a document spells it: the members of an object in their order, repeated keys included, and integers apart
from other numbers. An integer literal counts as an integer if it fits 64 bits, signed or unsigned; `-0` and everything
longer is a real.
-/

namespace ScriptTree

/-- A JSON value. -/
inductive Json where
  | null
  | bool (b : Bool)
  | integer (n : Int)
  | real (x : Double)
  | string (s : String)
  | array (items : List Json)
  | object (members : List (String × Json))

instance : Inhabited Json := ⟨.null⟩

namespace Json

mutual

/-- How many arrays and objects are open at once at the deepest place of a value. -/
def nesting : Json → Nat
  | .array items => nestingOfItems items + 1
  | .object members => nestingOfMembers members + 1
  | _ => 0

/-- The largest nesting among items. -/
def nestingOfItems : List Json → Nat
  | [] => 0
  | item :: rest => max item.nesting (nestingOfItems rest)

/-- The largest nesting among members. -/
def nestingOfMembers : List (String × Json) → Nat
  | [] => 0
  | (_, value) :: rest => max value.nesting (nestingOfMembers rest)

end

end Json

end ScriptTree
