import ScriptTree.Evaluation.Error

/-!
# Environments

An environment is one flat table of bindings, in the order in which their names were first bound, and the nesting depth of
the evaluation that uses it. Binding a bound name replaces its value and kind in place, unless the name is constant.
-/

namespace ScriptTree

/-- A name, its value, and the kind of the declaration that bound it last. -/
structure Binding where
  name : String
  value : Value
  kind : DeclarationKind

/-- A table of bindings in the order of their first binding. -/
abbrev Bindings := List Binding

namespace Bindings

/-- The binding of a name. -/
def find? (table : Bindings) (name : String) : Option Binding := List.find? (fun b => b.name == name) table

/-- The bound names, in order. -/
def names (table : Bindings) : List String := table.map Binding.name

/-- Puts a binding in the place of the one with its name, or at the end. -/
def put (table : Bindings) (binding : Binding) : Bindings :=
  match table with
  | [] => [binding]
  | b :: rest => if b.name = binding.name then binding :: rest else b :: put rest binding

/-- Whether a name is bound for good. -/
def isConst (table : Bindings) (name : String) : Bool := (table.find? name).any fun b => b.kind.isConst

/-- A name is found as it was put last. -/
theorem find?_put_self (table : Bindings) (binding : Binding) :
    (table.put binding).find? binding.name = some binding := by
  induction table with
  | nil => simp [put, find?]
  | cons b rest ih =>
    by_cases h : b.name = binding.name
    · simp [put, find?, h]
    · simpa [put, find?, h] using ih

/-- Putting a binding leaves every other name as it was. -/
theorem find?_put_of_ne (table : Bindings) {binding : Binding} {name : String} (hne : binding.name ≠ name) :
    (table.put binding).find? name = table.find? name := by
  induction table with
  | nil => simp [put, find?, hne]
  | cons b rest ih =>
    by_cases h : b.name = binding.name
    · simp [put, find?, h, hne]
    · by_cases hn : b.name = name
      · simp [put, find?, hn, Ne.symm hne]
      · simpa [put, find?, h, hn] using ih

/-- A name that is bound keeps its place, a new one comes last. -/
theorem names_put (table : Bindings) (binding : Binding) :
    (table.put binding).names =
      if binding.name ∈ table.names then table.names else table.names ++ [binding.name] := by
  induction table with
  | nil => simp [put, names]
  | cons b rest ih =>
    by_cases h : b.name = binding.name
    · simp [put, names, h]
    · have h' : ¬binding.name = b.name := fun e => h e.symm
      simp only [names] at ih
      by_cases hm : binding.name ∈ rest.map Binding.name
      · simp [put, names, h, h', ih, hm]
      · simp [put, names, h, h', ih, hm]

end Bindings

/-- The state of names and nesting. -/
structure Environment where
  bindings : Bindings
  depth : Nat

namespace Environment

/-- The environment without bindings, outside every node. -/
def empty : Environment := ⟨[], 0⟩

/-- The binding of a name. -/
def binding? (env : Environment) (name : String) : Option Binding := env.bindings.find? name

/-- The value of a name. -/
def value? (env : Environment) (name : String) : Option Value := (env.binding? name).map Binding.value

/-- Whether a name is bound. -/
def contains (env : Environment) (name : String) : Bool := (env.binding? name).isSome

/-- The value of a name, which has to be bound. -/
def get (env : Environment) (name : String) : Except EnvironmentError Value :=
  match env.value? name with
  | some value => .ok value
  | none => .error (.unbound name)

/-- Binds a name, which must not be bound as a constant. -/
def bind (env : Environment) (name : String) (value : Value) (kind : DeclarationKind) :
    Except EnvironmentError Environment :=
  if env.bindings.isConst name then .error (.constReassigned name)
  else .ok { env with bindings := env.bindings.put ⟨name, value, kind⟩ }

/-- Enters a node, if the depth is below the limit. -/
def enter (env : Environment) (max : Nat) : Except EnvironmentError Environment :=
  if max ≤ env.depth then .error (.nestingTooDeep (env.depth + 1) max)
  else .ok { env with depth := env.depth + 1 }

/-- Leaves a node; outside every node there is nothing to leave. -/
def leave (env : Environment) : Environment := { env with depth := env.depth - 1 }

/-- Takes nesting guards one inside the other, each with its own limit, and releases them all again: the depth seen
through each granted guard, the refusal that ended the taking, if any, and the environment afterwards. -/
def withGuards (env : Environment) : List Nat → List Nat × Option EnvironmentError × Environment
  | [] => ([], none, env)
  | max :: more =>
    match env.enter max with
    | .error refusal => ([], some refusal, env)
    | .ok inner =>
      let (depths, refusal, after) := inner.withGuards more
      (inner.depth :: depths, refusal, after.leave)

end Environment

end ScriptTree
