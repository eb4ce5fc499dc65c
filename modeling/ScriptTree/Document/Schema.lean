import ScriptTree.Document.Literal

/-!
# The schema of documents

Which fields a node of each kind has besides its span, and what each of them holds. A field that is not in the schema is
foreign and never looked at. `Part` is a decoded field; `Parts` are those of one node, looked up by name when the node is
put together. A literal is the one kind that has the offsets of its span among its fields.
-/

namespace ScriptTree

/-- What a field without nodes in it holds. The `optional` ones may be null. -/
inductive ScalarShape where
  | text
  | optionalText
  | flag
  | offset
  | operator
  | keyword
  | optionalRegex
  | anything
  deriving DecidableEq

/-- What a field holds. -/
inductive Shape where
  | node
  | optionalNode
  | nodes
  | declarators
  | scalar (shape : ScalarShape)
  deriving DecidableEq

/-- The fields of a kind of nodes, by name. -/
abbrev Schema := List (String × Shape)

/-- The fields of a declarator. -/
def Schema.declarator : Schema := [("id", .node), ("init", .optionalNode)]

/-- The fields of a literal, in the order in which they stand if they are given without their names. -/
def Schema.literal : Schema :=
  [("start", .scalar .offset), ("end", .scalar .offset), ("value", .scalar .anything), ("raw", .scalar .optionalText),
    ("regex", .scalar .optionalRegex), ("bigint", .scalar .optionalText)]

/-- The fields of a node. -/
def NodeKind.schema : NodeKind → Schema
  | .program => [("body", .nodes)]
  | .expressionStatement => [("expression", .node)]
  | .binary => [("left", .node), ("operator", .scalar .operator), ("right", .node)]
  | .literal => Schema.literal
  | .call => [("callee", .node), ("arguments", .nodes), ("optional", .scalar .flag)]
  | .member => [("object", .node), ("property", .node), ("computed", .scalar .flag), ("optional", .scalar .flag)]
  | .identifier => [("name", .scalar .text)]
  | .declaration => [("kind", .scalar .keyword), ("declarations", .declarators)]
  | .declarator => Schema.declarator

/-- What a field was decoded to. -/
inductive Part where
  | absent
  | node (node : Node)
  | nodes (nodes : List Node)
  | declarators (declarators : List Declarator)
  | text (text : String)
  | flag (flag : Bool)
  | offset (offset : Nat)
  | operator (operator : BinaryOperator)
  | keyword (kind : DeclarationKind)
  | regex (regex : Regex)
  | anything (value : Json)

/-- The decoded fields of an object, by name. -/
abbrev Parts := List (String × Part)

namespace Parts

/-- A node, which has to be there. -/
def node (parts : Parts) (name : String) : Except ShapeError Node :=
  match parts.lookup name with
  | some (.node node) => .ok node
  | _ => .error (.missingField name)

/-- A node that may be absent. -/
def node? (parts : Parts) (name : String) : Option Node :=
  match parts.lookup name with
  | some (.node node) => some node
  | _ => none

/-- Nodes, if they are there. -/
def nodes? (parts : Parts) (name : String) : Option (List Node) :=
  match parts.lookup name with
  | some (.nodes nodes) => some nodes
  | _ => none

/-- Nodes, which have to be there. -/
def nodes (parts : Parts) (name : String) : Except ShapeError (List Node) :=
  match parts.nodes? name with
  | some nodes => .ok nodes
  | none => .error (.missingField name)

/-- Declarators, which have to be there. -/
def declarators (parts : Parts) (name : String) : Except ShapeError (List Declarator) :=
  match parts.lookup name with
  | some (.declarators declarators) => .ok declarators
  | _ => .error (.missingField name)

/-- A text that may be absent. -/
def text? (parts : Parts) (name : String) : Option String :=
  match parts.lookup name with
  | some (.text text) => some text
  | _ => none

/-- A text, which has to be there. -/
def text (parts : Parts) (name : String) : Except ShapeError String :=
  match parts.text? name with
  | some text => .ok text
  | none => .error (.missingField name)

/-- A flag; an absent one is not set. -/
def flag (parts : Parts) (name : String) : Bool :=
  match parts.lookup name with
  | some (.flag flag) => flag
  | _ => false

/-- An offset; an absent one is zero. -/
def offset (parts : Parts) (name : String) : Nat :=
  match parts.lookup name with
  | some (.offset offset) => offset
  | _ => 0

/-- An operator, which has to be there. -/
def operator (parts : Parts) (name : String) : Except ShapeError BinaryOperator :=
  match parts.lookup name with
  | some (.operator operator) => .ok operator
  | _ => .error (.missingField name)

/-- A declaration keyword, which has to be there. -/
def keyword (parts : Parts) (name : String) : Except ShapeError DeclarationKind :=
  match parts.lookup name with
  | some (.keyword kind) => .ok kind
  | _ => .error (.missingField name)

/-- A regular expression that may be absent. -/
def regex? (parts : Parts) (name : String) : Option Regex :=
  match parts.lookup name with
  | some (.regex regex) => some regex
  | _ => none

/-- Any value; an absent one is null. -/
def anything (parts : Parts) (name : String) : Json :=
  match parts.lookup name with
  | some (.anything value) => value
  | _ => .null

/-- The span whose offsets are among the fields. -/
def span (parts : Parts) : Span := ⟨parts.offset "start", parts.offset "end"⟩

/-- The declarator that some fields make up, but for its span. -/
def declarator (parts : Parts) : Except ShapeError (Span → Declarator) := do
  let target ← parts.node "id"
  return fun span => .mk span target (parts.node? "init")

/-- The node of a kind that some fields make up, but for its span. The first missing field in the order of the schema is
the one that is reported. -/
def assemble (parts : Parts) : NodeKind → Except ShapeError (Span → Node)
  | .program => do
    let body ← parts.nodes "body"
    return fun span => .program span body
  | .expressionStatement => do
    let expression ← parts.node "expression"
    return fun span => .expressionStatement span expression
  | .binary => do
    let left ← parts.node "left"
    let operator ← parts.operator "operator"
    let right ← parts.node "right"
    return fun span => .binary span left operator right
  | .literal => do
    let fields : LiteralFields := ⟨parts.anything "value", parts.text? "raw", parts.regex? "regex", parts.text? "bigint"⟩
    let value ← fields.literal
    return fun span => .literal span value
  | .call => do
    let callee ← parts.node "callee"
    return fun span => .call span callee ((parts.nodes? "arguments").getD []) (parts.flag "optional")
  | .member => do
    let object ← parts.node "object"
    let property ← parts.node "property"
    return fun span => .member span object property (parts.flag "computed") (parts.flag "optional")
  | .identifier => do
    let name ← parts.text "name"
    return fun span => .identifier span name
  | .declaration => do
    let kind ← parts.keyword "kind"
    let declarators ← parts.declarators "declarations"
    return fun span => .declaration span kind declarators
  | .declarator => do
    let declarator ← parts.declarator
    return fun span => .declarator (declarator span)

end Parts

end ScriptTree
