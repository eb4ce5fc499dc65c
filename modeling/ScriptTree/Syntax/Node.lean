import ScriptTree.BigInt.Basic
import ScriptTree.Double.Basic
import ScriptTree.Syntax.Declaration
import ScriptTree.Syntax.Operator
import ScriptTree.Value.Basic

/-!
# Syntax trees

The tree of a script, as far as it can be evaluated. Every node but an unsupported one carries the span of the script's
text that it stands for.
-/

namespace ScriptTree

/-- A stretch of the script's text: the offset of its start and the offset just past its end. -/
structure Span where
  start : Nat
  stop : Nat
  deriving DecidableEq

instance : Inhabited Span := ⟨⟨0, 0⟩⟩

/-- What a literal stands for. -/
inductive LiteralValue where
  | string (s : String)
  | number (x : Double)
  | boolean (b : Bool)
  | null
  | bigint (b : BigInt)
  | regex (r : Regex)
  deriving DecidableEq

mutual

/-- A node of a syntax tree. -/
inductive Node where
  | program (span : Span) (body : List Node)
  | expressionStatement (span : Span) (expression : Node)
  | binary (span : Span) (left : Node) (operator : BinaryOperator) (right : Node)
  | literal (span : Span) (value : LiteralValue)
  | call (span : Span) (callee : Node) (arguments : List Node) (optional : Bool)
  | member (span : Span) (object : Node) (property : Node) (computed : Bool) (optional : Bool)
  | identifier (span : Span) (name : String)
  | declaration (span : Span) (kind : DeclarationKind) (declarators : List Declarator)
  | declarator (declarator : Declarator)
  | unsupported

/-- One entry of a declaration: its target, and the initial value if there is one. -/
inductive Declarator where
  | mk (span : Span) (target : Node) (init : Option Node)

end

instance : Inhabited Node := ⟨.unsupported⟩

namespace Declarator

def span : Declarator → Span
  | .mk span _ _ => span

def target : Declarator → Node
  | .mk _ target _ => target

def init : Declarator → Option Node
  | .mk _ _ init => init

end Declarator

/-- The kinds of nodes that have a form of their own. -/
inductive NodeKind where
  | program
  | expressionStatement
  | binary
  | literal
  | call
  | member
  | identifier
  | declaration
  | declarator
  deriving DecidableEq

namespace NodeKind

/-- Every kind. -/
def all : List NodeKind :=
  [program, expressionStatement, binary, literal, call, member, identifier, declaration, declarator]

/-- The name of a kind in a document. -/
def name : NodeKind → String
  | program => "Program"
  | expressionStatement => "ExpressionStatement"
  | binary => "BinaryExpression"
  | literal => "Literal"
  | call => "CallExpression"
  | member => "MemberExpression"
  | identifier => "Identifier"
  | declaration => "VariableDeclaration"
  | declarator => "VariableDeclarator"

/-- The kind with a given name. -/
def ofName? (name : String) : Option NodeKind := all.find? fun kind => kind.name = name

/-- A kind of node is read back from its name. -/
theorem ofName?_name (kind : NodeKind) : ofName? kind.name = some kind := by
  cases kind <;> decide

end NodeKind

namespace Node

/-- The kind of a node; none if it is unsupported. -/
def kind? : Node → Option NodeKind
  | .program .. => some .program
  | .expressionStatement .. => some .expressionStatement
  | .binary .. => some .binary
  | .literal .. => some .literal
  | .call .. => some .call
  | .member .. => some .member
  | .identifier .. => some .identifier
  | .declaration .. => some .declaration
  | .declarator .. => some .declarator
  | .unsupported => none

/-- The name of a node's kind in reports. -/
def kindName (node : Node) : String := (node.kind?.map NodeKind.name).getD "unsupported node"

/-- The span of a node; none if it is unsupported. -/
def span? : Node → Option Span
  | .program span _ => some span
  | .expressionStatement span _ => some span
  | .binary span .. => some span
  | .literal span _ => some span
  | .call span .. => some span
  | .member span .. => some span
  | .identifier span _ => some span
  | .declaration span .. => some span
  | .declarator d => some d.span
  | .unsupported => none

end Node

end ScriptTree
