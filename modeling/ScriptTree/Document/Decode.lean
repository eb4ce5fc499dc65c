import ScriptTree.Document.Schema

/-!
# Decoding syntax trees

`Node.ofJson` makes a syntax tree of a JSON value. The `type` of an object says which kind of node it is, wherever it
stands among the members; the fields of that kind are decoded in the order of the document, and the node is put together
from them, so that a missing field is found after a bad one, and a bad offset of the span last of all. An object of an
unknown type is an unsupported node, whatever else it holds.

A node may also be an array that begins with its type. Only a literal's fields can follow it there.
-/

namespace ScriptTree

/-- Whether a value is null. -/
def Json.isNull : Json → Bool
  | .null => true
  | _ => false

/-- The kind that a `type` names, or points to by its place in the list of kinds; none if it is an unknown one. -/
def kindOfType : Json → Except ShapeError (Option NodeKind)
  | .string name => .ok (NodeKind.ofName? name)
  | .integer n => if 0 ≤ n then .ok NodeKind.all[n.toNat]? else .error (.wrongType (.integer n) .kind)
  | value => .error (.wrongType value .kind)

/-- The kind that the `type` of an object gives. -/
def kindOf (members : List (String × Json)) : Except ShapeError (Option NodeKind) :=
  match members.filter fun member => member.1 = "type" with
  | [] => .error (.missingField "type")
  | (_, value) :: more => do
    let kind ← kindOfType value
    if more.isEmpty then return kind else throw (.duplicateField "type")

/-- Decodes the members that have a reader, in their order; a field given twice is refused. -/
def decodeFields {α : Type} (reader? : String → Option (Json → Except ShapeError α)) (seen : List String) :
    List (String × Json) → Except ShapeError (List (String × α))
  | [] => .ok []
  | (key, value) :: rest =>
    match reader? key with
    | none => decodeFields reader? seen rest
    | some read => do
      if key ∈ seen then throw (.duplicateField key)
      let field ← read value
      let fields ← decodeFields reader? (key :: seen) rest
      return (key, field) :: fields

/-- Refuses fields in a row that are more than there are names for. -/
def checkLength (items : List Json) (most : Nat) : Except ShapeError Unit :=
  if items.length ≤ most then .ok () else .error (.wrongLength items.length (most.repr ++ " elements in sequence"))

/-- Decodes a text. -/
def decodeText : Json → Except ShapeError String
  | .string s => .ok s
  | value => .error (.wrongType value .text)

/-- Decodes an offset, which fits 64 bits without a sign. -/
def decodeOffset : Json → Except ShapeError Nat
  | .integer n => if 0 ≤ n then .ok n.toNat else .error (.wrongValue (.integer n) .offset)
  | value => .error (.wrongType value .offset)

/-- Decodes the span of a node; an absent offset is zero. -/
def decodeSpan (members : List (String × Json)) : Except ShapeError Span := do
  let offsets ← decodeFields (fun key => if key ∈ ["start", "end"] then some decodeOffset else none) [] members
  return ⟨(offsets.lookup "start").getD 0, (offsets.lookup "end").getD 0⟩

/-- The fields of a regular expression, in the order in which they stand if they are given without their names. -/
def regexFields : List String := ["pattern", "flags"]

/-- Decodes the fields of a regular expression. -/
def decodeRegexFields (members : List (String × Json)) : Except ShapeError (List (String × String)) :=
  decodeFields (fun key => if key ∈ regexFields then some decodeText else none) [] members

/-- Decodes a regular expression: an object, or its fields in a row. Absent flags are none. -/
def decodeRegex : Json → Except ShapeError Regex
  | .object members => do
    let texts ← decodeRegexFields members
    match texts.lookup "pattern" with
    | some pattern => return ⟨pattern, (texts.lookup "flags").getD ""⟩
    | none => throw (.missingField "pattern")
  | .array items => do
    let texts ← decodeRegexFields (regexFields.zip items)
    match texts.lookup "pattern" with
    | some pattern =>
      checkLength items regexFields.length
      return ⟨pattern, (texts.lookup "flags").getD ""⟩
    | none => throw (.wrongLength 0 "struct RegexLiteral with 2 elements")
  | value => .error (.wrongType value .regex)

/-- What a word stands for, if it is a known one. -/
def meaningOf {α : Type} (meaning? : String → Option α) (known : List String) (word : String) : Except ShapeError α :=
  match meaning? word with
  | some x => .ok x
  | none => .error (.unknownVariant word known)

/-- Decodes a word of a fixed list: a text, or an object whose only key is the word and whose value is empty. -/
def decodeWord {α : Type} (meaning? : String → Option α) (known : List String) : Json → Except ShapeError α
  | .string word => meaningOf meaning? known word
  | .object [(word, content)] => do
    let x ← meaningOf meaning? known word
    match content with
    | .null => return x
    | .object [] => return x
    | content => throw (.wrongType content .nothing)
  | .object members => .error (.wrongValue (.object members) .singleKey)
  | value => .error (.wrongType value .word)

/-- Decodes an operator token. -/
def decodeOperator : Json → Except ShapeError BinaryOperator :=
  decodeWord BinaryOperator.ofToken? (BinaryOperator.all.map BinaryOperator.token)

/-- Decodes a declaration keyword. -/
def decodeKeyword : Json → Except ShapeError DeclarationKind :=
  decodeWord DeclarationKind.ofKeyword? (DeclarationKind.all.map DeclarationKind.keyword)

/-- Decodes a field without nodes in it. -/
def decodeScalar (shape : ScalarShape) (value : Json) : Except ShapeError Part :=
  match shape with
  | .text => (decodeText value).map .text
  | .optionalText => if value.isNull then .ok .absent else (decodeText value).map .text
  | .flag =>
    match value with
    | .bool b => .ok (.flag b)
    | value => .error (.wrongType value .flag)
  | .offset => (decodeOffset value).map .offset
  | .operator => (decodeOperator value).map .operator
  | .keyword => (decodeKeyword value).map .keyword
  | .optionalRegex => if value.isNull then .ok .absent else (decodeRegex value).map .regex
  | .anything => .ok (.anything value)

/-- The reader of a literal's field. -/
def literalReader? (key : String) : Option (Json → Except ShapeError Part) :=
  match Schema.literal.lookup key with
  | some (.scalar shape) => some (decodeScalar shape)
  | _ => none

/-- Decodes a literal from its members. -/
def decodeLiteral (members : List (String × Json)) : Except ShapeError Node := do
  let parts ← decodeFields literalReader? [] members
  return (← Parts.assemble parts .literal) (Parts.span parts)

/-- Decodes a literal from its fields in a row. -/
def decodeLiteralRow (items : List Json) : Except ShapeError Node := do
  let parts ← decodeFields literalReader? [] ((Schema.literal.map Prod.fst).zip items)
  checkLength items Schema.literal.length
  return (← Parts.assemble parts .literal) (Parts.span parts)

/-- Decodes a node whose type and fields stand in a row. -/
def decodeRow : List Json → Except ShapeError Node
  | [] => .error (.missingField "type")
  | type :: items => do
    match ← kindOfType type with
    | none =>
      checkLength items 0
      return .unsupported
    | some .literal => decodeLiteralRow items
    | some kind => throw (.wrongType (.array items) (.fields kind))

mutual

/-- Decodes a node. -/
def Node.ofJson : Json → Except ShapeError Node
  | .object members => do
    match ← kindOf members with
    | none => return .unsupported
    | some .literal => decodeLiteral members
    | some kind =>
      let build ← (← decodeParts kind.schema [] members).assemble kind
      return build (← decodeSpan members)
  | .array items => decodeRow items
  | value => .error (.wrongType value .node)

/-- Decodes a declarator; its `type` does not matter. -/
def Declarator.ofJson : Json → Except ShapeError Declarator
  | .object members => do
    let build ← (← decodeParts Schema.declarator [] members).declarator
    return build (← decodeSpan members)
  | value => .error (.wrongType value (.fields .declarator))

/-- Decodes the nodes of a list. -/
def decodeNodes : List Json → Except ShapeError (List Node)
  | [] => .ok []
  | item :: rest => do
    let node ← Node.ofJson item
    let nodes ← decodeNodes rest
    return node :: nodes

/-- Decodes the declarators of a list. -/
def decodeDeclarators : List Json → Except ShapeError (List Declarator)
  | [] => .ok []
  | item :: rest => do
    let declarator ← Declarator.ofJson item
    let declarators ← decodeDeclarators rest
    return declarator :: declarators

/-- Decodes the members that are fields of the schema, in their order; a field given twice is refused. -/
def decodeParts (schema : Schema) (seen : List String) : List (String × Json) → Except ShapeError Parts
  | [] => .ok []
  | (key, value) :: rest =>
    match schema.lookup key with
    | none => decodeParts schema seen rest
    | some shape => do
      if key ∈ seen then throw (.duplicateField key)
      let part ←
        match shape with
        | .node => (Node.ofJson value).map Part.node
        | .optionalNode => if value.isNull then pure Part.absent else (Node.ofJson value).map Part.node
        | .nodes =>
          match value with
          | .array items => (decodeNodes items).map Part.nodes
          | value => throw (.wrongType value .sequence)
        | .declarators =>
          match value with
          | .array items => (decodeDeclarators items).map Part.declarators
          | value => throw (.wrongType value .sequence)
        | .scalar shape => decodeScalar shape value
      let parts ← decodeParts schema (key :: seen) rest
      return (key, part) :: parts

end

end ScriptTree
