import ScriptTree.BigInt.Parse
import ScriptTree.Document.Error
import ScriptTree.Double.Parse
import ScriptTree.Syntax.Node

/-!
# Literals of documents

The value of a literal stands in one of several fields. A BigInt is given by its digits, a regular expression by an object
of its own; otherwise the JSON value is the literal's, and where JSON has none, as for an infinite number, the literal is
read from its source text.
-/

namespace ScriptTree

/-- What the fields of a literal hold, once decoded. -/
structure LiteralFields where
  value : Json
  raw : Option String
  regex : Option Regex
  bigint : Option String

/-- Reads the digits of a BigInt literal: separators are dropped, and a sign may stand before the first digit, behind the
radix prefix if there is one. -/
def BigInt.ofLiteral? (digits : String) : Option BigInt :=
  let text := digits.toList.filter (· ≠ '_')
  match Radix.split? text with
  | some (radix, rest) => parse? radix rest
  | none => parse? 10 text

/-- Reads the source text of a numeric literal, separators dropped. -/
def Double.ofLiteral? (raw : String) : Option Double := Double.parse? (raw.toList.filter (· ≠ '_'))

namespace LiteralFields

/-- The literal that the JSON value and the source text stand for. -/
def plainValue (fields : LiteralFields) : Except ShapeError LiteralValue :=
  match fields.value with
  | .string s => .ok (.string s)
  | .bool b => .ok (.boolean b)
  | .integer n => .ok (.number (.ofInt n))
  | .real x => .ok (.number x)
  | .null =>
    match fields.raw with
    | none => .ok .null
    | some raw =>
      if raw = "null" then .ok .null
      else
        match Double.ofLiteral? raw with
        | some x => .ok (.number x)
        | none => .error (.undecodableNumber raw)
  | value => .error (.unexpectedValue value)

/-- The literal that the fields stand for: BigInt digits count first, then a regular expression, then the value. -/
def literal (fields : LiteralFields) : Except ShapeError LiteralValue :=
  match fields.bigint, fields.regex with
  | some digits, _ =>
    match BigInt.ofLiteral? digits with
    | some b => .ok (.bigint b)
    | none => .error (.bigintOutOfRange digits)
  | none, some regex => .ok (.regex regex)
  | none, none => fields.plainValue

end LiteralFields

end ScriptTree
