import ScriptTree.Json.Print
import ScriptTree.Syntax.Node
import ScriptTree.Text.Quoted

/-!
# Why a document is refused

`ShapeError` says what is wrong with a JSON value that is to be a syntax tree, `DocumentError` why a whole document is
refused: its text is not the JSON of a node, the node has the wrong shape, or it is not a program.
-/

namespace ScriptTree

/-- What a place of a document asks for. -/
inductive Expectation where
  | node
  | fields (kind : NodeKind)
  | regex
  | sequence
  | text
  | flag
  | offset
  | kind
  | word
  | singleKey
  | nothing
  deriving DecidableEq

/-- The wording of an expectation. -/
def Expectation.wording : Expectation → String
  | .node => "internally tagged enum Node"
  | .fields nodeKind => "struct " ++ nodeKind.name
  | .regex => "struct RegexLiteral"
  | .sequence => "a sequence"
  | .text => "a string"
  | .flag => "a boolean"
  | .offset => "usize"
  | .kind => "variant identifier"
  | .word => "string or map"
  | .singleKey => "map with a single key"
  | .nothing => "unit"

/-- What is wrong with a value that is to be a syntax tree. -/
inductive ShapeError where
  | missingField (name : String)
  | duplicateField (name : String)
  | wrongType (found : Json) (expected : Expectation)
  | wrongValue (found : Json) (expected : Expectation)
  | wrongLength (length : Nat) (expected : String)
  | unknownVariant (found : String) (known : List String)
  | bigintOutOfRange (digits : String)
  | undecodableNumber (raw : String)
  | unexpectedValue (value : Json)

/-- How a message refers to a value: by its kind, and by what it holds if that is short. -/
def Json.describe : Json → String
  | .null => "null"
  | .bool b => "boolean `" ++ (if b then "true" else "false") ++ "`"
  | .integer n => "integer `" ++ n.repr ++ "`"
  | .real x => "floating point `" ++ (Json.real x).compact ++ "`"
  | .string s => "string " ++ Text.quoted s
  | .array _ => "sequence"
  | .object _ => "map"

/-- The wording of a shape error. -/
def ShapeError.message : ShapeError → String
  | .missingField name => "missing field `" ++ name ++ "`"
  | .duplicateField name => "duplicate field `" ++ name ++ "`"
  | .wrongType found expected => "invalid type: " ++ found.describe ++ ", expected " ++ expected.wording
  | .wrongValue found expected => "invalid value: " ++ found.describe ++ ", expected " ++ expected.wording
  | .wrongLength length expected => "invalid length " ++ length.repr ++ ", expected " ++ expected
  | .unknownVariant found known =>
    "unknown variant `" ++ found ++ "`, expected one of " ++ ", ".intercalate (known.map fun v => "`" ++ v ++ "`")
  | .bigintOutOfRange digits => "bigint literal `" ++ digits ++ "n` is out of range"
  | .undecodableNumber raw => "cannot decode numeric literal `" ++ raw ++ "`"
  | .unexpectedValue value => "unexpected literal value `" ++ value.compact ++ "`"

/-- Why a document is refused. The file is the name that the document goes by in reports. -/
inductive DocumentError where
  | unreadable (file : String)
  | misshapen (error : ShapeError) (file : String)
  | notProgram (kind : String)

/-- The report of a refused document. A misshapen one is reported at no particular line. -/
def DocumentError.message : DocumentError → String
  | .unreadable file => "Parse error: invalid ESTree document: not the JSON text of a node at " ++ file
  | .misshapen error file => "Parse error: invalid ESTree document: " ++ error.message ++ " at " ++ file ++ ":0:0"
  | .notProgram kind => "Parse error: expected a Program root, found " ++ kind

end ScriptTree
