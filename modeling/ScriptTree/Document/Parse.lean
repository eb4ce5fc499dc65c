import ScriptTree.Document.Decode
import ScriptTree.Json.Read

/-!
# Documents

`Document.parse` reads the tree of a script from a document: the JSON text of a program node. The nesting of the text is
limited. The root has to name its type, once and as a text, for the document to count as readable at all; anything that
follows the root's value makes it unreadable too, but only once the shape of the root is known to be right.

The limit of the nesting belongs to the reader of JSON texts, not to scripts: that it is 127 is an assumption about the reader
that documents come through, and the statements on the height of parsed trees hold as far as it does.
-/

namespace ScriptTree.Document

/-- How many arrays and objects may be open at once in a document. -/
def nestingLimit : Nat := 127

/-- The name by which a document goes in reports unless it is given another. -/
def defaultName : String := "input.json"

/-- The name of the format of documents. -/
def formatName : String := "ESTree"

/-- The extension of the files that documents come in. -/
def fileExtension : String := "json"

/-- Whether a value can be the root of a document: an object with one `type`, which is a text, or an array that begins
with one. -/
def isRoot : Json → Bool
  | .object members =>
    match members.filter fun member => member.1 = "type" with
    | [(_, .string _)] => true
    | _ => false
  | .array (.string _ :: _) => true
  | _ => false

/-- Whether a node is a program. -/
def isProgram : Node → Bool
  | .program .. => true
  | _ => false

/-- The tree of the program in a document. -/
def parse (name source : String) : Except DocumentError Node :=
  match Json.ofTokens? nestingLimit (Json.Token.scan source) with
  | none => .error (.unreadable name)
  | some (value, rest) =>
    if !isRoot value then .error (.unreadable name)
    else
      match Node.ofJson value with
      | .error error => .error (.misshapen error name)
      | .ok node =>
        if !rest.isEmpty then .error (.unreadable name)
        else if isProgram node then .ok node
        else .error (.notProgram node.kindName)

end ScriptTree.Document
