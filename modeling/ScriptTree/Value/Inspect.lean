import ScriptTree.Double.Text
import ScriptTree.Text.Alphabetic
import ScriptTree.Value.Basic

/-!
# Inspected values

`Value.inspect` writes a value so that its kind shows: strings are quoted, BigInts end in `n`, objects list their
properties. `Value.display` is the form in which the console writes an argument: a string stands for itself, anything else
is inspected.
-/

namespace ScriptTree

/-- The escaped form of a character between single quotes. -/
def escapeQuoted : Char → List Char
  | '\'' => ['\\', '\'']
  | '\\' => ['\\', '\\']
  | '\n' => ['\\', 'n']
  | '\t' => ['\\', 't']
  | c => [c]

/-- A text between single quotes. -/
def quoteChars (s : String) : List Char := '\'' :: (s.toList.flatMap escapeQuoted ++ ['\''])

/-- Whether a key can stand without quotes: it begins like an identifier and goes on like one. -/
def isPlainKey : List Char → Bool
  | [] => false
  | first :: rest =>
    (Text.isAlphabetic first || first = '_' || first = '$') &&
      rest.all fun c => Text.isAlphanumeric c || c = '_' || c = '$'

/-- A key as an inspected object shows it. -/
def keyChars (key : String) : List Char := if isPlainKey key.toList then key.toList else quoteChars key

namespace Value

mutual

/-- The characters of an inspected value. -/
def inspectChars : Value → List Char
  | .undefined => "undefined".toList
  | .null => "null".toList
  | .boolean b => (if b then "true" else "false").toList
  | .number x => x.inspect.toList
  | .string s => quoteChars s
  | .bigint b => b.toText.toList ++ ['n']
  | .regex _ r => '/' :: (r.pattern.toList ++ '/' :: r.flags.toList)
  | .callable _ f => "[Function: ".toList ++ f.name.toList ++ [']']
  | .object _ [] => ['{', '}']
  | .object _ ((key, value) :: rest) =>
    '{' :: ' ' :: (keyChars key ++ ':' :: ' ' :: (value.inspectChars ++ inspectRest rest))

/-- The characters of the properties after the first, up to the closing brace. -/
def inspectRest : List (String × Value) → List Char
  | [] => [' ', '}']
  | (key, value) :: rest =>
    ',' :: ' ' :: (keyChars key ++ ':' :: ' ' :: (value.inspectChars ++ inspectRest rest))

end

/-- The inspected form of a value. -/
def inspect (v : Value) : String := String.ofList v.inspectChars

/-- The form in which the console writes a value. -/
def display : Value → String
  | .string s => s
  | v => v.inspect

end Value

end ScriptTree
