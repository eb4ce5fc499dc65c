import ScriptTree.Double.Layout
import ScriptTree.Json.Basic

/-!
# Printing JSON

The compact text of a JSON value: no space anywhere, the members of an object sorted by key with the last of a repeated
key standing for all, integers as such, and reals always with a point or an exponent.
-/

namespace ScriptTree.Json

/-- The lower-case hexadecimal digit of a value. -/
def hexDigit (n : Nat) : Char := Nat.digitChar n

/-- A character as it stands in a string. -/
def escapeChar (c : Char) : List Char :=
  match c with
  | '"' => ['\\', '"']
  | '\\' => ['\\', '\\']
  | '\x08' => ['\\', 'b']
  | '\x0c' => ['\\', 'f']
  | '\n' => ['\\', 'n']
  | '\r' => ['\\', 'r']
  | '\t' => ['\\', 't']
  | c => if c < ' ' then ['\\', 'u', '0', '0', hexDigit (c.toNat / 16), hexDigit (c.toNat % 16)] else [c]

/-- A string in quotes. -/
def stringChars (s : String) : List Char := '"' :: (s.toList.flatMap escapeChar ++ ['"'])

/-- Reals have up to 16 digits before the point and four zeros after it, and always a point or an exponent; of two equally
near decimals the one with an even last digit is written. -/
def realLayout : Double.Layout := ⟨.even, 16, 4, ['.', '0']⟩

/-- The characters of a real. JSON has no word for NaN and the infinities. -/
def realChars : Double → List Char
  | .finite negative units _ => (if negative then ['-'] else []) ++ realLayout.chars units
  | _ => "null".toList

/-- Adds a member to sorted ones; one with the same key is replaced. -/
def insertMember (key : String) (value : List Char) : List (String × List Char) → List (String × List Char)
  | [] => [(key, value)]
  | (k, v) :: rest =>
    if key < k then (key, value) :: (k, v) :: rest
    else if k = key then (key, value) :: rest
    else (k, v) :: insertMember key value rest

/-- Parts with a comma between any two. -/
def joinComma : List (List Char) → List Char
  | [] => []
  | [part] => part
  | part :: rest => part ++ ',' :: joinComma rest

mutual

/-- The characters of a value. -/
def chars : Json → List Char
  | .null => "null".toList
  | .bool b => (if b then "true" else "false").toList
  | .integer n => n.repr.toList
  | .real x => realChars x
  | .string s => stringChars s
  | .array items => '[' :: (joinComma (itemChars items) ++ [']'])
  | .object members =>
    '{' :: (joinComma ((sortedMembers [] members).map fun (key, value) => stringChars key ++ ':' :: value) ++ ['}'])

/-- The characters of each item. -/
def itemChars : List Json → List (List Char)
  | [] => []
  | item :: rest => item.chars :: itemChars rest

/-- The members, sorted, with the characters of their values, added to sorted ones. -/
def sortedMembers (sorted : List (String × List Char)) : List (String × Json) → List (String × List Char)
  | [] => sorted
  | (key, value) :: rest => sortedMembers (insertMember key value.chars sorted) rest

end

/-- The compact text of a value. -/
def compact (value : Json) : String := String.ofList value.chars

end ScriptTree.Json
