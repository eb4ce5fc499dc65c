import ScriptTree.Text.Unprintable

/-!
# Quoted texts in messages

A message quotes a text between double quotes, with an escape for a quote, a backslash and every character that does not
show.
-/

namespace ScriptTree.Text

/-- A character as it stands in a quoted text. -/
def escapeShown (c : Char) : List Char :=
  match c with
  | '"' => ['\\', '"']
  | '\\' => ['\\', '\\']
  | '\n' => ['\\', 'n']
  | '\r' => ['\\', 'r']
  | '\t' => ['\\', 't']
  | '\x00' => ['\\', '0']
  | c => if isPrintable c then [c] else '\\' :: 'u' :: '{' :: (Nat.toDigits 16 c.toNat ++ ['}'])

/-- A text between double quotes. -/
def quoted (s : String) : String := String.ofList ('"' :: (s.toList.flatMap escapeShown ++ ['"']))

end ScriptTree.Text
