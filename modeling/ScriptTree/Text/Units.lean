/-!
# UTF-16 code units

The length and the order of a script's strings go by UTF-16 code units: a character beyond the basic plane counts as the
two surrogates of its encoding.
-/

namespace ScriptTree.Text

/-- The code units of one character. -/
def unitsOfChar (c : Char) : List Nat :=
  let code := c.toNat
  if code < 0x10000 then [code]
  else [0xD800 + (code - 0x10000) / 0x400, 0xDC00 + (code - 0x10000) % 0x400]

/-- The UTF-16 encoding of a string. -/
def units (s : String) : List Nat := s.toList.flatMap unitsOfChar

/-- The length of a string in code units. -/
def unitLength (s : String) : Nat := (units s).length

/-- The order of two strings: that of their code units, the first difference deciding. -/
def compareUnits (s t : String) : Ordering := compare (units s) (units t)

end ScriptTree.Text
