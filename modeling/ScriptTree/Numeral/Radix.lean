/-!
# Numerals with a radix prefix

`0x`, `0o` and `0b`, in either case, announce digits of radix 16, 8 and 2.
-/

namespace ScriptTree.Radix

/-- The value of a digit, letters of either case counting from ten on, if it is one of the radix. -/
def digit? (radix : Nat) (c : Char) : Option Nat :=
  let value :=
    if '0' ≤ c ∧ c ≤ '9' then c.toNat - '0'.toNat
    else if 'a' ≤ c ∧ c ≤ 'z' then c.toNat - 'a'.toNat + 10
    else if 'A' ≤ c ∧ c ≤ 'Z' then c.toNat - 'A'.toNat + 10
    else radix
  if value < radix then some value else none

/-- The radix that a letter after a leading zero announces. -/
def ofMark? (mark : Char) : Option Nat :=
  if mark = 'x' ∨ mark = 'X' then some 16
  else if mark = 'o' ∨ mark = 'O' then some 8
  else if mark = 'b' ∨ mark = 'B' then some 2
  else none

/-- Splits a radix prefix off a text: the radix and what follows. -/
def split? : List Char → Option (Nat × List Char)
  | '0' :: mark :: rest => (ofMark? mark).map fun radix => (radix, rest)
  | _ => none

/-- The digits of a nonempty text that holds digits of the radix and nothing else. -/
def digits? (radix : Nat) (text : List Char) : Option (List Nat) :=
  if text = [] then none else text.mapM (digit? radix)

/-- The integer that digits stand for, the most significant one first. -/
def value (radix : Nat) (digits : List Nat) : Nat := digits.foldl (fun n digit => n * radix + digit) 0

end ScriptTree.Radix
