import ScriptTree.Json.Basic
import ScriptTree.Numeral.Decimal
import ScriptTree.Numeral.Radix

/-!
# JSON tokens

`Token.scan` cuts a text into tokens, one character at a time. A text that no token can be made of yields `fault` and
ends the scan there; whether that matters is for the reader to say, which may be done before.

Scanner and reader stand for the reader of JSON texts that documents come through. That it gives every real the double nearest
to its numeral (`number?`) is an assumption about it. A reader that trades accuracy for speed may miss the nearest double by
one unit in the last place (for `31.245270191439438`, say), and statements about documents say nothing of such a reader.
-/

namespace ScriptTree.Json

/-- A token of a JSON text. -/
inductive Token where
  | openObject
  | closeObject
  | openArray
  | closeArray
  | colon
  | comma
  | text (s : String)
  | atom (value : Json)
  | fault

/-- The white space of JSON. -/
def isSpace (c : Char) : Bool := c = ' ' || c = '\t' || c = '\n' || c = '\r'

/-- Whether the digits before the point are written as JSON asks for: at least one, and no zero before another. -/
def isWhole : List Char → Bool
  | [] => false
  | ['0'] => true
  | first :: _ => first ≠ '0'

/-- A real, unless it is too large for a double. -/
def real? (x : Double) : Option Json := if x.isInfinite then none else some (.real x)

/-- The number of an integer literal: an integer if it fits 64 bits, with a sign or without, and the nearest real
otherwise. -/
def integer? (negative : Bool) (magnitude : Nat) : Option Json :=
  let fits := if negative then 0 < magnitude ∧ magnitude ≤ 1 <<< 63 else magnitude < 1 <<< 64
  if fits then some (.integer (signed negative magnitude))
  else real? (.ofRatio negative (magnitude * unitsPerOne) 1)

/-- Reads a JSON number. A numeral with a point or an exponent is the double nearest to it. -/
def number? (word : List Char) : Option Json :=
  let (negative, body) :=
    match word with
    | '-' :: rest => (true, rest)
    | _ => (false, word)
  let whole := body.takeWhile Char.isDigit
  let rest := body.dropWhile Char.isDigit
  if !isWhole whole then none
  else if rest = [] then integer? negative (Nat.ofDigitChars 10 whole 0)
  else if rest.head? = some '.' ∧ (Decimal.splitFraction rest).1 = [] then none
  else (Decimal.read? word).bind fun decimal => real? decimal.toDouble

namespace Token

/-- The token of a run of characters that are neither space nor punctuation. -/
def ofWord (word : List Char) : Token :=
  if word = "null".toList then .atom .null
  else if word = "true".toList then .atom (.bool true)
  else if word = "false".toList then .atom (.bool false)
  else
    match number? word with
    | some value => .atom value
    | none => .fault

/-- Where a scan stands. Characters already read are kept in reverse. -/
inductive Scan where
  /-- Between two tokens. -/
  | between
  /-- In a word. -/
  | word (read : List Char)
  /-- In a string. -/
  | text (read : List Char)
  /-- After a backslash. -/
  | escape (read : List Char)
  /-- In the hexadecimal digits of an escape: so many are missing, and the value so far; `lead` is the first half of a
  surrogate pair if this is the second. -/
  | code (read : List Char) (lead : Option Nat) (missing value : Nat)
  /-- After the first half of a surrogate pair, before the backslash of the second. -/
  | pair (read : List Char) (lead : Nat)
  /-- After that backslash. -/
  | pairEscape (read : List Char) (lead : Nat)

/-- The character that a one-letter escape stands for. -/
def escaped? : Char → Option Char
  | '"' => some '"'
  | '\\' => some '\\'
  | '/' => some '/'
  | 'b' => some '\x08'
  | 'f' => some '\x0c'
  | 'n' => some '\n'
  | 'r' => some '\r'
  | 't' => some '\t'
  | _ => none

/-- Goes on after a complete escape: a leading surrogate asks for its second half, a trailing one must have been asked
for. -/
def afterCode? (read : List Char) (lead : Option Nat) (value : Nat) : Option Scan :=
  if 0xDC00 ≤ value ∧ value < 0xE000 then
    lead.map fun high => .text (Char.ofNat (0x10000 + (high - 0xD800) * 0x400 + (value - 0xDC00)) :: read)
  else if lead.isSome then none
  else if 0xD800 ≤ value ∧ value < 0xDC00 then some (.pair read value)
  else some (.text (Char.ofNat value :: read))

/-- The token that a punctuation mark is. -/
def ofMark? : Char → Option Token
  | '{' => some .openObject
  | '}' => some .closeObject
  | '[' => some .openArray
  | ']' => some .closeArray
  | ':' => some .colon
  | ',' => some .comma
  | _ => none

/-- Takes a character between tokens: the token that it is, if any, and where the scan stands then. -/
def begin (c : Char) : List Token × Scan :=
  match ofMark? c with
  | some token => ([token], .between)
  | none =>
    if isSpace c then ([], .between)
    else if c = '"' then ([], .text [])
    else ([], .word [c])

/-- Takes one character: the tokens that it completes and where the scan stands then, or nothing if it cannot stand
there. -/
def step (scan : Scan) (c : Char) : Option (List Token × Scan) :=
  match scan with
  | .between => some (begin c)
  | .word read =>
    if (ofMark? c).isSome || isSpace c || c = '"' then
      let (tokens, next) := begin c
      some (ofWord read.reverse :: tokens, next)
    else some ([], .word (c :: read))
  | .text read =>
    if c = '"' then some ([.text (String.ofList read.reverse)], .between)
    else if c = '\\' then some ([], .escape read)
    else if c < ' ' then none
    else some ([], .text (c :: read))
  | .escape read =>
    if c = 'u' then some ([], .code read none 4 0)
    else (escaped? c).map fun e => ([], .text (e :: read))
  | .code read lead missing value =>
    (Radix.digit? 16 c).bind fun digit =>
      let value := value * 16 + digit
      if missing ≤ 1 then (afterCode? read lead value).map ([], ·)
      else some ([], .code read lead (missing - 1) value)
  | .pair read lead => if c = '\\' then some ([], .pairEscape read lead) else none
  | .pairEscape read lead => if c = 'u' then some ([], .code read (some lead) 4 0) else none

/-- The tokens of a text from a given stand of the scan on. -/
def scanFrom (scan : Scan) : List Char → List Token
  | [] =>
    match scan with
    | .between => []
    | .word read => [ofWord read.reverse]
    | _ => [.fault]
  | c :: rest =>
    match step scan c with
    | some (tokens, next) => tokens ++ scanFrom next rest
    | none => [.fault]

/-- The tokens of a text. -/
def scan (text : String) : List Token := scanFrom .between text.toList

end Token

end ScriptTree.Json
