/-!
# Blank characters

The white space and line terminators of ECMAScript. The set is narrower than Unicode's: the next-line control `U+0085` is
not in it.
-/

namespace ScriptTree.Text

/-- Whether a character is white space or a line terminator of ECMAScript. -/
def isBlank (c : Char) : Bool :=
  c = '\t' || c = '\u000b' || c = '\u000c' || c = ' ' || c = '\u00a0' || c = '\u1680' ||
    ('\u2000' ≤ c && c ≤ '\u200a') || c = '\u202f' || c = '\u205f' || c = '\u3000' || c = '\ufeff' ||
    c = '\n' || c = '\r' || c = '\u2028' || c = '\u2029'

/-- A text without the blank characters at its two ends. -/
def trim (text : List Char) : List Char := ((text.dropWhile isBlank).reverse.dropWhile isBlank).reverse

end ScriptTree.Text
