/-!
# Binary operators

The twenty-two binary operators, in the order in which a report lists them, and their tokens.
-/

namespace ScriptTree

/-- A binary operator. -/
inductive BinaryOperator where
  | looseEqual
  | looseUnequal
  | strictEqual
  | strictUnequal
  | less
  | lessEqual
  | greater
  | greaterEqual
  | shiftLeft
  | shiftRight
  | shiftRightUnsigned
  | add
  | subtract
  | multiply
  | divide
  | remainder
  | power
  | bitOr
  | bitXor
  | bitAnd
  | isIn
  | instanceOf
  deriving DecidableEq

namespace BinaryOperator

/-- Every operator. -/
def all : List BinaryOperator :=
  [looseEqual, looseUnequal, strictEqual, strictUnequal, less, lessEqual, greater, greaterEqual, shiftLeft, shiftRight,
    shiftRightUnsigned, add, subtract, multiply, divide, remainder, power, bitOr, bitXor, bitAnd, isIn, instanceOf]

/-- The token of an operator. -/
def token : BinaryOperator → String
  | looseEqual => "=="
  | looseUnequal => "!="
  | strictEqual => "==="
  | strictUnequal => "!=="
  | less => "<"
  | lessEqual => "<="
  | greater => ">"
  | greaterEqual => ">="
  | shiftLeft => "<<"
  | shiftRight => ">>"
  | shiftRightUnsigned => ">>>"
  | add => "+"
  | subtract => "-"
  | multiply => "*"
  | divide => "/"
  | remainder => "%"
  | power => "**"
  | bitOr => "|"
  | bitXor => "^"
  | bitAnd => "&"
  | isIn => "in"
  | instanceOf => "instanceof"

/-- The operator with a given token. -/
def ofToken? (token : String) : Option BinaryOperator := all.find? fun operator => operator.token = token

/-- An operator is read back from its token. -/
theorem ofToken?_token (operator : BinaryOperator) : ofToken? operator.token = some operator := by
  cases operator <;> decide

end BinaryOperator

end ScriptTree
