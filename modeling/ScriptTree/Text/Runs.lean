/-!
# Sets of code points

A set of code points is listed by the bounds of its runs: the first code point of a run, the first one past it, and so on
in increasing order.
-/

namespace ScriptTree.Text

/-- Whether a code point lies in one of the runs with the given bounds. -/
def inRuns : List Nat → Nat → Bool
  | first :: past :: rest, code => if code < first then false else code < past || inRuns rest code
  | _, _ => false

end ScriptTree.Text
