/-!
# Declaration keywords
-/

namespace ScriptTree

/-- The keyword of a declaration. A name bound with `const` is never bound again. -/
inductive DeclarationKind where
  | const
  | let
  | var
  | using
  | awaitUsing
  deriving DecidableEq

namespace DeclarationKind

/-- Every keyword, in the order in which a report lists them. -/
def all : List DeclarationKind := [.const, .let, .var, .using, .awaitUsing]

/-- The keyword as a script writes it. -/
def keyword : DeclarationKind → String
  | .const => "const"
  | .let => "let"
  | .var => "var"
  | .using => "using"
  | .awaitUsing => "await using"

/-- The kind with a given keyword. -/
def ofKeyword? (keyword : String) : Option DeclarationKind := all.find? fun kind => kind.keyword = keyword

/-- Whether a binding of this kind is final. -/
def isConst : DeclarationKind → Bool
  | .const => true
  | _ => false

/-- A kind of declaration is read back from its keyword. -/
theorem ofKeyword?_keyword (kind : DeclarationKind) : ofKeyword? kind.keyword = some kind := by
  cases kind <;> decide

end DeclarationKind

end ScriptTree
