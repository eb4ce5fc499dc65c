import ScriptTree.Proofs.PureExpressions
import ScriptTree.Proofs.Walk

/-!
# Where a fault is blamed

A run that is interrupted or too deep is nobody's fault. Any other failure of a tree goes back to one node whose own work
fails (`Culprit`), and from there outward through the nodes that were being evaluated (`Reaches`). `Blamed` says which span
it is blamed on: the culprit's, or that of the node around an unsupported one, which has none. `errors_are_blamed_rightly`
is the main statement: evaluation fails with a fault on a span exactly if that is the one to blame.
-/

namespace ScriptTree

/-! ## Parts that are reached -/

/-- The work of a node, from a state inside it, gets to the evaluation of a part in another state: everything before the
part has been evaluated. -/
inductive Reaches (cx : Context) (s : State) : Node → Node → State → Prop
  | statement {span : Span} {body before after : List Node} {statement : Node} {value : Value}
      (hbody : body = before ++ statement :: after)
      (hbefore : (evaluateStatements cx .undefined before).outcome s = .ok value) :
      Reaches cx s (.program span body) statement ((evaluateStatements cx .undefined before).after s)
  | expression {span : Span} {expression : Node} : Reaches cx s (.expressionStatement span expression) expression s
  | left {span : Span} {left right : Node} {operator : BinaryOperator} :
      Reaches cx s (.binary span left operator right) left s
  | right {span : Span} {left right : Node} {operator : BinaryOperator} {l : Value}
      (hleft : (left.evaluate cx).outcome s = .ok l) :
      Reaches cx s (.binary span left operator right) right ((left.evaluate cx).after s)
  | callee {span : Span} {callee : Node} {arguments : List Node} {optional : Bool} :
      Reaches cx s (.call span callee arguments optional) callee s
  | argument {span : Span} {callee argument : Node} {arguments before after : List Node} {optional : Bool}
      {identity : Identity} {f : Builtin} {values : List Value} (harguments : arguments = before ++ argument :: after)
      (hcallee : (callee.evaluate cx).outcome s = .ok (.callable identity f))
      (hbefore : (evaluateArguments cx before).outcome ((callee.evaluate cx).after s) = .ok values) :
      Reaches cx s (.call span callee arguments optional) argument
        ((evaluateArguments cx before).after ((callee.evaluate cx).after s))
  | object {span : Span} {object property : Node} {computed optional : Bool} :
      Reaches cx s (.member span object property computed optional) object s
  | init {span : Span} {kind : DeclarationKind} {declarators before after : List Declarator} {d : Declarator}
      {name : String} {init : Node} (hdeclarators : declarators = before ++ d :: after)
      (hbefore : (evaluateDeclarators cx kind before).outcome s = .ok ()) (hname : d.name = .ok name)
      (hinit : d.init = some init) :
      Reaches cx s (.declaration span kind declarators) init ((evaluateDeclarators cx kind before).after s)

/-! ## Own faults -/

/-- The work of a node, from a state inside it, runs into a fault of its own, to be blamed on a span: an unbound name on
the identifier, an operation on the binary expression, a property access on the member expression, a callee that is no
function on the callee, a wrong number of arguments and a failing builtin on the call, a constant that is bound again on
the declarator, a target that cannot be bound on the target or, if that has no span, on the declarator, and a declarator
outside a declaration on itself. -/
inductive Culprit (cx : Context) (s : State) : Node → Fault → Span → Prop
  | unbound {span : Span} {name : String} (h : s.environment.binding? name = none) :
      Culprit cx s (.identifier span name) (.unbound name) span
  | operation {span : Span} {left right : Node} {operator : BinaryOperator} {l r : Value} {error : OperationError}
      (hleft : (left.evaluate cx).outcome s = .ok l)
      (hright : (right.evaluate cx).outcome ((left.evaluate cx).after s) = .ok r) (h : operator.apply l r = .error error) :
      Culprit cx s (.binary span left operator right) (.ofOperation error) span
  | property {span : Span} {object property : Node} {computed optional : Bool} {base : Value} {reason : String}
      (hobject : (object.evaluate cx).outcome s = .ok base)
      (h : base.member property computed = .error (.propertyAccess reason)) :
      Culprit cx s (.member span object property computed optional) (.propertyAccess reason) span
  | callee {span place : Span} {callee : Node} {arguments : List Node} {optional : Bool} {value : Value}
      (hcallee : (callee.evaluate cx).outcome s = .ok value) (h : ∀ identity f, value ≠ .callable identity f)
      (hspan : callee.span? = some place) :
      Culprit cx s (.call span callee arguments optional) (.notCallable value.typeName.text) place
  | arity {span : Span} {callee : Node} {arguments : List Node} {optional : Bool} {identity : Identity} {f : Builtin}
      {values : List Value} {expected : Nat} (hcallee : (callee.evaluate cx).outcome s = .ok (.callable identity f))
      (hvalues : (evaluateArguments cx arguments).outcome ((callee.evaluate cx).after s) = .ok values)
      (harity : f.arity = some expected) (h : values.length ≠ expected) :
      Culprit cx s (.call span callee arguments optional) (.arity expected values.length f.name) span
  | builtin {span : Span} {callee : Node} {arguments : List Node} {optional : Bool} {identity : Identity} {f : Builtin}
      {values : List Value} {reason : String} (hcallee : (callee.evaluate cx).outcome s = .ok (.callable identity f))
      (hvalues : (evaluateArguments cx arguments).outcome ((callee.evaluate cx).after s) = .ok values)
      (harity : ∀ expected, f.arity = some expected → values.length = expected)
      (h : (f.reply cx.host ((evaluateArguments cx arguments).after ((callee.evaluate cx).after s)).calls values).result =
        .error reason) :
      Culprit cx s (.call span callee arguments optional) (.builtin f.name reason) span
  | constant {span : Span} {kind : DeclarationKind} {declarators before after : List Declarator} {d : Declarator}
      {name : String} {value : Value} (hdeclarators : declarators = before ++ d :: after)
      (hbefore : (evaluateDeclarators cx kind before).outcome s = .ok ()) (hname : d.name = .ok name)
      (hinit : (evaluateInit cx d.init).outcome ((evaluateDeclarators cx kind before).after s) = .ok value)
      (h : ((evaluateInit cx d.init).after ((evaluateDeclarators cx kind before).after s)).environment.bindings.isConst
        name = true) :
      Culprit cx s (.declaration span kind declarators) (.constReassigned name) d.span
  | target {span : Span} {kind : DeclarationKind} {declarators before after : List Declarator} {d : Declarator}
      (hdeclarators : declarators = before ++ d :: after)
      (hbefore : (evaluateDeclarators cx kind before).outcome s = .ok ())
      (h : ∀ place name, d.target ≠ .identifier place name) :
      Culprit cx s (.declaration span kind declarators)
        (.unsupportedNode ("declaration target " ++ d.target.kindName)) (d.target.span?.getD d.span)
  | declarator {d : Declarator} :
      Culprit cx s (.declarator d) (.unsupportedNode "VariableDeclarator outside a declaration") d.span

/-! ## Lists that fail -/

section Lists

variable {cx : Context} {s : State} {e : EvalError}

/-- Statements fail with one of them, after those before it have been evaluated. -/
theorem evaluateStatements_eq_error_iff {last : Value} {body : List Node} :
    (evaluateStatements cx last body).outcome s = .error e ↔
      ∃ before statement after value, body = before ++ statement :: after ∧
        (evaluateStatements cx last before).outcome s = .ok value ∧
        (statement.evaluate cx).outcome ((evaluateStatements cx last before).after s) = .error e := by
  induction body generalizing last s with
  | nil => simp [evaluateStatements, Run.outcome, pure, EStateM.pure]
  | cons statement rest ih =>
    rw [evaluateStatements, Run.outcome_bind_eq_error_iff]
    constructor
    · rintro (h | ⟨value, hvalue, h⟩)
      · exact ⟨[], statement, rest, last, rfl, rfl, h⟩
      · obtain ⟨before, failing, after, value', rfl, hbefore, h⟩ := ih.mp h
        refine ⟨statement :: before, failing, after, value', rfl, ?_, ?_⟩
        · rw [evaluateStatements, Run.outcome_bind_ok hvalue]
          exact hbefore
        · rw [evaluateStatements, Run.after_bind_ok hvalue]
          exact h
    · rintro ⟨before, failing, after, value', hsplit, hbefore, h⟩
      cases before with
      | nil =>
        cases hsplit
        exact Or.inl h
      | cons first before =>
        obtain ⟨rfl, rfl⟩ := List.cons.inj hsplit
        rw [evaluateStatements, Run.outcome_bind_eq_ok_iff] at hbefore
        obtain ⟨value, hvalue, hbefore⟩ := hbefore
        rw [evaluateStatements, Run.after_bind_ok hvalue] at h
        exact Or.inr ⟨value, hvalue, ih.mpr ⟨before, failing, after, value', rfl, hbefore, h⟩⟩

/-- Arguments fail with one of them, after those before it have been evaluated. -/
theorem evaluateArguments_eq_error_iff {arguments : List Node} :
    (evaluateArguments cx arguments).outcome s = .error e ↔
      ∃ before argument after values, arguments = before ++ argument :: after ∧
        (evaluateArguments cx before).outcome s = .ok values ∧
        (argument.evaluate cx).outcome ((evaluateArguments cx before).after s) = .error e := by
  induction arguments generalizing s with
  | nil => simp [evaluateArguments, Run.outcome, pure, EStateM.pure]
  | cons argument rest ih =>
    rw [evaluateArguments, Run.outcome_bind_eq_error_iff]
    constructor
    · rintro (h | ⟨value, hvalue, h⟩)
      · exact ⟨[], argument, rest, [], rfl, rfl, h⟩
      · rcases Run.outcome_bind_eq_error_iff.mp h with h | ⟨_, -, h⟩
        · obtain ⟨before, failing, after, values, rfl, hbefore, h⟩ := ih.mp h
          refine ⟨argument :: before, failing, after, value :: values, rfl, ?_, ?_⟩
          · rw [evaluateArguments, Run.outcome_bind_ok hvalue, Run.outcome_bind_ok hbefore]
            rfl
          · rw [evaluateArguments, Run.after_bind_ok hvalue, Run.after_bind_ok hbefore]
            exact h
        · cases h
    · rintro ⟨before, failing, after, values, hsplit, hbefore, h⟩
      cases before with
      | nil =>
        cases hsplit
        exact Or.inl h
      | cons first before =>
        obtain ⟨rfl, rfl⟩ := List.cons.inj hsplit
        rw [evaluateArguments, Run.outcome_bind_eq_ok_iff] at hbefore
        obtain ⟨value, hvalue, hbefore⟩ := hbefore
        obtain ⟨more, hmore, -⟩ := Run.outcome_bind_eq_ok_iff.mp hbefore
        rw [evaluateArguments, Run.after_bind_ok hvalue, Run.after_bind_ok hmore] at h
        refine Or.inr ⟨value, hvalue, Run.outcome_bind_eq_error_iff.mpr (Or.inl ?_)⟩
        exact ih.mpr ⟨before, failing, after, more, rfl, hmore, h⟩

/-- Declarators fail with one of them, after those before it have been evaluated. -/
theorem evaluateDeclarators_eq_error_iff {kind : DeclarationKind} {declarators : List Declarator} :
    (evaluateDeclarators cx kind declarators).outcome s = .error e ↔
      ∃ before d after, declarators = before ++ d :: after ∧ (evaluateDeclarators cx kind before).outcome s = .ok () ∧
        (d.evaluate cx kind).outcome ((evaluateDeclarators cx kind before).after s) = .error e := by
  induction declarators generalizing s with
  | nil => simp [evaluateDeclarators, Run.outcome, pure, EStateM.pure]
  | cons d rest ih =>
    rw [evaluateDeclarators, Run.outcome_bind_eq_error_iff]
    constructor
    · rintro (h | ⟨value, hvalue, h⟩)
      · exact ⟨[], d, rest, rfl, rfl, h⟩
      · obtain ⟨before, failing, after, rfl, hbefore, h⟩ := ih.mp h
        refine ⟨d :: before, failing, after, rfl, ?_, ?_⟩
        · rw [evaluateDeclarators, Run.outcome_bind_ok hvalue]
          exact hbefore
        · rw [evaluateDeclarators, Run.after_bind_ok hvalue]
          exact h
    · rintro ⟨before, failing, after, hsplit, hbefore, h⟩
      cases before with
      | nil =>
        cases hsplit
        exact Or.inl h
      | cons first before =>
        obtain ⟨rfl, rfl⟩ := List.cons.inj hsplit
        rw [evaluateDeclarators, Run.outcome_bind_eq_ok_iff] at hbefore
        obtain ⟨⟨⟩, hvalue, hbefore⟩ := hbefore
        rw [evaluateDeclarators, Run.after_bind_ok hvalue] at h
        exact Or.inr ⟨(), hvalue, ih.mpr ⟨before, failing, after, rfl, hbefore, h⟩⟩

end Lists

/-! ## Building blocks that fail -/

section Blocks

variable {cx : Context} {s : State} {e : EvalError}

/-- A name is refused exactly if it is not bound, and nothing is blamed for it yet. -/
theorem lookUp_eq_error_iff {name : String} :
    (lookUp name).outcome s = .error e ↔ s.environment.binding? name = none ∧ e = .bare (.unbound name) := by
  unfold Run.outcome lookUp Environment.get Environment.value?
  cases s.environment.binding? name with
  | none => simp [EnvironmentError.toEvalError, eq_comm]
  | some b => simp

/-- An operation fails with what the operator table refuses, and nothing is blamed for it yet. -/
theorem ofOperation_eq_error_iff {result : Except OperationError Value} :
    (Run.ofOperation result).outcome s = .error e ↔ ∃ error, result = .error error ∧ e = .bare (.ofOperation error) := by
  cases result with
  | ok value => simp [Run.ofOperation, Run.outcome, pure, EStateM.pure]
  | error error => simp [Run.ofOperation, Run.fault, eq_comm]

/-- A property that cannot be read is always refused as a property access. -/
theorem Value.member_eq_error {base : Value} {property : Node} {computed : Bool} {fault : Fault}
    (h : base.member property computed = .error fault) : ∃ reason, fault = .propertyAccess reason := by
  unfold Value.member at h
  split at h
  · cases h
    exact ⟨_, rfl⟩
  split at h
  · split at h
    · cases h
      exact ⟨_, rfl⟩
    · cases h
  · cases h
    exact ⟨_, rfl⟩

/-- Arguments are accepted in the number that is asked for, or in any number if none is. -/
theorem Builtin.checkArity_eq_ok_iff {f : Builtin} {got : Nat} :
    f.checkArity got = .ok () ↔ ∀ expected, f.arity = some expected → got = expected := by
  unfold Builtin.checkArity
  cases f.arity with
  | none => simp
  | some expected =>
    by_cases h : got = expected
    · simp [h]
    · simp [h]

/-- They are refused in any other number, by a fault that names both numbers and the function. -/
theorem Builtin.checkArity_eq_error_iff {f : Builtin} {got : Nat} {fault : Fault} :
    f.checkArity got = .error fault ↔
      ∃ expected, f.arity = some expected ∧ got ≠ expected ∧ fault = .arity expected got f.name := by
  unfold Builtin.checkArity
  cases f.arity with
  | none => simp
  | some expected =>
    by_cases h : got = expected
    · simp [h]
    · simp [h, eq_comm]

/-- A call fails by its number of arguments, or else by the body. -/
theorem Builtin.callFor_eq_error_iff {site : Node} {f : Builtin} {arguments : List Value} :
    (f.callFor cx site arguments).outcome s = .error e ↔
      (∃ expected, f.arity = some expected ∧ arguments.length ≠ expected ∧
        e = .bare (.arity expected arguments.length f.name)) ∨
      ((∀ expected, f.arity = some expected → arguments.length = expected) ∧
        ∃ reason, (f.reply cx.host s.calls arguments).result = .error reason ∧ e = .bare (.builtin f.name reason)) := by
  rcases f.callFor_cases cx site arguments s with ⟨fault, hfault, ho, -⟩ | ⟨hok, ho, -⟩
  · rw [ho]
    obtain ⟨expected, harity, hne, rfl⟩ := Builtin.checkArity_eq_error_iff.mp hfault
    constructor
    · rintro ⟨⟩
      exact Or.inl ⟨expected, harity, hne, rfl⟩
    · rintro (⟨expected', harity', -, rfl⟩ | ⟨hfits, -⟩)
      · rw [Option.some.inj (harity.symm.trans harity')]
      · exact absurd (hfits expected harity) hne
  · rw [ho]
    have hfits := Builtin.checkArity_eq_ok_iff.mp hok
    unfold Builtin.outcomeOf
    constructor
    · intro h
      split at h
      · cases h
      · rename_i reason hreason
        cases h
        exact Or.inr ⟨hfits, reason, hreason, rfl⟩
    · rintro (⟨expected, harity, hne, -⟩ | ⟨-, reason, hreason, rfl⟩)
      · exact absurd (hfits expected harity) hne
      · rw [hreason]

/-- Binding fails for constants only, and the declarator is blamed. -/
theorem Declarator.bind_eq_error_iff {d : Declarator} {name : String} {value : Value} {kind : DeclarationKind} :
    (d.bind name value kind).outcome s = .error e ↔
      s.environment.bindings.isConst name = true ∧ e = .located (.constReassigned name) d.span := by
  rcases d.bind_cases name value kind s with ⟨hc, ho, -⟩ | ⟨hc, ho, -⟩
  · simp [ho, hc]
  · simp [ho, hc, eq_comm]

/-- An initial value fails as its node does; an absent one does not fail. -/
theorem evaluateInit_eq_error_iff {init : Option Node} :
    (evaluateInit cx init).outcome s = .error e ↔ ∃ node, init = some node ∧ (node.evaluate cx).outcome s = .error e := by
  cases init with
  | none => simp [evaluateInit, Run.outcome, pure, EStateM.pure]
  | some node => simp [evaluateInit]

/-- A declarator fails by its target, by its initial value, or by its name, which is a constant. -/
theorem Declarator.evaluate_eq_error_iff {d : Declarator} {kind : DeclarationKind} :
    (d.evaluate cx kind).outcome s = .error e ↔
      d.name = .error e ∨
        ∃ name, d.name = .ok name ∧
          ((∃ init, d.init = some init ∧ (init.evaluate cx).outcome s = .error e) ∨
            ∃ value, (evaluateInit cx d.init).outcome s = .ok value ∧
              ((evaluateInit cx d.init).after s).environment.bindings.isConst name = true ∧
              e = .located (.constReassigned name) d.span) := by
  obtain ⟨span, target, init⟩ := d
  rw [Declarator.evaluate.eq_def]
  cases hname : (Declarator.mk span target init).name with
  | error e' => simp
  | ok name =>
    simp only [Run.outcome_bind_eq_error_iff, evaluateInit_eq_error_iff, Declarator.bind_eq_error_iff]
    constructor
    · intro h
      exact Or.inr ⟨name, rfl, h⟩
    · rintro (⟨⟨⟩⟩ | ⟨name', ⟨⟩, h⟩)
      exact h

end Blocks

/-! ## Work that fails -/

section Work

variable {cx : Context} {s s' : State} {node part : Node} {e : EvalError}

/-- A part that is reached is one of the parts of the node. -/
theorem Reaches.mem_parts (h : Reaches cx s node part s') : part ∈ node.parts := by
  cases h with
  | statement hbody => simp [Node.parts, hbody]
  | expression => exact List.mem_singleton_self _
  | left => exact List.mem_cons_self
  | right => exact List.mem_cons_of_mem _ (List.mem_singleton_self _)
  | callee => exact List.mem_cons_self
  | argument harguments => simp [Node.parts, harguments]
  | object => exact List.mem_singleton_self _
  | @init _ _ _ _ _ d _ _ hdeclarators _ _ hinit =>
    exact List.mem_filterMap.mpr ⟨d, by simp [hdeclarators], hinit⟩

/-- Where a part is reached and fails, the work of the node fails with its error. -/
theorem Reaches.work_error (h : Reaches cx s node part s') (hpart : (part.evaluate cx).outcome s' = .error e) :
    (node.work cx).outcome s = .error e := by
  cases h with
  | @statement _ _ before after _ value hbody hbefore =>
    exact evaluateStatements_eq_error_iff.mpr ⟨before, part, after, value, hbody, hbefore, hpart⟩
  | expression => exact hpart
  | left => exact Run.outcome_bind_error hpart _
  | right hleft =>
    refine Run.outcome_bind_eq_error_iff.mpr (Or.inr ⟨_, hleft, ?_⟩)
    exact Run.outcome_bind_error hpart _
  | callee => exact Run.outcome_bind_error hpart _
  | @argument _ _ _ _ before after _ _ _ values harguments hcallee hbefore =>
    refine Run.outcome_bind_eq_error_iff.mpr (Or.inr ⟨_, hcallee, ?_⟩)
    refine Run.outcome_bind_error ?_ _
    exact evaluateArguments_eq_error_iff.mpr ⟨before, part, after, values, harguments, hbefore, hpart⟩
  | object => exact Run.outcome_bind_error hpart _
  | @init _ _ _ before after d name _ hdeclarators hbefore hname hinit =>
    refine Run.outcome_bind_error ?_ _
    refine evaluateDeclarators_eq_error_iff.mpr ⟨before, d, after, hdeclarators, hbefore, ?_⟩
    exact Declarator.evaluate_eq_error_iff.mpr (Or.inr ⟨name, hname, Or.inl ⟨part, hinit, hpart⟩⟩)

/-- A target that is no identifier cannot be bound. -/
theorem Declarator.name_eq_error_iff {d : Declarator} :
    d.name = .error e ↔ (∀ place name, d.target ≠ .identifier place name) ∧
      e = .located (.unsupportedNode ("declaration target " ++ d.target.kindName)) (d.target.span?.getD d.span) := by
  unfold Declarator.name
  split
  · rename_i place name htarget
    simp [htarget]
  · rename_i target htarget
    simp only [Except.error.injEq]
    constructor
    · rintro rfl
      exact ⟨htarget, rfl⟩
    · rintro ⟨-, rfl⟩
      rfl

/-- Where a node is the culprit, its work fails with the fault: on the span, or on none yet if that is the node's. -/
theorem Culprit.work_error {fault : Fault} {span : Span} (h : Culprit cx s node fault span) :
    (node.work cx).outcome s = .error (.located fault span) ∨
      (node.work cx).outcome s = .error (.bare fault) ∧ node.span? = some span := by
  cases h with
  | unbound h => exact Or.inr ⟨lookUp_eq_error_iff.mpr ⟨h, rfl⟩, rfl⟩
  | operation hleft hright h =>
    refine Or.inr ⟨?_, rfl⟩
    refine Run.outcome_bind_eq_error_iff.mpr (Or.inr ⟨_, hleft, ?_⟩)
    refine Run.outcome_bind_eq_error_iff.mpr (Or.inr ⟨_, hright, ?_⟩)
    exact ofOperation_eq_error_iff.mpr ⟨_, h, rfl⟩
  | property hobject h =>
    refine Or.inr ⟨?_, rfl⟩
    refine Run.outcome_bind_eq_error_iff.mpr (Or.inr ⟨_, hobject, ?_⟩)
    rw [h]
    rfl
  | @callee span place callee arguments optional value hcallee h hspan =>
    refine Or.inl (Run.outcome_bind_eq_error_iff.mpr (Or.inr ⟨_, hcallee, ?_⟩))
    cases value with
    | callable identity f => exact absurd rfl (h identity f)
    | _ =>
      rw [hspan]
      rfl
  | arity hcallee hvalues harity h =>
    refine Or.inr ⟨?_, rfl⟩
    refine Run.outcome_bind_eq_error_iff.mpr (Or.inr ⟨_, hcallee, ?_⟩)
    refine Run.outcome_bind_eq_error_iff.mpr (Or.inr ⟨_, hvalues, ?_⟩)
    exact Builtin.callFor_eq_error_iff.mpr (Or.inl ⟨_, harity, h, rfl⟩)
  | builtin hcallee hvalues harity h =>
    refine Or.inr ⟨?_, rfl⟩
    refine Run.outcome_bind_eq_error_iff.mpr (Or.inr ⟨_, hcallee, ?_⟩)
    refine Run.outcome_bind_eq_error_iff.mpr (Or.inr ⟨_, hvalues, ?_⟩)
    exact Builtin.callFor_eq_error_iff.mpr (Or.inr ⟨harity, _, h, rfl⟩)
  | @constant _ _ _ before after d name value hdeclarators hbefore hname hinit h =>
    refine Or.inl (Run.outcome_bind_error ?_ _)
    refine evaluateDeclarators_eq_error_iff.mpr ⟨before, d, after, hdeclarators, hbefore, ?_⟩
    exact Declarator.evaluate_eq_error_iff.mpr (Or.inr ⟨name, hname, Or.inr ⟨value, hinit, h, rfl⟩⟩)
  | @target _ _ _ before after d hdeclarators hbefore h =>
    refine Or.inl (Run.outcome_bind_error ?_ _)
    refine evaluateDeclarators_eq_error_iff.mpr ⟨before, d, after, hdeclarators, hbefore, ?_⟩
    exact Declarator.evaluate_eq_error_iff.mpr (Or.inl (Declarator.name_eq_error_iff.mpr ⟨h, rfl⟩))
  | declarator => exact Or.inr ⟨rfl, rfl⟩

/-- A node that yields a value has a span. -/
theorem Node.span?_of_ok {value : Value} (h : (node.evaluate cx).outcome s = .ok value) : ∃ span, node.span? = some span := by
  cases node with
  | unsupported =>
    rw [Node.evaluate_eq] at h
    rcases entering_cases cx .unsupported (Node.work cx .unsupported) s with ⟨-, ho, -⟩ | ⟨-, -, ho, -⟩ | ⟨-, -, ho, -⟩
    · rw [ho] at h
      cases h
    · rw [ho] at h
      cases h
    · rw [ho] at h
      cases h
  | _ => exact ⟨_, rfl⟩

/-- The ways in which a call fails: in its callee, which may be no function, in an argument, or in the builtin. -/
theorem work_call_error {span : Span} {callee : Node} {arguments : List Node} {optional : Bool}
    (h : ((Node.call span callee arguments optional).work cx).outcome s = .error e) :
    (∃ part s', Reaches cx s (.call span callee arguments optional) part s' ∧ (part.evaluate cx).outcome s' = .error e) ∨
      ∃ fault place, Culprit cx s (.call span callee arguments optional) fault place ∧
        (e = .located fault place ∨ e = .bare fault ∧ span = place) := by
  rcases Run.outcome_bind_eq_error_iff.mp h with h | ⟨value, hcallee, h⟩
  · exact Or.inl ⟨_, _, .callee, h⟩
  by_cases hcallable : ∃ identity f, value = .callable identity f
  · obtain ⟨identity, f, rfl⟩ := hcallable
    rcases Run.outcome_bind_eq_error_iff.mp h with h | ⟨values, hvalues, h⟩
    · obtain ⟨before, argument, after, values, harguments, hbefore, h⟩ := evaluateArguments_eq_error_iff.mp h
      exact Or.inl ⟨_, _, .argument harguments hcallee hbefore, h⟩
    · rcases Builtin.callFor_eq_error_iff.mp h with ⟨expected, harity, hne, rfl⟩ | ⟨hfits, reason, hreason, rfl⟩
      · exact Or.inr ⟨_, _, .arity hcallee hvalues harity hne, Or.inr ⟨rfl, rfl⟩⟩
      · exact Or.inr ⟨_, _, .builtin hcallee hvalues hfits hreason, Or.inr ⟨rfl, rfl⟩⟩
  · have hno : ∀ identity f, value ≠ .callable identity f := fun identity f hv => hcallable ⟨identity, f, hv⟩
    obtain ⟨place, hplace⟩ := Node.span?_of_ok hcallee
    refine Or.inr ⟨_, _, .callee hcallee hno hplace, Or.inl ?_⟩
    cases value with
    | callable identity f => exact absurd rfl (hno identity f)
    | _ =>
      rw [hplace] at h
      exact (Except.error.inj h).symm

/-- The ways in which a declaration fails: in an initial value, at a target that cannot be bound, or at a constant. -/
theorem work_declaration_error {span : Span} {kind : DeclarationKind} {declarators : List Declarator}
    (h : ((Node.declaration span kind declarators).work cx).outcome s = .error e) :
    (∃ part s', Reaches cx s (.declaration span kind declarators) part s' ∧ (part.evaluate cx).outcome s' = .error e) ∨
      ∃ fault place, Culprit cx s (.declaration span kind declarators) fault place ∧ e = .located fault place := by
  rcases Run.outcome_bind_eq_error_iff.mp h with h | ⟨_, -, h⟩
  · obtain ⟨before, d, after, hdeclarators, hbefore, h⟩ := evaluateDeclarators_eq_error_iff.mp h
    rcases Declarator.evaluate_eq_error_iff.mp h with h | ⟨name, hname, ⟨init, hinit, h⟩ | ⟨value, hinit, hconst, rfl⟩⟩
    · obtain ⟨htarget, rfl⟩ := Declarator.name_eq_error_iff.mp h
      exact Or.inr ⟨_, _, .target hdeclarators hbefore htarget, rfl⟩
    · exact Or.inl ⟨_, _, .init hdeclarators hbefore hname hinit, h⟩
    · exact Or.inr ⟨_, _, .constant hdeclarators hbefore hname hinit hconst, rfl⟩
  · cases h

/-- The work of a node fails where a part of it does, or by a fault of its own, or because the node is unsupported. -/
theorem work_error_cases (h : (node.work cx).outcome s = .error e) :
    (∃ part s', Reaches cx s node part s' ∧ (part.evaluate cx).outcome s' = .error e) ∨
      (∃ fault span, Culprit cx s node fault span ∧
        (e = .located fault span ∨ e = .bare fault ∧ node.span? = some span)) ∨
      node = .unsupported ∧ e = .bare (.ofNode .unsupported) := by
  cases node with
  | program span body =>
    obtain ⟨before, statement, after, value, hbody, hbefore, h⟩ := evaluateStatements_eq_error_iff.mp h
    exact Or.inl ⟨statement, _, .statement hbody hbefore, h⟩
  | expressionStatement span expression => exact Or.inl ⟨expression, s, .expression, h⟩
  | binary span left operator right =>
    rcases Run.outcome_bind_eq_error_iff.mp h with h | ⟨l, hleft, h⟩
    · exact Or.inl ⟨left, s, .left, h⟩
    rcases Run.outcome_bind_eq_error_iff.mp h with h | ⟨r, hright, h⟩
    · exact Or.inl ⟨right, _, .right hleft, h⟩
    · obtain ⟨error, herror, rfl⟩ := ofOperation_eq_error_iff.mp h
      exact Or.inr (Or.inl ⟨_, span, .operation hleft hright herror, Or.inr ⟨rfl, rfl⟩⟩)
  | literal span value => cases value <;> cases h
  | call span callee arguments optional =>
    rcases work_call_error h with h | ⟨fault, place, hculprit, h⟩
    · exact Or.inl h
    · refine Or.inr (Or.inl ⟨fault, place, hculprit, ?_⟩)
      exact h.imp_right fun ⟨hbare, hplace⟩ => ⟨hbare, congrArg some hplace⟩
  | member span object property computed optional =>
    rcases Run.outcome_bind_eq_error_iff.mp h with h | ⟨base, hobject, h⟩
    · exact Or.inl ⟨object, s, .object, h⟩
    · cases hmember : base.member property computed with
      | ok value =>
        rw [hmember] at h
        cases h
      | error fault =>
        rw [hmember] at h
        obtain ⟨reason, rfl⟩ := Value.member_eq_error hmember
        exact Or.inr (Or.inl ⟨_, span, .property hobject hmember, Or.inr ⟨(Except.error.inj h).symm, rfl⟩⟩)
  | identifier span name =>
    obtain ⟨hunbound, rfl⟩ := lookUp_eq_error_iff.mp h
    exact Or.inr (Or.inl ⟨_, span, .unbound hunbound, Or.inr ⟨rfl, rfl⟩⟩)
  | declaration span kind declarators =>
    rcases work_declaration_error h with h | ⟨fault, place, hculprit, rfl⟩
    · exact Or.inl h
    · exact Or.inr (Or.inl ⟨fault, place, hculprit, Or.inl rfl⟩)
  | declarator d =>
    exact Or.inr (Or.inl ⟨_, d.span, .declarator, Or.inr ⟨(Except.error.inj h).symm, rfl⟩⟩)
  | unsupported => exact Or.inr (Or.inr ⟨rfl, (Except.error.inj h).symm⟩)

end Work

/-! ## Who is blamed -/

/-- The span that a failing evaluation of a node, from a state where the node is entered, is to be blamed on: its own if it
is the culprit, what a part that is reached is to be blamed on, and the node's span for an unsupported part. -/
inductive Blamed (cx : Context) : State → Node → Fault → Span → Prop
  | own {s : State} {node : Node} {fault : Fault} {span : Span} (hroom : s.HasRoom cx 1)
      (h : Culprit cx (s.inside node) node fault span) : Blamed cx s node fault span
  | inner {s s' : State} {node part : Node} {fault : Fault} {span : Span} (hroom : s.HasRoom cx 1)
      (hreach : Reaches cx (s.inside node) node part s') (h : Blamed cx s' part fault span) : Blamed cx s node fault span
  | enclosing {s s' : State} {node : Node} {span : Span} (hroom : s.HasRoom cx 1)
      (hreach : Reaches cx (s.inside node) node .unsupported s') (hroom' : s'.HasRoom cx 1)
      (hspan : node.span? = some span) : Blamed cx s node (.ofNode .unsupported) span

/-- A span that a fault is blamed on is never replaced. -/
theorem blame_of_span? {e : EvalError} {span : Span} (node : Node) (h : e.span? = some span) : node.blame e = e := by
  unfold Node.blame
  cases node.span? with
  | none => rfl
  | some outer => exact EvalError.locate_of_span? h outer

/-- A node with a span is blamed for a fault that nothing is blamed for yet. -/
theorem blame_bare {node : Node} {span : Span} (h : node.span? = some span) (fault : Fault) :
    node.blame (.bare fault) = .located fault span := by
  rw [Node.blame, h]
  rfl

section Evaluate

variable {cx : Context} {s : State} {node : Node} {e : EvalError}

/-- A node that is entered fails as its work does, and is blamed if nothing is yet. -/
theorem Node.evaluate_error_iff (hroom : s.HasRoom cx 1) :
    (node.evaluate cx).outcome s = .error e ↔
      ∃ inner, (node.work cx).outcome (s.inside node) = .error inner ∧ e = node.blame inner := by
  rw [hroom.outcome_evaluate, mapError_eq_error_iff]
  simp [eq_comm]

/-- A node that fails was entered, unless it has met a limit. -/
theorem Node.hasRoom_of_error (h : (node.evaluate cx).outcome s = .error e) : e.IsLimit ∨ s.HasRoom cx 1 := by
  rw [Node.evaluate_eq] at h
  rcases entering_cases cx node (node.work cx) s with ⟨-, ho, -⟩ | ⟨-, -, ho, -⟩ | ⟨hi, hd, -, -⟩
  · rw [ho] at h
    exact Or.inl (Or.inl (Except.error.inj h).symm)
  · rw [ho] at h
    exact Or.inl (Or.inr ⟨_, _, (Except.error.inj h).symm⟩)
  · exact Or.inr ⟨hi, hd⟩

/-- An unsupported node that is entered fails with a fault that is not blamed on anything. -/
theorem Node.unsupported_error (h : (Node.evaluate cx .unsupported).outcome s = .error e) :
    e.IsLimit ∨ s.HasRoom cx 1 ∧ e = .bare (.ofNode .unsupported) := by
  rcases Node.hasRoom_of_error h with hlimit | hroom
  · exact Or.inl hlimit
  · obtain ⟨inner, hwork, rfl⟩ := (Node.evaluate_error_iff hroom).mp h
    cases hwork
    exact Or.inr ⟨hroom, rfl⟩

/-- Only unsupported nodes have no span. -/
theorem Node.span?_of_ne (node : Node) (h : node ≠ .unsupported) : ∃ span, node.span? = some span := by
  cases node with
  | unsupported => exact absurd rfl h
  | _ => exact ⟨_, rfl⟩

/-- Where a span is to blame, evaluation fails with the fault on that span. -/
theorem Blamed.evaluate_error {fault : Fault} {span : Span} (h : Blamed cx s node fault span) :
    (node.evaluate cx).outcome s = .error (.located fault span) := by
  induction h with
  | @own s node fault span hroom h =>
    refine (Node.evaluate_error_iff hroom).mpr ?_
    rcases h.work_error with h | ⟨h, hspan⟩
    · exact ⟨_, h, (blame_of_span? node rfl).symm⟩
    · exact ⟨_, h, (blame_bare hspan fault).symm⟩
  | @inner s s' node part fault span hroom hreach _ ih =>
    exact (Node.evaluate_error_iff hroom).mpr ⟨_, hreach.work_error ih, (blame_of_span? node rfl).symm⟩
  | @enclosing s s' node span hroom hreach hroom' hspan =>
    have hpart : (Node.evaluate cx .unsupported).outcome s' = .error (.bare (.ofNode .unsupported)) :=
      (Node.evaluate_error_iff hroom').mpr ⟨_, rfl, rfl⟩
    exact (Node.evaluate_error_iff hroom).mpr ⟨_, hreach.work_error hpart, (blame_bare hspan _).symm⟩

/-- Evaluation of a typed node that fails has met a limit, or fails with a fault on the span to blame. -/
theorem blamed_of_error (hnode : node ≠ .unsupported) (h : (node.evaluate cx).outcome s = .error e) :
    e.IsLimit ∨ ∃ fault span, e = .located fault span ∧ Blamed cx s node fault span := by
  induction hsize : sizeOf node using Nat.strongRecOn generalizing node s e with
  | _ size ih =>
    rcases Node.hasRoom_of_error h with hlimit | hroom
    · exact Or.inl hlimit
    obtain ⟨inner, hwork, rfl⟩ := (Node.evaluate_error_iff hroom).mp h
    rcases work_error_cases hwork with ⟨part, s', hreach, hpart⟩ | ⟨fault, span, hculprit, herror⟩ | ⟨hunsupported, -⟩
    · by_cases hp : part = .unsupported
      · subst hp
        rcases Node.unsupported_error hpart with hlimit | ⟨hroom', rfl⟩
        · rw [(blame_eq_iff_of_isLimit node hlimit).mpr rfl]
          exact Or.inl hlimit
        · obtain ⟨span, hspan⟩ := node.span?_of_ne hnode
          exact Or.inr ⟨_, span, blame_bare hspan _, .enclosing hroom hreach hroom' hspan⟩
      · have hlt := Node.sizeOf_lt_of_mem_parts hreach.mem_parts
        rcases ih (sizeOf part) (hsize ▸ hlt) hp hpart rfl with hlimit | ⟨fault, span, rfl, hblamed⟩
        · rw [(blame_eq_iff_of_isLimit node hlimit).mpr rfl]
          exact Or.inl hlimit
        · rw [blame_of_span? node rfl]
          exact Or.inr ⟨fault, span, rfl, .inner hroom hreach hblamed⟩
    · refine Or.inr ⟨fault, span, ?_, .own hroom hculprit⟩
      rcases herror with rfl | ⟨rfl, hspan⟩
      · exact blame_of_span? node rfl
      · exact blame_bare hspan fault
    · exact absurd hunsupported hnode

end Evaluate

/-- Errors are blamed rightly. If the evaluation of a typed node fails it has met a limit, and the error has no span, or it
fails with a fault, and the span is the one to blame: so it does fail wherever there is a span to blame. And wherever a part
that is reached fails with an error that has a span, the node around it fails with the very same error. -/
theorem errors_are_blamed_rightly (cx : Context) (node : Node) (hnode : node ≠ .unsupported) (s : State) :
    (∀ e, (node.evaluate cx).outcome s = .error e →
      (e.IsLimit ∧ e.span? = none) ∨ ∃ fault span, e = .located fault span ∧ Blamed cx s node fault span) ∧
    (∀ fault span, Blamed cx s node fault span → (node.evaluate cx).outcome s = .error (.located fault span)) ∧
    ∀ part s' e span, s.HasRoom cx 1 → Reaches cx (s.inside node) node part s' →
      (part.evaluate cx).outcome s' = .error e → e.span? = some span → (node.evaluate cx).outcome s = .error e := by
  refine ⟨?_, fun fault span => Blamed.evaluate_error, ?_⟩
  · intro e h
    rcases blamed_of_error hnode h with hlimit | hblamed
    · exact Or.inl ⟨hlimit, EvalError.span?_of_isLimit hlimit⟩
    · exact Or.inr hblamed
  · intro part s' e span hroom hreach hpart hspan
    exact (Node.evaluate_error_iff hroom).mpr ⟨e, hreach.work_error hpart, (blame_of_span? node hspan).symm⟩

/-- A declaration whose initial value is an unsupported node, inside a program: the declaration is blamed. -/
theorem unsupported_initial_value :
    let cx : Context := ⟨9, Host.silent⟩
    let declaration : Node := .declaration ⟨2, 7⟩ .let [.mk ⟨4, 6⟩ (.identifier ⟨4, 5⟩ "x") (some .unsupported)]
    let script : Node := .program ⟨0, 9⟩ [declaration]
    script ≠ .unsupported ∧ Blamed cx .empty script (.ofNode .unsupported) ⟨2, 7⟩ ∧
      (script.evaluate cx).outcome .empty = .error (.located (.ofNode .unsupported) ⟨2, 7⟩) := by
  intro cx declaration script
  have hscript : script ≠ .unsupported := nofun
  let inside := State.empty.inside script
  have hstatement : Reaches cx inside script declaration inside :=
    .statement (show [declaration] = [] ++ declaration :: [] from rfl) rfl
  have hinit : Reaches cx (inside.inside declaration) declaration .unsupported (inside.inside declaration) :=
    .init (show [_] = [] ++ _ :: [] from rfl) rfl rfl rfl
  have hblamed : Blamed cx .empty script (.ofNode .unsupported) ⟨2, 7⟩ :=
    .inner ⟨rfl, by decide⟩ hstatement (.enclosing ⟨rfl, by decide⟩ hinit ⟨rfl, by decide⟩ rfl)
  exact ⟨hscript, hblamed, (errors_are_blamed_rightly cx script hscript .empty).2.1 _ _ hblamed⟩

end ScriptTree
