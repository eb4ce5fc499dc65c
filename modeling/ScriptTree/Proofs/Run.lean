import ScriptTree.Evaluation.Evaluate

/-!
# What a run ends with and what it leaves behind

A run from a state ends with a value or an error and leaves a state behind in both cases. `Run.outcome` and `Run.after`
are these two halves. The lemmas here say what they are for the two ways in which `Node.evaluate` puts runs together, one
after the other (`Run.outcome_bind_ok` and its companions) and inside a node (`entering_cases`), and for the building
blocks: a name that is read, a name that is bound, a call.
-/

namespace ScriptTree

namespace Run

variable {α β : Type}

/-- What a run from a state ends with. -/
def outcome (x : Run α) (s : State) : Except EvalError α :=
  match x s with
  | .ok a _ => .ok a
  | .error e _ => .error e

/-- The state that a run from a state leaves behind. -/
def after (x : Run α) (s : State) : State :=
  match x s with
  | .ok _ t => t
  | .error _ t => t

theorem outcome_of_ok {x : Run α} {s t : State} {a : α} (h : x s = .ok a t) : x.outcome s = .ok a := by
  simp only [outcome, h]

theorem outcome_of_error {x : Run α} {s t : State} {e : EvalError} (h : x s = .error e t) :
    x.outcome s = .error e := by
  simp only [outcome, h]

theorem after_of_ok {x : Run α} {s t : State} {a : α} (h : x s = .ok a t) : x.after s = t := by
  simp only [after, h]

theorem after_of_error {x : Run α} {s t : State} {e : EvalError} (h : x s = .error e t) : x.after s = t := by
  simp only [after, h]

@[simp] theorem after_pure (a : α) (s : State) : (pure a : Run α).after s = s := rfl

@[simp] theorem outcome_throw (e : EvalError) (s : State) : (throw e : Run α).outcome s = .error e := rfl

/-- Throwing leaves the state as it is. -/
@[simp] theorem after_throw (e : EvalError) (s : State) : (throw e : Run α).after s = s := rfl

/-! ## One run after another -/

/-- After a first run with a value, the outcome is that of the second one. -/
theorem outcome_bind_ok {x : Run α} {s : State} {a : α} (h : x.outcome s = .ok a) (f : α → Run β) :
    (x >>= f).outcome s = (f a).outcome (x.after s) := by
  simp only [outcome, after, bind, EStateM.bind] at h ⊢
  split at h <;> simp_all

/-- What is left then is what the second run leaves. -/
theorem after_bind_ok {x : Run α} {s : State} {a : α} (h : x.outcome s = .ok a) (f : α → Run β) :
    (x >>= f).after s = (f a).after (x.after s) := by
  simp only [outcome, after, bind, EStateM.bind] at h ⊢
  split at h <;> simp_all

/-- After a first run that fails, the second one does not take place. -/
theorem outcome_bind_error {x : Run α} {s : State} {e : EvalError} (h : x.outcome s = .error e) (f : α → Run β) :
    (x >>= f).outcome s = .error e := by
  simp only [outcome, bind, EStateM.bind] at h ⊢
  split at h <;> simp_all

/-- What is left then is what the first run leaves. -/
theorem after_bind_error {x : Run α} {s : State} {e : EvalError} (h : x.outcome s = .error e) (f : α → Run β) :
    (x >>= f).after s = x.after s := by
  simp only [outcome, after, bind, EStateM.bind] at h ⊢
  split at h <;> simp_all

/-- Two runs in a row give what the second one gives, if the first one gives anything. -/
theorem outcome_bind_eq_ok_iff {x : Run α} {f : α → Run β} {s : State} {b : β} :
    (x >>= f).outcome s = .ok b ↔ ∃ a, x.outcome s = .ok a ∧ (f a).outcome (x.after s) = .ok b := by
  cases h : x.outcome s with
  | ok a => simp [outcome_bind_ok h]
  | error e => simp [outcome_bind_error h]

/-- Two runs in a row fail with the first one, or else with the second one. -/
theorem outcome_bind_eq_error_iff {x : Run α} {f : α → Run β} {s : State} {e : EvalError} :
    (x >>= f).outcome s = .error e ↔
      x.outcome s = .error e ∨ ∃ a, x.outcome s = .ok a ∧ (f a).outcome (x.after s) = .error e := by
  cases h : x.outcome s with
  | ok a => simp [outcome_bind_ok h]
  | error e' => simp [outcome_bind_error h]

end Run

/-! ## Inside a node -/

/-- The state in which the work of a node begins. -/
def State.inside (s : State) (node : Node) : State :=
  { s with environment := { s.environment with depth := s.environment.depth + 1 } }.record
    (.entered node (s.environment.depth + 1))

/-- Below its limit an environment is one node deeper afterwards. -/
theorem Environment.enter_of_lt {env : Environment} {max : Nat} (h : env.depth < max) :
    env.enter max = .ok { env with depth := env.depth + 1 } := by
  rw [Environment.enter, if_neg (Nat.not_le.mpr h)]

/-- At its limit an environment goes no deeper. -/
theorem Environment.enter_of_le {env : Environment} {max : Nat} (h : max ≤ env.depth) :
    env.enter max = .error (.nestingTooDeep (env.depth + 1) max) := by
  rw [Environment.enter, if_pos h]

section Entering

variable {cx : Context} {node : Node} {work : Run Value} {s : State}

/-- An interrupted run enters no node. -/
theorem entering_of_interrupted (h : s.interrupted = true) : entering cx node work s = .error .interrupted s := by
  simp [entering, h]

/-- A run at its nesting limit enters no node. -/
theorem entering_of_refused (h : s.interrupted = false) (hd : cx.maxDepth ≤ s.environment.depth) :
    entering cx node work s = .error (.nestingTooDeep (s.environment.depth + 1) cx.maxDepth) s := by
  simp [entering, h, Environment.enter_of_le hd, EnvironmentError.toEvalError]

/-- Below its limit a run that is not interrupted does the work of the node inside it and blames an error on the node. -/
theorem entering_of_entered (node : Node) (work : Run Value) (h : s.interrupted = false)
    (hd : s.environment.depth < cx.maxDepth) :
    (entering cx node work).outcome s = (work.outcome (s.inside node)).mapError node.blame ∧
      (entering cx node work).after s = (work.after (s.inside node)).leave := by
  have hi : ¬s.interrupted = true := by simp [h]
  cases hw : work (s.inside node) with
  | ok value t =>
    have he : entering cx node work s = .ok value t.leave := by
      unfold State.inside at hw
      rw [entering, if_neg hi, Environment.enter_of_lt hd]
      simp only [hw]
    rw [Run.outcome_of_ok he, Run.after_of_ok he, Run.outcome_of_ok hw, Run.after_of_ok hw]
    exact ⟨rfl, rfl⟩
  | error e t =>
    have he : entering cx node work s = .error (node.blame e) t.leave := by
      unfold State.inside at hw
      rw [entering, if_neg hi, Environment.enter_of_lt hd]
      simp only [hw]
    rw [Run.outcome_of_error he, Run.after_of_error he, Run.outcome_of_error hw, Run.after_of_error hw]
    exact ⟨rfl, rfl⟩

/-- The three ways in which a node is met: the run is interrupted, it is at its limit, or it goes inside. -/
theorem entering_cases (cx : Context) (node : Node) (work : Run Value) (s : State) :
    (s.interrupted = true ∧ (entering cx node work).outcome s = .error .interrupted ∧
        (entering cx node work).after s = s) ∨
      (s.interrupted = false ∧ cx.maxDepth ≤ s.environment.depth ∧
        (entering cx node work).outcome s = .error (.nestingTooDeep (s.environment.depth + 1) cx.maxDepth) ∧
        (entering cx node work).after s = s) ∨
      (s.interrupted = false ∧ s.environment.depth < cx.maxDepth ∧
        (entering cx node work).outcome s = (work.outcome (s.inside node)).mapError node.blame ∧
        (entering cx node work).after s = (work.after (s.inside node)).leave) := by
  cases h : s.interrupted with
  | true =>
    have he : entering cx node work s = .error .interrupted s := entering_of_interrupted h
    exact Or.inl ⟨rfl, Run.outcome_of_error he, Run.after_of_error he⟩
  | false =>
    rcases Nat.lt_or_ge s.environment.depth cx.maxDepth with hd | hd
    · exact Or.inr (Or.inr ⟨rfl, hd, entering_of_entered node work h hd⟩)
    · have he : entering cx node work s = .error (.nestingTooDeep (s.environment.depth + 1) cx.maxDepth) s :=
        entering_of_refused h hd
      exact Or.inr (Or.inl ⟨rfl, hd, Run.outcome_of_error he, Run.after_of_error he⟩)

end Entering

/-- A limit of a run, which is nobody's fault. -/
def EvalError.IsLimit (e : EvalError) : Prop := e = .interrupted ∨ ∃ depth max, e = .nestingTooDeep depth max

/-- A limit has no place. -/
theorem EvalError.span?_of_isLimit {e : EvalError} (h : e.IsLimit) : e.span? = none := by
  rcases h with rfl | ⟨depth, max, rfl⟩ <;> rfl

/-- No node is blamed for a limit, and no limit comes of blaming a node. -/
theorem blame_eq_iff_of_isLimit {e limit : EvalError} (node : Node) (h : limit.IsLimit) :
    node.blame e = limit ↔ e = limit := by
  unfold Node.blame
  cases node.span? with
  | none => rfl
  | some span =>
    cases e with
    | fault f place => rcases h with rfl | ⟨depth, max, rfl⟩ <;> cases place <;> simp [EvalError.locate]
    | nestingTooDeep depth max => rfl
    | interrupted => rfl

/-- An error is one that there was before, changed. -/
theorem mapError_eq_error_iff {α : Type} {f : EvalError → EvalError} {outcome : Except EvalError α} {e : EvalError} :
    outcome.mapError f = .error e ↔ ∃ inner, outcome = .error inner ∧ f inner = e := by
  cases outcome with
  | ok a =>
    show Except.ok a = Except.error e ↔ _
    simp
  | error inner =>
    show Except.error (f inner) = Except.error e ↔ _
    simp

/-- Blame neither hides a limit nor makes one up. -/
theorem mapError_blame_eq_iff_of_isLimit {α : Type} {limit : EvalError} (node : Node) (outcome : Except EvalError α)
    (h : limit.IsLimit) : outcome.mapError node.blame = .error limit ↔ outcome = .error limit := by
  simp [mapError_eq_error_iff, blame_eq_iff_of_isLimit node h]

/-! ## Building blocks -/

/-- Reading a name leaves the state as it is. -/
theorem after_lookUp (name : String) (s : State) : (lookUp name).after s = s := by
  unfold Run.after lookUp
  cases s.environment.get name <;> rfl

/-- The state after a binding has taken effect. -/
def State.afterBound (s : State) (b : Binding) : State :=
  { s with environment := { s.environment with bindings := s.environment.bindings.put b } }.record (.bound b)

/-- A name that is not a constant is bound, and the attempt is recorded. -/
theorem State.bind_of_free {name : String} (value : Value) (kind : DeclarationKind) {s : State}
    (h : s.environment.bindings.isConst name = false) :
    State.bind name value kind s = .ok () (s.afterBound ⟨name, value, kind⟩) := by
  simp [State.bind, Environment.bind, h, State.afterBound]

/-- A constant is not bound again: the attempt is recorded, and nothing else happens. -/
theorem State.bind_of_const {name : String} (value : Value) (kind : DeclarationKind) {s : State}
    (h : s.environment.bindings.isConst name = true) :
    State.bind name value kind s = .error (.constReassigned name) (s.record (.refused ⟨name, value, kind⟩)) := by
  simp [State.bind, Environment.bind, h]

/-- A declarator binds its name, or is refused and blamed for it. -/
theorem Declarator.bind_cases (d : Declarator) (name : String) (value : Value) (kind : DeclarationKind) (s : State) :
    (s.environment.bindings.isConst name = false ∧ (d.bind name value kind).outcome s = .ok () ∧
        (d.bind name value kind).after s = s.afterBound ⟨name, value, kind⟩) ∨
      (s.environment.bindings.isConst name = true ∧
        (d.bind name value kind).outcome s = .error (.located (.constReassigned name) d.span) ∧
        (d.bind name value kind).after s = s.record (.refused ⟨name, value, kind⟩)) := by
  cases hc : s.environment.bindings.isConst name with
  | false =>
    have hb : d.bind name value kind s = .ok () (s.afterBound ⟨name, value, kind⟩) := by
      simp only [Declarator.bind, Run.ofEnvironment, EStateM.adaptExcept, State.bind_of_free value kind hc]
    exact Or.inl ⟨rfl, Run.outcome_of_ok hb, Run.after_of_ok hb⟩
  | true =>
    have hb : d.bind name value kind s =
        .error (.located (.constReassigned name) d.span) (s.record (.refused ⟨name, value, kind⟩)) := by
      simp only [Declarator.bind, Run.ofEnvironment, EStateM.adaptExcept, State.bind_of_const value kind hc]
      rfl
    exact Or.inr ⟨rfl, Run.outcome_of_error hb, Run.after_of_error hb⟩

/-- A call from a script: what the body returns is dropped. -/
def Builtin.callFor (cx : Context) (site : Node) (f : Builtin) (arguments : List Value) : Run Value := do
  let _ ← f.callFrom cx site arguments
  return .undefined

/-- The outcome of a call whose body replies. -/
def Builtin.outcomeOf (f : Builtin) (reply : Reply) : Except EvalError Value :=
  match reply.result with
  | .ok _ => .ok .undefined
  | .error reason => .error (.bare (.builtin f.name reason))

/-- The state after the body of a builtin has replied to a call from a node. -/
def State.afterCall (s : State) (site : Node) (f : Builtin) (arguments : List Value) (reply : Reply) : State :=
  (s.record (.calling site f.name arguments.length)).receive ⟨f.body, arguments⟩ reply

/-- A call with a wrong number of arguments does nothing; any other runs the body. -/
theorem Builtin.callFor_cases (cx : Context) (site : Node) (f : Builtin) (arguments : List Value) (s : State) :
    (∃ fault, f.checkArity arguments.length = .error fault ∧
        (f.callFor cx site arguments).outcome s = .error (.bare fault) ∧ (f.callFor cx site arguments).after s = s) ∨
      (f.checkArity arguments.length = .ok () ∧
        (f.callFor cx site arguments).outcome s = f.outcomeOf (f.reply cx.host s.calls arguments) ∧
        (f.callFor cx site arguments).after s =
          s.afterCall site f arguments (f.reply cx.host s.calls arguments)) := by
  cases ha : f.checkArity arguments.length with
  | error fault =>
    have hc : f.callFrom cx site arguments = Run.fault fault := by rw [Builtin.callFrom, ha]
    refine Or.inl ⟨fault, rfl, ?_, ?_⟩
    · rw [Builtin.callFor, hc]
      rfl
    · rw [Builtin.callFor, hc]
      rfl
  | ok _ =>
    have hfrom : (f.callFrom cx site arguments).outcome s =
          (f.perform cx arguments).outcome (s.record (.calling site f.name arguments.length)) ∧
        (f.callFrom cx site arguments).after s =
          (f.perform cx arguments).after (s.record (.calling site f.name arguments.length)) := by
      rw [Builtin.callFrom, ha]
      exact ⟨Run.outcome_bind_ok rfl _, Run.after_bind_ok rfl _⟩
    obtain ⟨hfo, hfa⟩ := hfrom
    refine Or.inr ⟨rfl, ?_⟩
    unfold Builtin.callFor Builtin.outcomeOf
    cases hr : (f.reply cx.host s.calls arguments).result with
    | ok value =>
      have hp : f.perform cx arguments (s.record (.calling site f.name arguments.length)) =
          .ok value (s.afterCall site f arguments (f.reply cx.host s.calls arguments)) := by
        simp only [Builtin.perform, State.record, hr]
        rfl
      rw [Run.outcome_of_ok hp] at hfo
      rw [Run.outcome_bind_ok hfo, Run.after_bind_ok hfo, hfa, Run.after_of_ok hp]
      exact ⟨rfl, rfl⟩
    | error reason =>
      have hp : f.perform cx arguments (s.record (.calling site f.name arguments.length)) =
          .error (.bare (.builtin f.name reason))
            (s.afterCall site f arguments (f.reply cx.host s.calls arguments)) := by
        simp only [Builtin.perform, State.record, hr]
        rfl
      rw [Run.outcome_of_error hp] at hfo
      rw [Run.outcome_bind_error hfo, Run.after_bind_error hfo, hfa, Run.after_of_error hp]
      exact ⟨rfl, rfl⟩

/-! ## The work of a node -/

/-- What a node does once it is entered. -/
def Node.work (cx : Context) (node : Node) : Run Value :=
  match node with
  | .program _ body => evaluateStatements cx .undefined body
  | .expressionStatement _ expression => expression.evaluate cx
  | .binary _ left operator right => do
    let l ← left.evaluate cx
    let r ← right.evaluate cx
    Run.ofOperation (operator.apply l r)
  | .literal _ value => value.evaluate
  | .call span callee arguments _ => do
    match ← callee.evaluate cx with
    | .callable _ f =>
      let values ← evaluateArguments cx arguments
      f.callFor cx node values
    | other => throw (.located (.notCallable other.typeName.text) (callee.span?.getD span))
  | .member _ object property computed _ => do
    match (← object.evaluate cx).member property computed with
    | .ok value => return value
    | .error fault => Run.fault fault
  | .identifier _ name => lookUp name
  | .declaration _ kind declarators => do
    evaluateDeclarators cx kind declarators
    return .undefined
  | .declarator _ => Run.fault (.unsupportedNode "VariableDeclarator outside a declaration")
  | .unsupported => Run.fault (.ofNode node)

/-- A node is evaluated by doing its work inside it. -/
theorem Node.evaluate_eq (cx : Context) (node : Node) : node.evaluate cx = entering cx node (node.work cx) := by
  rw [Node.evaluate.eq_def]
  cases node <;> rfl

end ScriptTree
