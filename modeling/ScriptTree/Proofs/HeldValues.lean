import ScriptTree.Proofs.OperatorDomain
import ScriptTree.Proofs.Run

/-!
# Invariants of a state and of the values that a run holds

While a node is evaluated, values are held that no name is bound to: a left operand, a callee, the arguments so far. An
invariant that is about every value there is has to be about them too. `Invariant` says what the building blocks of an
evaluation have to do to such an invariant of a state and some held values; `Invariant.evaluate` gives that every tree keeps
it, whatever it ends with, and that a value it ends with can be held from then on.
-/

namespace ScriptTree

/-- An invariant of a state and of the values that are held beside it, at the building blocks of an evaluation. Values that
are no longer needed may be dropped. -/
structure Invariant (cx : Context) (I : State → List Value → Prop) : Prop where
  drop : ∀ {s held held'}, held' ⊆ held → I s held → I s held'
  inside : ∀ {s held} (node : Node), I s held → I (s.inside node) held
  leave : ∀ {s held}, I s held → I s.leave held
  primitive : ∀ {s held v}, v.isObjectLike = false → I s held → I s (v :: held)
  regex : ∀ {s held} (r : Regex), I s held →
    I { s with nextIdentity := s.nextIdentity + 1 } (.regex s.nextIdentity r :: held)
  member : ∀ {s held base v} {property : Node} {computed : Bool}, base.member property computed = .ok v →
    I s (base :: held) → I s (v :: held)
  lookUp : ∀ {s held name b}, s.environment.binding? name = some b → I s held → I s (b.value :: held)
  bound : ∀ {s held} (b : Binding), s.environment.bindings.isConst b.name = false → I s (b.value :: held) →
    I (s.afterBound b) held
  refused : ∀ {s held} (b : Binding), I s held → I (s.record (.refused b)) held
  call : ∀ {s held vs} (site : Node) (f : Builtin), f.checkArity vs.length = .ok () → I s (vs ++ held) →
    I (s.afterCall site f vs (f.reply cx.host s.calls vs)) held

/-- A run from a state keeps an invariant, also with what is held of its result. -/
def EndsWith {α : Type} (I : State → List Value → Prop) (hold : α → List Value) (s : State) (held : List Value)
    (x : Run α) : Prop :=
  I (x.after s) held ∧ ∀ a, x.outcome s = .ok a → I (x.after s) (hold a ++ held)

namespace Invariant

variable {cx : Context} {I : State → List Value → Prop} {α β : Type} {hold : α → List Value} {hold' : β → List Value}
  {s : State} {held held' : List Value}

/-- A run that fails keeps an invariant if it holds in the state that is left. -/
theorem of_error {x : Run α} {e : EvalError} {t : State} (ho : x.outcome s = .error e) (ha : x.after s = t)
    (ht : I t held) : EndsWith I hold s held x := by
  subst ha
  refine ⟨ht, ?_⟩
  intro a h
  rw [ho] at h
  cases h

/-- A run with a value keeps it if it holds there with what is held of the value. -/
theorem of_ok (h : Invariant cx I) {x : Run α} {a : α} {t : State} (ho : x.outcome s = .ok a) (ha : x.after s = t)
    (ht : I t (hold a ++ held)) : EndsWith I hold s held x := by
  subst ha
  refine ⟨h.drop (List.subset_append_right _ _) ht, ?_⟩
  intro a' h'
  rw [ho] at h'
  cases h'
  exact ht

/-- A value that is held may be given. -/
theorem pure (h : Invariant cx I) {a : α} (ha : I s (hold a ++ held)) : EndsWith I hold s held (Pure.pure a) :=
  h.of_ok rfl rfl ha

/-- An error may be thrown at any time. -/
theorem throw (hs : I s held) (e : EvalError) : EndsWith I hold s held (MonadExcept.throw e) :=
  of_error (Run.outcome_throw e s) (Run.after_throw e s) hs

/-- Two runs in a row keep an invariant if the second one does with what is held of the first one's value. -/
theorem bind (h : Invariant cx I) {x : Run α} {f : α → Run β} (hx : EndsWith I hold s held' x) (hheld : held ⊆ held')
    (hf : ∀ a, I (x.after s) (hold a ++ held') → EndsWith I hold' (x.after s) held (f a)) :
    EndsWith I hold' s held (x >>= f) := by
  obtain ⟨hafter, hvalue⟩ := hx
  cases ho : x.outcome s with
  | ok a =>
    unfold EndsWith
    rw [Run.outcome_bind_ok ho, Run.after_bind_ok ho]
    exact hf a (hvalue a ho)
  | error e =>
    exact of_error (Run.outcome_bind_error ho f) (Run.after_bind_error ho f) (h.drop hheld hafter)

/-- A node around a run keeps it, whether the node is entered or refused. -/
theorem entering (h : Invariant cx I) (node : Node) {work : Run Value} (hs : I s held)
    (hwork : EndsWith I (fun v => [v]) (s.inside node) held work) :
    EndsWith I (fun v => [v]) s held (ScriptTree.entering cx node work) := by
  obtain ⟨hafter, hvalue⟩ := hwork
  rcases entering_cases cx node work s with ⟨-, ho, ha⟩ | ⟨-, -, ho, ha⟩ | ⟨-, -, ho, ha⟩
  · exact of_error ho ha hs
  · exact of_error ho ha hs
  · cases hw : work.outcome (s.inside node) with
    | ok v =>
      rw [hw] at ho
      exact h.of_ok ho ha (h.leave (hvalue v hw))
    | error e =>
      rw [hw] at ho
      exact of_error ho ha (h.leave hafter)

/-- A literal gives a primitive or a new regular expression. -/
theorem literal (h : Invariant cx I) (value : LiteralValue) (hs : I s held) :
    EndsWith I (fun v => [v]) s held value.evaluate := by
  cases value with
  | regex r => exact h.of_ok rfl rfl (h.regex r hs)
  | _ => exact h.pure (h.primitive rfl hs)

/-- An operation gives a primitive. -/
theorem ofOperation (h : Invariant cx I) {operator : BinaryOperator} {l r : Value} (hs : I s held) :
    EndsWith I (fun v => [v]) s held (Run.ofOperation (operator.apply l r)) := by
  cases hv : operator.apply l r with
  | ok v => exact h.pure (h.primitive (BinaryOperator.isObjectLike_of_apply hv) hs)
  | error e => exact throw hs _

/-- What is bound to a name may be held. -/
theorem ofLookUp (h : Invariant cx I) (name : String) (hs : I s held) :
    EndsWith I (fun v => [v]) s held (ScriptTree.lookUp name) := by
  cases hb : s.environment.binding? name with
  | none =>
    have hl : ScriptTree.lookUp name s = .error (.bare (.unbound name)) s := by
      simp [ScriptTree.lookUp, Environment.get, Environment.value?, hb, EnvironmentError.toEvalError]
    exact of_error (Run.outcome_of_error hl) (Run.after_of_error hl) hs
  | some b =>
    have hl : ScriptTree.lookUp name s = .ok b.value s := by
      simp [ScriptTree.lookUp, Environment.get, Environment.value?, hb]
    exact h.of_ok (Run.outcome_of_ok hl) (Run.after_of_ok hl) (h.lookUp hb hs)

/-- A value that is held may be bound, or refused and dropped. -/
theorem declare (h : Invariant cx I) (d : Declarator) (name : String) (kind : DeclarationKind) {v : Value}
    (hs : I s (v :: held)) : EndsWith I (fun _ => []) s held (d.bind name v kind) := by
  rcases d.bind_cases name v kind s with ⟨hc, ho, ha⟩ | ⟨hc, ho, ha⟩
  · exact h.of_ok ho ha (h.bound ⟨name, v, kind⟩ hc hs)
  · exact of_error ho ha (h.refused _ (h.drop (List.subset_cons_self _ _) hs))

/-- A call takes the arguments that are held, and its result is a primitive. -/
theorem callFor (h : Invariant cx I) (site : Node) (f : Builtin) (vs : List Value) (hs : I s (vs ++ held)) :
    EndsWith I (fun v => [v]) s held (f.callFor cx site vs) := by
  rcases f.callFor_cases cx site vs s with ⟨fault, -, ho, ha⟩ | ⟨harity, ho, ha⟩
  · exact of_error ho ha (h.drop (List.subset_append_right _ _) hs)
  · have hcall := h.call site f harity hs
    unfold Builtin.outcomeOf at ho
    cases hr : (f.reply cx.host s.calls vs).result with
    | ok result =>
      rw [hr] at ho
      exact h.of_ok ho ha (h.primitive rfl hcall)
    | error reason =>
      rw [hr] at ho
      exact of_error ho ha hcall

mutual

/-- Every node keeps an invariant. -/
theorem evaluate (h : Invariant cx I) (node : Node) {s : State} {held : List Value} (hs : I s held) :
    EndsWith I (fun v => [v]) s held (node.evaluate cx) := by
  rw [Node.evaluate_eq]
  refine h.entering node hs ?_
  have hi := h.inside node hs
  match node with
  | .program span body => exact h.statements body (h.primitive rfl hi)
  | .expressionStatement span expression => exact h.evaluate expression hi
  | .binary span left operator right =>
    refine h.bind (h.evaluate left hi) (List.Subset.refl _) ?_
    intro l hl
    refine h.bind (h.evaluate right hl) (List.subset_cons_self _ _) ?_
    intro r hr
    exact h.ofOperation (h.drop (List.subset_append_right [r, l] _) hr)
  | .literal span value => exact h.literal value hi
  | .call span callee arguments optional =>
    refine h.bind (h.evaluate callee hi) (List.Subset.refl _) ?_
    intro v hv
    have hi' := h.drop (List.subset_append_right [v] _) hv
    cases v with
    | callable i f =>
      refine h.bind (h.arguments arguments hi') (List.Subset.refl _) ?_
      intro vs hvs
      exact h.callFor _ f vs hvs
    | _ => exact throw hi' _
  | .member span object property computed optional =>
    refine h.bind (h.evaluate object hi) (List.Subset.refl _) ?_
    intro base hbase
    cases hv : base.member property computed with
    | ok v => exact h.pure (h.member hv hbase)
    | error fault => exact throw (h.drop (List.subset_append_right [base] _) hbase) _
  | .identifier span name => exact h.ofLookUp name hi
  | .declaration span kind declarators =>
    refine h.bind (h.declarators kind declarators hi) (List.Subset.refl _) ?_
    intro _ hd
    exact h.pure (h.primitive rfl hd)
  | .declarator d => exact throw hi _
  | .unsupported => exact throw hi _

/-- Statements in a row keep an invariant, and hold the value of the last one. -/
theorem statements (h : Invariant cx I) {last : Value} (body : List Node)
    {s : State} {held : List Value} (hs : I s (last :: held)) :
    EndsWith I (fun v => [v]) s held (evaluateStatements cx last body) := by
  match body with
  | [] =>
    rw [evaluateStatements]
    exact h.pure hs
  | statement :: rest =>
    rw [evaluateStatements]
    exact h.bind (h.evaluate statement (h.drop (List.subset_cons_self _ _) hs)) (List.Subset.refl _) fun v hv =>
      h.statements rest hv

/-- Arguments in a row keep it, and hold all their values. -/
theorem arguments (h : Invariant cx I) (nodes : List Node) {s : State} {held : List Value} (hs : I s held) :
    EndsWith I id s held (evaluateArguments cx nodes) := by
  match nodes with
  | [] =>
    rw [evaluateArguments]
    exact h.pure hs
  | argument :: rest =>
    rw [evaluateArguments]
    refine h.bind (h.evaluate argument hs) (List.Subset.refl _) ?_
    intro v hv
    refine h.bind (h.arguments rest hv) (List.subset_cons_self _ _) ?_
    intro vs hvs
    refine h.pure (h.drop ?_ hvs)
    simp [List.subset_def, or_left_comm]

/-- A declarator keeps it, and holds nothing afterwards. -/
theorem declarator (h : Invariant cx I) (kind : DeclarationKind) (d : Declarator)
    {s : State} {held : List Value} (hs : I s held) :
    EndsWith I (fun _ => []) s held (d.evaluate cx kind) := by
  rw [Declarator.evaluate.eq_def]
  cases d.name with
  | error error => exact throw hs error
  | ok name =>
    match d with
    | .mk span target init =>
      exact h.bind (h.init init hs) (List.Subset.refl _) fun v hv => h.declare _ name kind hv

/-- An initial value keeps it, an absent one too. -/
theorem init (h : Invariant cx I) (init : Option Node) {s : State} {held : List Value} (hs : I s held) :
    EndsWith I (fun v => [v]) s held (evaluateInit cx init) := by
  match init with
  | none =>
    rw [evaluateInit]
    exact h.pure (h.primitive rfl hs)
  | some node =>
    rw [evaluateInit]
    exact h.evaluate node hs

/-- Declarators in a row keep it. -/
theorem declarators (h : Invariant cx I) (kind : DeclarationKind) (ds : List Declarator)
    {s : State} {held : List Value} (hs : I s held) :
    EndsWith I (fun _ => []) s held (evaluateDeclarators cx kind ds) := by
  match ds with
  | [] =>
    rw [evaluateDeclarators]
    exact h.pure hs
  | d :: rest =>
    rw [evaluateDeclarators]
    exact h.bind (h.declarator kind d hs) (List.Subset.refl _) fun _ hd => h.declarators kind rest hd

end

end Invariant

end ScriptTree
