import Mathlib.Data.List.Forall2
import ScriptTree.Proofs.Run

/-!
# Two runs side by side

Two runs of one tree may work on different states and under different contexts, and their values need not be equal: it is
enough that states and values stay related. `Simulation` says what the building blocks of an evaluation have to do with
related values in related states; `Simulation.evaluate` then gives that every tree ends alike in both, with the same error
or with related values, and in related states.
-/

namespace ScriptTree

/-- Two results match: both are related values, or both are the same error. -/
def Matches {ε α : Type} (V : α → α → Prop) : Except ε α → Except ε α → Prop
  | .ok a, .ok a' => V a a'
  | .error e, .error e' => e = e'
  | _, _ => False

/-- Outcomes that match are both values or the same error. -/
theorem Matches.cases {ε α : Type} {V : α → α → Prop} {x x' : Except ε α} (h : Matches V x x') :
    (∃ a a', x = .ok a ∧ x' = .ok a' ∧ V a a') ∨ ∃ e, x = .error e ∧ x' = .error e := by
  cases x with
  | ok a =>
    cases x' with
    | ok a' => exact Or.inl ⟨a, a', rfl, rfl, h⟩
    | error e' => exact h.elim
  | error e =>
    cases x' with
    | ok a' => exact h.elim
    | error e' => exact Or.inr ⟨e, rfl, congrArg Except.error (Eq.symm h)⟩

/-- Results match by equality exactly if they are equal. -/
theorem matches_eq_iff {ε α : Type} {x x' : Except ε α} : Matches Eq x x' ↔ x = x' := by
  constructor
  · intro h
    rcases h.cases with ⟨a, _, rfl, rfl, rfl⟩ | ⟨e, rfl, rfl⟩
    · rfl
    · rfl
  · rintro rfl
    cases x with
    | ok a => exact rfl
    | error e => exact rfl

/-- From related states two runs end with matching outcomes and in related states. -/
def Simulates {α : Type} (S : State → State → Prop) (V : α → α → Prop) (x x' : Run α) : Prop :=
  ∀ ⦃s s'⦄, S s s' → Matches V (x.outcome s) (x'.outcome s') ∧ S (x.after s) (x'.after s')

namespace Simulates

variable {α β : Type} {S : State → State → Prop} {V : α → α → Prop} {W : β → β → Prop}

theorem pure {a a' : α} (h : V a a') : Simulates S V (Pure.pure a) (Pure.pure a') := fun _ _ hs => ⟨h, hs⟩

theorem throw (e : EvalError) : Simulates S V (MonadExcept.throw e) (MonadExcept.throw e) := fun _ _ hs => ⟨rfl, hs⟩

/-- Two runs in a row are simulated by two runs in a row. -/
theorem bind {x x' : Run α} {f f' : α → Run β} (hx : Simulates S V x x')
    (hf : ∀ {a a'}, V a a' → Simulates S W (f a) (f' a')) : Simulates S W (x >>= f) (x' >>= f') := by
  intro s s' hs
  obtain ⟨hmatch, hafter⟩ := hx hs
  rcases hmatch.cases with ⟨a, a', ho, ho', hv⟩ | ⟨e, ho, ho'⟩
  · rw [Run.outcome_bind_ok ho, Run.after_bind_ok ho, Run.outcome_bind_ok ho', Run.after_bind_ok ho']
    exact hf hv hafter
  · rw [Run.outcome_bind_error ho, Run.after_bind_error ho, Run.outcome_bind_error ho', Run.after_bind_error ho']
    exact ⟨rfl, hafter⟩

/-- A name is bound alike in both runs, or refused alike, if it is a constant in both or in none. -/
theorem declare (d : Declarator) {name : String} {v v' : Value} {kind : DeclarationKind}
    (hconst : ∀ {s s'}, S s s' → s'.environment.bindings.isConst name = s.environment.bindings.isConst name)
    (hbound : ∀ {s s'}, S s s' → S (s.afterBound ⟨name, v, kind⟩) (s'.afterBound ⟨name, v', kind⟩))
    (hrefused : ∀ {s s'}, S s s' → S (s.record (.refused ⟨name, v, kind⟩)) (s'.record (.refused ⟨name, v', kind⟩))) :
    Simulates S Eq (d.bind name v kind) (d.bind name v' kind) := by
  intro s s' h
  rcases d.bind_cases name v kind s with ⟨hc, ho, ha⟩ | ⟨hc, ho, ha⟩ <;>
    rcases d.bind_cases name v' kind s' with ⟨hc', ho', ha'⟩ | ⟨hc', ho', ha'⟩ <;>
    rw [hconst h, hc] at hc'
  · rw [ho, ha, ho', ha']
    exact ⟨rfl, hbound h⟩
  · cases hc'
  · cases hc'
  · rw [ho, ha, ho', ha']
    exact ⟨rfl, hrefused h⟩

/-- A call is made alike in both runs, or refused alike, if as many arguments fit the one function as fit the other. -/
theorem call {cx cx' : Context} (site : Node) {f f' : Builtin} {vs vs' : List Value} {U : Value → Value → Prop}
    (harity : f'.checkArity vs'.length = f.checkArity vs.length)
    (hreply : ∀ {s s'}, S s s' →
      Matches U (f.outcomeOf (f.reply cx.host s.calls vs)) (f'.outcomeOf (f'.reply cx'.host s'.calls vs')) ∧
        S (s.afterCall site f vs (f.reply cx.host s.calls vs)) (s'.afterCall site f' vs' (f'.reply cx'.host s'.calls vs'))) :
    Simulates S U (f.callFor cx site vs) (f'.callFor cx' site vs') := by
  intro s s' h
  rcases f.callFor_cases cx site vs s with ⟨fault, hn, ho, ha⟩ | ⟨hn, ho, ha⟩ <;>
    rcases f'.callFor_cases cx' site vs' s' with ⟨fault', hn', ho', ha'⟩ | ⟨hn', ho', ha'⟩ <;>
    rw [harity, hn] at hn'
  · cases hn'
    rw [ho, ha, ho', ha']
    exact ⟨rfl, h⟩
  · cases hn'
  · cases hn'
  · rw [ho, ha, ho', ha']
    exact hreply h

end Simulates

/-- Two contexts enter and leave nodes alike, from related states and into related states. -/
structure EntersAlike (cx cx' : Context) (S : State → State → Prop) : Prop where
  maxDepth : cx'.maxDepth = cx.maxDepth
  interrupted : ∀ {s s'}, S s s' → s'.interrupted = s.interrupted
  depth : ∀ {s s'}, S s s' → s'.environment.depth = s.environment.depth
  inside : ∀ {s s'} (node : Node), S s s' → S (s.inside node) (s'.inside node)
  leave : ∀ {s s'}, S s s' → S s.leave s'.leave

/-- A node that is entered alike around simulated work is simulated. -/
theorem EntersAlike.entering {cx cx' : Context} {S : State → State → Prop} {V : Value → Value → Prop}
    (h : EntersAlike cx cx' S) (node : Node) {work work' : Run Value} (hwork : Simulates S V work work') :
    Simulates S V (ScriptTree.entering cx node work) (ScriptTree.entering cx' node work') := by
  intro s s' hs
  rcases entering_cases cx node work s with ⟨hi, ho, ha⟩ | ⟨hi, hd, ho, ha⟩ | ⟨hi, hd, ho, ha⟩
  · rw [← h.interrupted hs] at hi
    have he : ScriptTree.entering cx' node work' s' = .error .interrupted s' := entering_of_interrupted hi
    rw [ho, ha, Run.outcome_of_error he, Run.after_of_error he]
    exact ⟨rfl, hs⟩
  · rw [← h.interrupted hs] at hi
    rw [← h.maxDepth, ← h.depth hs] at hd ho
    have he : ScriptTree.entering cx' node work' s' =
        .error (.nestingTooDeep (s'.environment.depth + 1) cx'.maxDepth) s' := entering_of_refused hi hd
    rw [ho, ha, Run.outcome_of_error he, Run.after_of_error he]
    exact ⟨rfl, hs⟩
  · rw [← h.interrupted hs] at hi
    rw [← h.maxDepth, ← h.depth hs] at hd
    obtain ⟨ho', ha'⟩ := entering_of_entered node work' hi hd
    obtain ⟨hmatch, hafter⟩ := hwork (h.inside node hs)
    rw [ho, ha, ho', ha']
    refine ⟨?_, h.leave hafter⟩
    rcases hmatch.cases with ⟨v, v', hw, hw', hv⟩ | ⟨e, hw, hw'⟩
    · rw [hw, hw']
      exact hv
    · rw [hw, hw']
      exact rfl

/-- What evaluation needs of two contexts and of relations between their states and between their values. -/
structure Simulation (cx cx' : Context) (S : State → State → Prop) (V : Value → Value → Prop) : Prop
    extends EntersAlike cx cx' S where
  undefined : V .undefined .undefined
  typeName : ∀ {v v'}, V v v' → v'.typeName = v.typeName
  literal : ∀ value : LiteralValue, Simulates S V value.evaluate value.evaluate
  apply : ∀ (operator : BinaryOperator) {l l' r r'}, V l l' → V r r' → Matches V (operator.apply l r) (operator.apply l' r')
  member : ∀ {base base'} (property : Node) (computed : Bool), V base base' →
    Matches V (base.member property computed) (base'.member property computed)
  lookUp : ∀ name : String, Simulates S V (lookUp name) (lookUp name)
  declare : ∀ (d : Declarator) (name : String) {v v'} (kind : DeclarationKind), V v v' →
    Simulates S Eq (d.bind name v kind) (d.bind name v' kind)
  call : ∀ (site : Node) {i i' : Identity} {f f' : Builtin} {vs vs' : List Value}, V (.callable i f) (.callable i' f') →
    List.Forall₂ V vs vs' → Simulates S V (f.callFor cx site vs) (f'.callFor cx' site vs')

namespace Simulation

variable {cx cx' : Context} {S : State → State → Prop} {V : Value → Value → Prop}

/-- Operations are simulated if their results match. -/
theorem ofOperation {result result' : Except OperationError Value} (h : Matches V result result') :
    Simulates S V (Run.ofOperation result) (Run.ofOperation result') := by
  rcases h.cases with ⟨v, v', rfl, rfl, hv⟩ | ⟨e, rfl, rfl⟩
  · exact .pure hv
  · exact .throw _

/-- Reading a property is simulated if what is read matches. -/
theorem ofMember (result result' : Except Fault Value) : Matches V result result' →
    Simulates S V
      (match result with
        | .ok value => Pure.pure value
        | .error fault => Run.fault fault)
      (match result' with
        | .ok value => Pure.pure value
        | .error fault => Run.fault fault) := by
  intro h
  rcases h.cases with ⟨v, v', rfl, rfl, hv⟩ | ⟨e, rfl, rfl⟩
  · exact .pure hv
  · exact .throw _

/-- Related values are both functions or both none. -/
theorem callable_cases (h : Simulation cx cx' S V) {v v' : Value} (hv : V v v') :
    (∃ i f i' f', v = .callable i f ∧ v' = .callable i' f') ∨
      ((∀ i f, v ≠ .callable i f) ∧ ∀ i f, v' ≠ .callable i f) := by
  have htype := h.typeName hv
  cases v with
  | callable i f =>
    cases v' with
    | callable i' f' => exact Or.inl ⟨i, f, i', f', rfl, rfl⟩
    | _ => cases htype
  | _ =>
    cases v' with
    | callable i' f' => cases htype
    | _ => exact Or.inr ⟨nofun, nofun⟩

mutual

/-- Every node is simulated. -/
theorem evaluate (h : Simulation cx cx' S V) (node : Node) : Simulates S V (node.evaluate cx) (node.evaluate cx') := by
  rw [Node.evaluate.eq_def cx node, Node.evaluate.eq_def cx' node]
  apply h.entering
  match node with
  | .program span body => exact h.statements h.undefined body
  | .expressionStatement span expression => exact h.evaluate expression
  | .binary span left operator right =>
    exact (h.evaluate left).bind fun hl => (h.evaluate right).bind fun hr => ofOperation (h.apply operator hl hr)
  | .literal span value => exact h.literal value
  | .call span callee arguments optional =>
    refine (h.evaluate callee).bind ?_
    intro v v' hv
    rcases h.callable_cases hv with ⟨i, f, i', f', rfl, rfl⟩ | ⟨hno, hno'⟩
    · exact (h.arguments arguments).bind fun hvs => h.call _ hv hvs
    · split
      · exact absurd rfl (hno _ _)
      · rw [h.typeName hv]
        exact .throw _
  | .member span object property computed optional =>
    exact (h.evaluate object).bind fun hbase => ofMember _ _ (h.member property computed hbase)
  | .identifier span name => exact h.lookUp name
  | .declaration span kind declarators => exact (h.declarators kind declarators).bind fun _ => .pure h.undefined
  | .declarator d => exact .throw _
  | .unsupported => exact .throw _

/-- Statements in a row are simulated from related values on. -/
theorem statements (h : Simulation cx cx' S V) {last last' : Value} (hlast : V last last') (body : List Node) :
    Simulates S V (evaluateStatements cx last body) (evaluateStatements cx' last' body) := by
  match body with
  | [] =>
    simp only [evaluateStatements]
    exact .pure hlast
  | statement :: rest =>
    simp only [evaluateStatements]
    exact (h.evaluate statement).bind fun hv => h.statements hv rest

/-- Arguments in a row are simulated, value by value. -/
theorem arguments (h : Simulation cx cx' S V) (nodes : List Node) :
    Simulates S (List.Forall₂ V) (evaluateArguments cx nodes) (evaluateArguments cx' nodes) := by
  match nodes with
  | [] =>
    simp only [evaluateArguments]
    exact .pure .nil
  | argument :: rest =>
    simp only [evaluateArguments]
    exact (h.evaluate argument).bind fun hv => (h.arguments rest).bind fun hvs => .pure (.cons hv hvs)

theorem declarator (h : Simulation cx cx' S V) (kind : DeclarationKind) (d : Declarator) :
    Simulates S Eq (d.evaluate cx kind) (d.evaluate cx' kind) := by
  rw [Declarator.evaluate.eq_def cx, Declarator.evaluate.eq_def cx']
  cases d.name with
  | error error => exact .throw error
  | ok name =>
    match d with
    | .mk span target init => exact (h.init init).bind fun hv => h.declare _ name kind hv

/-- An initial value is simulated, an absent one too. -/
theorem init (h : Simulation cx cx' S V) (init : Option Node) :
    Simulates S V (evaluateInit cx init) (evaluateInit cx' init) := by
  match init with
  | none =>
    simp only [evaluateInit]
    exact .pure h.undefined
  | some node =>
    simp only [evaluateInit]
    exact h.evaluate node

theorem declarators (h : Simulation cx cx' S V) (kind : DeclarationKind) (ds : List Declarator) :
    Simulates S Eq (evaluateDeclarators cx kind ds) (evaluateDeclarators cx' kind ds) := by
  match ds with
  | [] =>
    simp only [evaluateDeclarators]
    exact .pure rfl
  | d :: rest =>
    simp only [evaluateDeclarators]
    exact (h.declarator kind d).bind fun _ => h.declarators kind rest

end

end Simulation

end ScriptTree
