import ScriptTree.Proofs.Composition
import ScriptTree.Proofs.Simulation

/-!
# Programs in two parts

A program may be cut in two anywhere before its last statement: `split_program_is_invisible` says that running the first
part and then, if it succeeds, the second one in the state it left has the outcome and the effect of running the whole.
Only the record of events tells the two apart, since the program is entered twice, and no run looks at it
(`unobserving_compositional`).
-/

namespace ScriptTree

/-- Two states that differ at most in the events they record. -/
structure SameEffect (s t : State) : Prop where
  environment : s.environment = t.environment
  lines : s.lines = t.lines
  interrupted : s.interrupted = t.interrupted
  nextIdentity : s.nextIdentity = t.nextIdentity
  calls : s.calls = t.calls

namespace SameEffect

variable {s t u : State}

theorem refl (s : State) : SameEffect s s := ⟨rfl, rfl, rfl, rfl, rfl⟩

theorem symm (h : SameEffect s t) : SameEffect t s :=
  ⟨h.environment.symm, h.lines.symm, h.interrupted.symm, h.nextIdentity.symm, h.calls.symm⟩

theorem trans (h : SameEffect s t) (h' : SameEffect t u) : SameEffect s u :=
  ⟨h.environment.trans h'.environment, h.lines.trans h'.lines, h.interrupted.trans h'.interrupted,
    h.nextIdentity.trans h'.nextIdentity, h.calls.trans h'.calls⟩

theorem leave (h : SameEffect s t) : SameEffect s.leave t.leave :=
  ⟨congrArg Environment.leave h.environment, h.lines, h.interrupted, h.nextIdentity, h.calls⟩

/-- Records have no effect. -/
theorem record (h : SameEffect s t) (event event' : Event) : SameEffect (s.record event) (t.record event') :=
  ⟨h.environment, h.lines, h.interrupted, h.nextIdentity, h.calls⟩

/-- Whatever nodes they go inside, two states of the same effect have the same effect there. -/
theorem inside (h : SameEffect s t) (node node' : Node) : SameEffect (s.inside node) (t.inside node') :=
  ⟨by show Environment.mk _ _ = Environment.mk _ _; rw [h.environment], h.lines, h.interrupted, h.nextIdentity, h.calls⟩

/-- The same binding keeps states alike in effect. -/
theorem afterBound (h : SameEffect s t) (b : Binding) : SameEffect (s.afterBound b) (t.afterBound b) :=
  ⟨by show Environment.mk _ _ = Environment.mk _ _; rw [h.environment], h.lines, h.interrupted, h.nextIdentity, h.calls⟩

theorem afterCall (h : SameEffect s t) (site : Node) (f : Builtin) (arguments : List Value) (reply : Reply) :
    SameEffect (s.afterCall site f arguments reply) (t.afterCall site f arguments reply) :=
  ⟨h.environment, congrArg (fun lines : Array String => lines ++ reply.lines) h.lines,
    congrArg (· || reply.interrupt) h.interrupted, h.nextIdentity, congrArg (_ :: ·) h.calls⟩

/-- States alike in effect enter and leave nodes alike. -/
theorem entersAlike (cx : Context) : EntersAlike cx cx SameEffect where
  maxDepth := rfl
  interrupted h := h.interrupted.symm
  depth h := congrArg Environment.depth h.environment.symm
  inside node h := h.inside node node
  leave h := h.leave

end SameEffect

/-- Two runs that cannot be told apart from states of the same effect. -/
def Unobserving {α : Type} (x x' : Run α) : Prop :=
  ∀ ⦃s t⦄, SameEffect s t → x.outcome s = x'.outcome t ∧ SameEffect (x.after s) (x'.after t)

/-- To be told apart by nothing but records is to stay side by side in states of the same effect. -/
theorem unobserving_iff {α : Type} {x x' : Run α} : Unobserving x x' ↔ Simulates SameEffect Eq x x' := by
  unfold Unobserving Simulates
  simp only [matches_eq_iff]

/-- Nothing that evaluation is made of looks at the record of events. -/
theorem unobserving_compositional (cx : Context) : Compositional cx cx fun _ _ x x' => Unobserving x x' where
  pure _ _ _ h := ⟨rfl, h⟩
  fault _ _ _ _ _ h := ⟨rfl, h⟩
  bind _ hx hf := by
    refine unobserving_iff.mpr ((unobserving_iff.mp hx).bind ?_)
    rintro a _ rfl
    exact unobserving_iff.mp (hf a)
  entering node _ _ hw := unobserving_iff.mpr ((SameEffect.entersAlike cx).entering node (unobserving_iff.mp hw))
  fresh _ _ h :=
    ⟨congrArg Except.ok h.nextIdentity,
      ⟨h.environment, h.lines, h.interrupted, congrArg (· + 1) h.nextIdentity, h.calls⟩⟩
  lookUp name s t h := by
    rw [after_lookUp, after_lookUp]
    refine ⟨?_, h⟩
    unfold Run.outcome lookUp
    rw [h.environment]
    cases t.environment.get name <;> rfl
  declare d name value kind :=
    unobserving_iff.mpr (.declare d (fun h => by rw [h.environment]) (fun h => h.afterBound _) fun h => h.record _ _)
  call site f arguments := by
    refine unobserving_iff.mpr (.call site rfl ?_)
    intro s t h
    rw [h.calls]
    exact ⟨matches_eq_iff.mpr rfl, h.afterCall site f arguments _⟩

/-! ## Statements in two parts -/

/-- Statements in two parts are evaluated one part after the other. -/
theorem evaluateStatements_append (cx : Context) (last : Value) (body₁ body₂ : List Node) :
    evaluateStatements cx last (body₁ ++ body₂) =
      evaluateStatements cx last body₁ >>= fun value => evaluateStatements cx value body₂ := by
  induction body₁ generalizing last with
  | nil => simp [evaluateStatements]
  | cons statement rest ih => simp [evaluateStatements, ih, bind_assoc]

/-- The value before the first statement shows only if there is no statement. -/
theorem evaluateStatements_last (cx : Context) (last last' : Value) {body : List Node} (h : body ≠ []) :
    evaluateStatements cx last body = evaluateStatements cx last' body := by
  cases body with
  | nil => exact absurd rfl h
  | cons statement rest => simp only [evaluateStatements]

/-- An interrupted run does not get to the first statement. -/
theorem evaluateStatements_of_interrupted (cx : Context) (last : Value) {body : List Node} (h : body ≠ []) {s : State}
    (hi : s.interrupted = true) : evaluateStatements cx last body s = .error .interrupted s := by
  cases body with
  | nil => exact absurd rfl h
  | cons statement rest =>
    have he : statement.evaluate cx s = .error .interrupted s := by
      rw [Node.evaluate.eq_def]
      exact entering_of_interrupted hi
    simp [evaluateStatements, bind, EStateM.bind, he]

/-- A program is its statements in a row, starting from `undefined`. -/
theorem evaluate_program (cx : Context) (span : Span) (body : List Node) :
    (Node.program span body).evaluate cx =
      entering cx (.program span body) (evaluateStatements cx .undefined body) := by
  rw [Node.evaluate]

/-- Statements do not observe the record. -/
theorem unobserving_statements (cx : Context) (last : Value) (body : List Node) :
    Unobserving (evaluateStatements cx last body) (evaluateStatements cx last body) :=
  ((unobserving_compositional cx).balanced.statements last body).1

/-- Statements leave as many nodes as they enter. -/
theorem sameDepth_statements (cx : Context) (last : Value) (body : List Node) :
    (evaluateStatements cx last body).Respects SameDepth :=
  ((unobserving_compositional cx).balanced.statements last body).2

/-- A program that is entered runs its statements, and an error of theirs without a span gets the span of the program. -/
theorem evaluate_program_entered (cx : Context) (span : Span) (body : List Node) {s : State}
    (hi : s.interrupted = false) (hd : s.environment.depth < cx.maxDepth) :
    ((Node.program span body).evaluate cx).outcome s =
        ((evaluateStatements cx .undefined body).outcome (s.inside (.program span body))).mapError
          (EvalError.locate span) ∧
      ((Node.program span body).evaluate cx).after s =
        ((evaluateStatements cx .undefined body).after (s.inside (.program span body))).leave := by
  rw [evaluate_program]
  exact entering_of_entered _ _ hi hd

/-- A program that is entered where the statements before its own have just been left goes on
as if it had not been entered anew. -/
theorem evaluate_program_resumed (cx : Context) (span : Span) {body : List Node} (hne : body ≠ []) (last : Value)
    {s t : State} (h : SameEffect s t) {depth : Nat} (hdepth : t.environment.depth = depth + 1)
    (hroom : depth < cx.maxDepth) :
    ((Node.program span body).evaluate cx).outcome t.leave =
        ((evaluateStatements cx last body).outcome s).mapError (EvalError.locate span) ∧
      SameEffect (((Node.program span body).evaluate cx).after t.leave)
        ((evaluateStatements cx last body).after s).leave := by
  have hleft : t.leave.environment.depth = depth := by
    show t.environment.depth - 1 = depth
    omega
  cases hi : t.interrupted with
  | true =>
    have hw : (Node.program span body).evaluate cx t.leave = .error .interrupted t.leave := by
      rw [evaluate_program]
      exact entering_of_interrupted hi
    have hs := evaluateStatements_of_interrupted cx last hne (h.interrupted.trans hi)
    rw [Run.outcome_of_error hw, Run.after_of_error hw, Run.outcome_of_error hs, Run.after_of_error hs]
    exact ⟨rfl, h.symm.leave⟩
  | false =>
    have hd : t.leave.environment.depth < cx.maxDepth := hleft.symm ▸ hroom
    have hback : SameEffect (t.leave.inside (.program span body)) t := by
      refine ⟨?_, rfl, rfl, rfl, rfl⟩
      show Environment.mk t.environment.bindings (t.leave.environment.depth + 1) = t.environment
      rw [hleft, ← hdepth]
    obtain ⟨hwo, hwa⟩ := unobserving_statements cx .undefined body (hback.trans h.symm)
    obtain ⟨ho, ha⟩ := evaluate_program_entered cx span body (s := t.leave) hi hd
    rw [ho, ha, hwo, evaluateStatements_last cx last .undefined hne]
    exact ⟨rfl, hwa.leave⟩

/-- Splitting a program is invisible: to run the whole is to run its first part and then, if that succeeded, the rest in
the state it left. If the first part fails its error is the answer, span included, and the rest has no effect. -/
theorem split_program_is_invisible (cx : Context) (span : Span) (body₁ body₂ : List Node) (hne : body₂ ≠ []) (s : State) :
    let whole := (Node.program span (body₁ ++ body₂)).evaluate cx
    let first := (Node.program span body₁).evaluate cx
    let second := (Node.program span body₂).evaluate cx
    (∀ e, first.outcome s = .error e → whole.outcome s = .error e ∧ SameEffect (whole.after s) (first.after s)) ∧
      ∀ value, first.outcome s = .ok value →
        whole.outcome s = second.outcome (first.after s) ∧
          SameEffect (whole.after s) (second.after (first.after s)) := by
  intro whole first second
  have hwhole : whole = entering cx (.program span (body₁ ++ body₂)) (evaluateStatements cx .undefined (body₁ ++ body₂)) :=
    evaluate_program cx span (body₁ ++ body₂)
  rcases entering_cases cx (.program span body₁) (evaluateStatements cx .undefined body₁) s with
    ⟨hi, ho, ha⟩ | ⟨hi, hd, ho, ha⟩ | ⟨hi, hd, -, -⟩
  · have hw : whole s = .error .interrupted s := by
      rw [hwhole]
      exact entering_of_interrupted hi
    rw [← evaluate_program] at ho ha
    rw [ho, ha, Run.outcome_of_error hw, Run.after_of_error hw]
    exact ⟨fun e he => ⟨he, .refl s⟩, nofun⟩
  · have hw : whole s = .error (.nestingTooDeep (s.environment.depth + 1) cx.maxDepth) s := by
      rw [hwhole]
      exact entering_of_refused hi hd
    rw [← evaluate_program] at ho ha
    rw [ho, ha, Run.outcome_of_error hw, Run.after_of_error hw]
    exact ⟨fun e he => ⟨he, .refl s⟩, nofun⟩
  · obtain ⟨ho, ha⟩ := evaluate_program_entered cx span body₁ hi hd
    obtain ⟨how, haw⟩ := evaluate_program_entered cx span (body₁ ++ body₂) hi hd
    rw [evaluateStatements_append] at how haw
    -- both sides run the first part inside a program; they differ in the program that is recorded
    obtain ⟨hsame, heffect⟩ := unobserving_statements cx .undefined body₁
      ((SameEffect.refl s).inside (.program span (body₁ ++ body₂)) (.program span body₁))
    rw [ho, ha, how, haw]
    cases h₁ : (evaluateStatements cx .undefined body₁).outcome (s.inside (.program span body₁)) with
    | error e =>
      rw [h₁] at hsame
      rw [Run.outcome_bind_error hsame, Run.after_bind_error hsame]
      exact ⟨fun e' he => ⟨he, heffect.leave⟩, nofun⟩
    | ok value =>
      rw [h₁] at hsame
      rw [Run.outcome_bind_ok hsame, Run.after_bind_ok hsame]
      have hdepth := sameDepth_statements cx .undefined body₁ (s.inside (.program span body₁))
      obtain ⟨hso, hsa⟩ := evaluate_program_resumed cx span hne value heffect hdepth hd
      exact ⟨nofun, fun _ _ => ⟨hso.symm, hsa.symm⟩⟩

/-- A declaration, and then a part that reads the name and fails at an unsupported statement: the error of the whole is
that of the second part, which is blamed on the program. -/
theorem split_after_declaration :
    let cx : Context := ⟨9, Host.silent⟩
    let span : Span := ⟨0, 20⟩
    let body₁ : List Node := [.declaration default .const [.mk default (.identifier default "n") none]]
    let body₂ : List Node := [.identifier default "n", .unsupported]
    let whole := (Node.program span (body₁ ++ body₂)).evaluate cx
    let first := (Node.program span body₁).evaluate cx
    let second := (Node.program span body₂).evaluate cx
    body₂ ≠ [] ∧ first.outcome .empty = .ok .undefined ∧
      second.outcome (first.after .empty) = .error (.located (.ofNode .unsupported) span) ∧
      whole.outcome .empty = .error (.located (.ofNode .unsupported) span) := by
  intro cx span body₁ body₂ whole first second
  have hne : body₂ ≠ [] := by simp [body₂]
  have hfirst : first.outcome .empty = .ok .undefined := by rfl
  have hsecond : second.outcome (first.after .empty) = .error (.located (.ofNode .unsupported) span) := by rfl
  obtain ⟨hwhole, -⟩ := (split_program_is_invisible cx span body₁ body₂ hne .empty).2 _ hfirst
  exact ⟨hne, hfirst, hsecond, hwhole.trans hsecond⟩

end ScriptTree
