import ScriptTree.Host.Canned
import ScriptTree.Proofs.Moments

/-!
# Interruption

The interrupt flag is looked at where a node is met and nowhere else. So what was begun when it is set goes on up to the
next node: values are still combined, names are still bound, and a fault may still come first. `interruption_stops_at_nodes`
is the main statement. Once the flag is set no node is entered any more; a run ends interrupted exactly if it meets a node
while the flag is set, and is otherwise the run that it would have been without any interruption (`State.calm`); and the
statements of a program after the one in which the flag is set have no effect at all.
-/

namespace ScriptTree

/-! ## No further node is entered -/

/-- If the first state is interrupted so is the second one, and no node was entered in between. -/
def Halts (s t : State) : Prop :=
  s.interrupted = true → t.interrupted = true ∧ View.entries.ofState t = View.entries.ofState s

/-- No change of a run clears the flag, and nothing is entered while it is set. -/
theorem halts_stepwise (cx : Context) : Stepwise cx Halts where
  refl _ hi := ⟨hi, rfl⟩
  trans h h' hi := by
    obtain ⟨hi', hsame⟩ := h hi
    obtain ⟨hi'', hsame'⟩ := h' hi'
    exact ⟨hi'', hsame'.trans hsame⟩
  node {s t} _ hno _ _ hi := by
    rw [hno] at hi
    cases hi
  fresh _ hi := ⟨hi, rfl⟩
  bound b _ hi := ⟨hi, (View.entries.ofState_record _ (.bound b)).trans (List.append_nil _)⟩
  refused b _ hi := ⟨hi, (View.entries.ofState_record _ (.refused b)).trans (List.append_nil _)⟩
  call s site f arguments _ hi := by
    refine ⟨?_, (View.entries.ofState_record s (.calling site f.name arguments.length)).trans (List.append_nil _)⟩
    show (s.interrupted || _) = true
    rw [hi, Bool.true_or]

/-- From a moment at which the flag is set no further node is entered, and the flag stays set. -/
theorem Moment.halts {cx : Context} {s t : State} {node : Node} (h : Moment cx s node t) :
    Halts t ((node.evaluate cx).after s) := h.respects (halts_stepwise cx) fun _ hi => ⟨hi, rfl⟩

/-! ## Runs that end interrupted -/

/-- An interruption is a limit. -/
theorem EvalError.isLimit_interrupted : EvalError.interrupted.IsLimit := Or.inl rfl

section Interrupted

variable {cx : Context} {s t : State} {node inner : Node}

/-- Where an interrupted run meets a node, all of it ends interrupted. -/
theorem Meets.outcome_of_interrupted (h : Meets cx s node inner t) (hi : t.interrupted = true) :
    (node.evaluate cx).outcome s = .error .interrupted := by
  induction h with
  | @self s node =>
    rw [Node.evaluate_eq]
    exact Run.outcome_of_error (entering_of_interrupted hi)
  | @part s s' t node part inner hroom hreach _ ih =>
    exact (Node.evaluate_error_iff hroom).mpr
      ⟨_, hreach.work_error (ih hi), ((blame_eq_iff_of_isLimit node EvalError.isLimit_interrupted).mpr rfl).symm⟩

/-- A run that ends interrupted has met a node while the flag was set. -/
theorem Meets.of_outcome (h : (node.evaluate cx).outcome s = .error .interrupted) :
    ∃ inner t, Meets cx s node inner t ∧ t.interrupted = true := by
  induction hsize : sizeOf node using Nat.strongRecOn generalizing node s with
  | _ size ih =>
    cases hi : s.interrupted with
    | true => exact ⟨node, s, .self, hi⟩
    | false =>
      have hroom : s.HasRoom cx 1 := by
        rw [Node.evaluate_eq] at h
        rcases entering_cases cx node (node.work cx) s with ⟨hi', -, -⟩ | ⟨-, -, ho, -⟩ | ⟨-, hd, -, -⟩
        · rw [hi] at hi'
          cases hi'
        · rw [ho] at h
          cases h
        · exact ⟨hi, hd⟩
      obtain ⟨e, hwork, hblame⟩ := (Node.evaluate_error_iff hroom).mp h
      obtain rfl := (blame_eq_iff_of_isLimit node EvalError.isLimit_interrupted).mp hblame.symm
      rcases work_error_cases hwork with ⟨part, s', hreach, hpart⟩ | ⟨fault, span, -, h | ⟨h, -⟩⟩ | ⟨-, h⟩
      · have hlt := Node.sizeOf_lt_of_mem_parts hreach.mem_parts
        obtain ⟨inner, t, hmeets, ht⟩ := ih (sizeOf part) (hsize ▸ hlt) hpart rfl
        exact ⟨inner, t, .part hroom hreach hmeets, ht⟩
      · cases h
      · cases h
      · cases h

end Interrupted

/-! ## Runs that nothing interrupts -/

/-- The host whose functions do the same, but for asking for an interruption. -/
def Host.calm (host : Host) : Host := fun earlier key arguments => { host earlier key arguments with interrupt := false }

/-- The context whose functions never ask for an interruption. -/
def Context.calm (cx : Context) : Context := { cx with host := cx.host.calm }

/-- The state in which the flag is not set. -/
def State.calm (s : State) : State := { s with interrupted := false }

/-- Unless the first run ends interrupted, the second one does the same, from a state in which the flag is not set. -/
def GoesOn {α : Type} (x x' : Run α) : Prop :=
  ∀ s, x.outcome s ≠ .error .interrupted → x'.outcome s.calm = x.outcome s ∧ x'.after s.calm = (x.after s).calm

theorem State.calm_eq_self {s : State} (h : s.interrupted = false) : s.calm = s := by
  cases s
  cases h
  rfl

/-- Runs that do the same from states with and without the flag, whether it is set or not. -/
theorem GoesOn.of_simulates {α : Type} {x x' : Run α} (h : Simulates (fun s s' => s' = s.calm) Eq x x') : GoesOn x x' := by
  intro s _
  obtain ⟨hmatch, hafter⟩ := h (s := s) rfl
  exact ⟨(matches_eq_iff.mp hmatch).symm, hafter⟩

/-- Two runs in a row do the same if each of them does. -/
theorem GoesOn.bind {α β : Type} {x x' : Run α} {f f' : α → Run β} (hx : GoesOn x x') (hf : ∀ a, GoesOn (f a) (f' a)) :
    GoesOn (x >>= f) (x' >>= f') := by
  intro s hs
  cases ho : x.outcome s with
  | ok a =>
    obtain ⟨ho', ha'⟩ := hx s (by rw [ho]; exact nofun)
    rw [ho] at ho'
    rw [Run.outcome_bind_ok ho] at hs ⊢
    rw [Run.after_bind_ok ho, Run.outcome_bind_ok ho', Run.after_bind_ok ho', ha']
    exact hf a (x.after s) hs
  | error e =>
    rw [Run.outcome_bind_error ho] at hs ⊢
    obtain ⟨ho', ha'⟩ := hx s (by rw [ho]; exact fun h => hs (congrArg Except.error (Except.error.inj h)))
    rw [ho] at ho'
    rw [Run.after_bind_error ho, Run.outcome_bind_error ho', Run.after_bind_error ho', ha']
    exact ⟨rfl, rfl⟩

/-- The flag is looked at where a node is met; where it is not set there, both runs meet the node alike. -/
theorem GoesOn.entering {cx : Context} (node : Node) {work work' : Run Value} (hw : GoesOn work work') :
    GoesOn (ScriptTree.entering cx node work) (ScriptTree.entering cx.calm node work') := by
  intro s hs
  rcases entering_cases cx node work s with ⟨-, ho, -⟩ | ⟨hi, hd, ho, ha⟩ | ⟨hi, hd, ho, ha⟩
  · exact absurd ho hs
  · have he : ScriptTree.entering cx.calm node work' s = .error (.nestingTooDeep (s.environment.depth + 1) cx.maxDepth) s :=
      entering_of_refused hi hd
    rw [ho, ha, State.calm_eq_self hi, Run.outcome_of_error he, Run.after_of_error he]
    exact ⟨rfl, rfl⟩
  · have hne : work.outcome (s.inside node) ≠ .error .interrupted := by
      intro h
      rw [ho] at hs
      exact hs ((mapError_blame_eq_iff_of_isLimit node _ EvalError.isLimit_interrupted).mpr h)
    obtain ⟨hwo, hwa⟩ := hw (s.inside node) hne
    have hd' : s.calm.environment.depth < cx.calm.maxDepth := hd
    obtain ⟨ho', ha'⟩ := entering_of_entered node work' (s := s.calm) rfl hd'
    rw [ho, ha, ho', ha']
    exact ⟨congrArg (Except.mapError node.blame) hwo, congrArg State.leave hwa⟩

/-- A run that nothing interrupts is made of the same building blocks. -/
theorem goesOn_compositional (cx : Context) : Compositional cx cx.calm fun _ _ x x' => GoesOn x x' where
  pure _ _ _ := ⟨rfl, rfl⟩
  fault _ _ _ _ _ := ⟨rfl, rfl⟩
  bind _ hx hf := hx.bind hf
  entering node _ _ hw := hw.entering node
  fresh _ _ := ⟨rfl, rfl⟩
  lookUp name s _ := by
    rw [after_lookUp, after_lookUp]
    refine ⟨?_, rfl⟩
    have hget : s.calm.environment.get name = s.environment.get name := rfl
    unfold Run.outcome lookUp
    rw [hget]
    cases s.environment.get name <;> rfl
  declare d name value kind := by
    refine .of_simulates (.declare d ?_ ?_ ?_)
    · rintro s _ rfl
      rfl
    · rintro s _ rfl
      rfl
    · rintro s _ rfl
      rfl
  call site f arguments := by
    refine .of_simulates (.call site rfl ?_)
    rintro s _ rfl
    have hreply : f.reply cx.calm.host s.calm.calls arguments =
        { f.reply cx.host s.calls arguments with interrupt := false } := by
      unfold Builtin.reply
      cases f.body <;> rfl
    rw [hreply]
    exact ⟨matches_eq_iff.mpr rfl, rfl⟩

/-- If without interruption another node is entered after a moment at which the flag is set, the run ends interrupted. -/
theorem Moment.outcome_of_missing {cx : Context} {s t : State} {node : Node} (hm : Moment cx s node t)
    (hi : t.interrupted = true)
    (hmissing : View.entries.ofState ((node.evaluate cx.calm).after s.calm) ≠ View.entries.ofState t) :
    (node.evaluate cx).outcome s = .error .interrupted := by
  by_contra hne
  obtain ⟨-, hcalm⟩ := (goesOn_compositional cx).evaluate node s hne
  apply hmissing
  rw [hcalm, ← (hm.halts hi).2]
  rfl

/-! ## Programs -/

section Program

variable {cx : Context} {s : State} {span : Span} {before rest : List Node} {statement : Node}

/-- Where a statement leaves the flag set, the statements behind it have no effect, and if there are any the run fails. -/
theorem evaluateStatements_of_interrupting (last : Value) (rest : List Node)
    (hi : ((statement.evaluate cx).after s).interrupted = true) :
    (evaluateStatements cx last (statement :: rest)).after s = (statement.evaluate cx).after s ∧
      (∀ e, (statement.evaluate cx).outcome s = .error e →
        (evaluateStatements cx last (statement :: rest)).outcome s = .error e) ∧
      ∀ value, (statement.evaluate cx).outcome s = .ok value →
        (evaluateStatements cx last (statement :: rest)).outcome s =
          if rest = [] then .ok value else .error .interrupted := by
  rw [evaluateStatements]
  cases ho : (statement.evaluate cx).outcome s with
  | error e =>
    rw [Run.after_bind_error ho, Run.outcome_bind_error ho]
    exact ⟨rfl, fun e' h => h, fun value h => (by cases h)⟩
  | ok value =>
    rw [Run.after_bind_ok ho, Run.outcome_bind_ok ho]
    by_cases hrest : rest = []
    · subst hrest
      rw [evaluateStatements]
      refine ⟨rfl, fun e h => (by cases h), fun value' h => ?_⟩
      rw [if_pos rfl]
      exact h
    · have hstop := evaluateStatements_of_interrupted cx value hrest hi
      rw [Run.after_of_error hstop, Run.outcome_of_error hstop]
      refine ⟨rfl, fun e h => (by cases h), fun value' _ => ?_⟩
      rw [if_neg hrest]

/-- A program whose flag is set while a statement is evaluated leaves what that statement leaves. It fails as the statement
does, or else, if the statement is not the last one, by the interruption. -/
theorem evaluate_program_of_interrupting (hroom : s.HasRoom cx 1) {value : Value} {t : State}
    (hbefore : (evaluateStatements cx .undefined before).outcome
      (s.inside (.program span (before ++ statement :: rest))) = .ok value)
    (ht : Moment cx ((evaluateStatements cx .undefined before).after
      (s.inside (.program span (before ++ statement :: rest)))) statement t) (hi : t.interrupted = true) :
    let program : Node := .program span (before ++ statement :: rest)
    let reached := (evaluateStatements cx .undefined before).after (s.inside program)
    (program.evaluate cx).after s = ((statement.evaluate cx).after reached).leave ∧
      (∀ e, (statement.evaluate cx).outcome reached = .error e →
        (program.evaluate cx).outcome s = .error (e.locate span)) ∧
      ∀ value, (statement.evaluate cx).outcome reached = .ok value →
        (program.evaluate cx).outcome s = if rest = [] then .ok value else .error .interrupted := by
  intro program reached
  obtain ⟨ho, ha⟩ := evaluate_program_entered cx span (before ++ statement :: rest) hroom.1 hroom.lt_maxDepth
  rw [evaluateStatements_append, Run.outcome_bind_ok hbefore] at ho
  rw [evaluateStatements_append, Run.after_bind_ok hbefore] at ha
  obtain ⟨hafter, herror, hvalue⟩ := evaluateStatements_of_interrupting value rest (ht.halts hi).1
  refine ⟨?_, ?_, ?_⟩
  · rw [ha, hafter]
  · intro e he
    rw [ho, herror e he]
    rfl
  · intro v hv
    rw [ho, hvalue v hv]
    split <;> rfl

end Program

/-- Interruption stops a run at nodes. From a moment at which the flag is set no further node is entered, and the flag stays
set. A run ends interrupted exactly if it meets a node while the flag is set. If it does not, it ends as it would if neither
the flag had been set before nor any function asked for an interruption; so if another node would then have been entered
after such a moment, it does end interrupted. In a program, what is left is what is left by the statement in which the flag
is set: no later one has any effect. The error is that of the statement, or if it has none and is not the last one, the
interruption. -/
theorem interruption_stops_at_nodes (cx : Context) (node : Node) (s : State) :
    (∀ t, Moment cx s node t → t.interrupted = true →
      ((node.evaluate cx).after s).interrupted = true ∧
        View.entries.ofState ((node.evaluate cx).after s) = View.entries.ofState t) ∧
    ((node.evaluate cx).outcome s = .error .interrupted ↔ ∃ inner t, Meets cx s node inner t ∧ t.interrupted = true) ∧
    ((node.evaluate cx).outcome s ≠ .error .interrupted →
      (node.evaluate cx.calm).outcome s.calm = (node.evaluate cx).outcome s ∧
        (node.evaluate cx.calm).after s.calm = ((node.evaluate cx).after s).calm) ∧
    (∀ t, Moment cx s node t → t.interrupted = true →
      View.entries.ofState ((node.evaluate cx.calm).after s.calm) ≠ View.entries.ofState t →
        (node.evaluate cx).outcome s = .error .interrupted) ∧
    ∀ span before statement rest value t, node = .program span (before ++ statement :: rest) → s.HasRoom cx 1 →
      (evaluateStatements cx .undefined before).outcome (s.inside node) = .ok value →
      let reached := (evaluateStatements cx .undefined before).after (s.inside node)
      Moment cx reached statement t → t.interrupted = true →
      (node.evaluate cx).after s = ((statement.evaluate cx).after reached).leave ∧
        (∀ e, (statement.evaluate cx).outcome reached = .error e →
          (node.evaluate cx).outcome s = .error (e.locate span)) ∧
        ∀ value, (statement.evaluate cx).outcome reached = .ok value →
          (node.evaluate cx).outcome s = if rest = [] then .ok value else .error .interrupted := by
  refine ⟨fun t hm => hm.halts, ⟨Meets.of_outcome, ?_⟩, (goesOn_compositional cx).evaluate node s,
    fun t hm => hm.outcome_of_missing, ?_⟩
  · rintro ⟨inner, t, hmeets, hi⟩
    exact hmeets.outcome_of_interrupted hi
  · rintro span before statement rest value t rfl hroom hbefore reached hm hi
    exact evaluate_program_of_interrupting hroom hbefore hm hi

/-- A program of two declarations. The function that the first one calls asks for an interruption; its name is still bound,
and the second declaration is not entered. -/
theorem first_declaration_survives_interruption :
    let cx : Context := ⟨9, .ofCanned #[⟨"f", .interrupt, .ok .null⟩]⟩
    let s : State := ⟨⟨[⟨"f", .callable 0 ⟨"f", none, .host 0⟩, .var⟩], 0⟩, #[], false, 1, [], #[]⟩
    let call : Node := .call default (.identifier default "f") [] false
    let first : Node := .declaration default .const [.mk default (.identifier default "x") (some call)]
    let second : Node := .declaration default .const [.mk default (.identifier default "y") none]
    let script : Node := .program default [first, second]
    let inside := s.inside script
    let t := (first.evaluate cx).after inside
    s.HasRoom cx 1 ∧ Moment cx inside first t ∧ t.interrupted = true ∧
      (script.evaluate cx).outcome s = .error .interrupted ∧ (script.evaluate cx).after s = t.leave ∧
      ((script.evaluate cx).after s).environment.bindings.names = ["f", "x"] := by
  intro cx s call first second script inside t
  have hroom : s.HasRoom cx 1 := ⟨rfl, by decide⟩
  have hm : Moment cx inside first t := ⟨first, inside, .self, .after⟩
  have hi : t.interrupted = true := by rfl
  have hfirst : (first.evaluate cx).outcome inside = .ok .undefined := by rfl
  obtain ⟨-, -, -, -, hprogram⟩ := interruption_stops_at_nodes cx script s
  obtain ⟨hafter, -, hvalue⟩ := hprogram default [] first [second] .undefined t rfl hroom rfl hm hi
  have hnames : t.leave.environment.bindings.names = ["f", "x"] := by rfl
  refine ⟨hroom, hm, hi, hvalue .undefined hfirst, hafter, ?_⟩
  rw [hafter]
  exact hnames

end ScriptTree
