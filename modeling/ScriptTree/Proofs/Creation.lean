import ScriptTree.Proofs.Moments

/-!
# What brings identities into being

A run hands out identities to regular expressions and to nothing else: it hands out as many as it enters literals of regular
expressions (`creates_nodewise`). The record shows a literal before its value comes into being, so this is true of a literal
as a whole and not of each change on the way, as `Stepwise` would have it. `Nodewise` is the induction for such relations
between states. It gives them for every tree (`Nodewise.evaluate`), and for every state in which a part of a tree is met
(`Nodewise.meets`).
-/

namespace ScriptTree

/-! ## Literals of regular expressions -/

/-- The regular expression that a node is a literal of. -/
def Node.regex? : Node → Option Regex
  | .literal _ (.regex r) => some r
  | _ => none

/-- The regular expressions whose literals were entered, in order. -/
def View.regexes : View Regex := ⟨fun node _ => node.regex?.toList, fun _ => []⟩

section Literals

variable {cx : Context} {s : State}

/-- A literal that there is room for gives the next identity to its regular expression. -/
theorem evaluate_regex (hroom : s.HasRoom cx 1) (span : Span) (r : Regex) :
    ((Node.literal span (.regex r)).evaluate cx).outcome s = .ok (.regex s.nextIdentity r) ∧
      ((Node.literal span (.regex r)).evaluate cx).after s =
        { s.record (.entered (.literal span (.regex r)) (s.environment.depth + 1)) with
          nextIdentity := s.nextIdentity + 1 } :=
  ⟨hroom.outcome_evaluate _, hroom.after_evaluate _⟩

/-- A node that there is no room for has no value and leaves the state as it is. -/
theorem evaluate_of_no_room (h : ¬s.HasRoom cx 1) (node : Node) :
    (∃ e, (node.evaluate cx).outcome s = .error e) ∧ (node.evaluate cx).after s = s := by
  rw [Node.evaluate_eq]
  rcases entering_cases cx node (node.work cx) s with ⟨-, ho, ha⟩ | ⟨-, -, ho, ha⟩ | ⟨hi, hd, -, -⟩
  · exact ⟨⟨_, ho⟩, ha⟩
  · exact ⟨⟨_, ho⟩, ha⟩
  · exact absurd ⟨hi, hd⟩ h

/-- A node that has a value has room, and the value is that of its work. -/
theorem room_of_ok {node : Node} {v : Value} (h : (node.evaluate cx).outcome s = .ok v) :
    s.HasRoom cx 1 ∧ (node.work cx).outcome (s.inside node) = .ok v := by
  by_cases hroom : s.HasRoom cx 1
  · have ho := hroom.outcome_evaluate node
    rw [h] at ho
    cases hw : (node.work cx).outcome (s.inside node) with
    | ok w =>
      rw [hw] at ho
      cases ho
      exact ⟨hroom, rfl⟩
    | error e =>
      rw [hw] at ho
      cases ho
  · obtain ⟨⟨e, ho⟩, -⟩ := evaluate_of_no_room hroom node
    rw [ho] at h
    cases h

/-- A literal of a regular expression has a value exactly if there is room for it, and the value has the next identity. -/
theorem evaluate_regex_eq_ok_iff {span : Span} {r : Regex} {v : Value} :
    ((Node.literal span (.regex r)).evaluate cx).outcome s = .ok v ↔ s.HasRoom cx 1 ∧ v = .regex s.nextIdentity r := by
  constructor
  · intro h
    obtain ⟨hroom, -⟩ := room_of_ok h
    rw [(evaluate_regex hroom span r).1] at h
    cases h
    exact ⟨hroom, rfl⟩
  · rintro ⟨hroom, rfl⟩
    exact (evaluate_regex hroom span r).1

end Literals

/-! ## Relations around nodes -/

/-- A relation between states that holds around every literal of a regular expression as a whole, and around all other
changes of a run under a context: another node that is entered, a node that is left, a name that is bound or refused, a
call. -/
structure Nodewise (cx : Context) (r : State → State → Prop) : Prop where
  refl : ∀ s, r s s
  trans : ∀ {s t u}, r s t → r t u → r s u
  literal : ∀ {s : State} (span : Span) (regex : Regex), s.HasRoom cx 1 →
    r s (((Node.literal span (.regex regex)).evaluate cx).after s)
  inside : ∀ (s : State) {node : Node}, node.regex? = none → r s (s.inside node)
  leave : ∀ s : State, r s s.leave
  bound : ∀ {s : State} (b : Binding), s.environment.bindings.isConst b.name = false → r s (s.afterBound b)
  refused : ∀ {s : State} (b : Binding), s.environment.bindings.isConst b.name = true → r s (s.record (.refused b))
  call : ∀ (s : State) (site : Node) (f : Builtin) (arguments : List Value), f.checkArity arguments.length = .ok () →
    r s (s.afterCall site f arguments (f.reply cx.host s.calls arguments))

/-- What each change respects, and entering and leaving a node do too, holds around nodes. -/
theorem Stepwise.nodewise {cx : Context} {r : State → State → Prop} (h : Stepwise cx r)
    (hinside : ∀ (s : State) (node : Node), r s (s.inside node)) (hleave : ∀ s : State, r s s.leave) : Nodewise cx r where
  refl := h.refl
  trans := h.trans
  literal span regex _ := h.evaluate (.literal span (.regex regex)) _
  inside s node _ := hinside s node
  leave := hleave
  bound := h.bound
  refused := h.refused
  call := h.call

namespace Nodewise

variable {cx : Context} {r : State → State → Prop}

/-- Two runs in a row respect what holds around nodes. -/
theorem bind (h : Nodewise cx r) {α β : Type} {x : Run α} {f : α → Run β} (hx : x.Respects r) (hf : ∀ a, (f a).Respects r) :
    (x >>= f).Respects r := Run.Respects.bind (r := r) h.trans hx hf

/-- A run that leaves every state as it is. -/
theorem still (h : Nodewise cx r) {α : Type} {x : Run α} (hx : ∀ s, x.after s = s) : x.Respects r := by
  intro s
  rw [hx s]
  exact h.refl s

/-- An operation on values leaves the state as it is. -/
theorem ofOperation (h : Nodewise cx r) (result : Except OperationError Value) : (Run.ofOperation result).Respects r := by
  apply h.still
  intro s
  cases result <;> rfl

/-- Binding a name binds or refuses it. -/
theorem declare (h : Nodewise cx r) (d : Declarator) (name : String) (value : Value) (kind : DeclarationKind) :
    (d.bind name value kind).Respects r := by
  intro s
  rcases d.bind_cases name value kind s with ⟨hc, -, ha⟩ | ⟨hc, -, ha⟩
  · rw [ha]
    exact h.bound ⟨name, value, kind⟩ hc
  · rw [ha]
    exact h.refused ⟨name, value, kind⟩ hc

/-- A call is refused for its arity and leaves the state as it is, or is one of the changes. -/
theorem callFor (h : Nodewise cx r) (site : Node) (f : Builtin) (arguments : List Value) :
    (f.callFor cx site arguments).Respects r := by
  intro s
  rcases f.callFor_cases cx site arguments s with ⟨fault, -, -, ha⟩ | ⟨harity, -, ha⟩
  · rw [ha]
    exact h.refl s
  · rw [ha]
    exact h.call s site f arguments harity

/-- A node that is no literal of a regular expression respects what its work respects. -/
theorem of_work (h : Nodewise cx r) {node : Node} (hnode : node.regex? = none) (hwork : (node.work cx).Respects r) :
    (node.evaluate cx).Respects r := by
  intro s
  by_cases hroom : s.HasRoom cx 1
  · rw [hroom.after_evaluate]
    exact h.trans (h.trans (h.inside s hnode) (hwork (s.inside node))) (h.leave _)
  · rw [(evaluate_of_no_room hroom node).2]
    exact h.refl s

/-- A literal of a regular expression is one of the changes, if there is room for it. -/
theorem of_literal (h : Nodewise cx r) (span : Span) (regex : Regex) :
    ((Node.literal span (.regex regex)).evaluate cx).Respects r := by
  intro s
  by_cases hroom : s.HasRoom cx 1
  · exact h.literal span regex hroom
  · rw [(evaluate_of_no_room hroom _).2]
    exact h.refl s

mutual

/-- The evaluation of every node respects what holds around nodes. -/
theorem evaluate (h : Nodewise cx r) (node : Node) : (node.evaluate cx).Respects r := by
  match node with
  | .program span body => exact h.of_work rfl (h.statements .undefined body)
  | .expressionStatement span expression => exact h.of_work rfl (h.evaluate expression)
  | .binary span left operator right =>
    exact h.of_work rfl (h.bind (h.evaluate left) fun l => h.bind (h.evaluate right) fun r => h.ofOperation _)
  | .literal span (.regex regex) => exact h.of_literal span regex
  | .literal span (.string s) => exact h.of_work rfl (h.still fun _ => rfl)
  | .literal span (.number x) => exact h.of_work rfl (h.still fun _ => rfl)
  | .literal span (.boolean b) => exact h.of_work rfl (h.still fun _ => rfl)
  | .literal span .null => exact h.of_work rfl (h.still fun _ => rfl)
  | .literal span (.bigint b) => exact h.of_work rfl (h.still fun _ => rfl)
  | .call span callee arguments optional =>
    refine h.of_work rfl (h.bind (h.evaluate callee) ?_)
    intro value
    cases value with
    | callable identity f => exact h.bind (h.arguments arguments) fun values => h.callFor _ f values
    | _ => exact h.still fun _ => rfl
  | .member span object property computed optional =>
    refine h.of_work rfl (h.bind (h.evaluate object) ?_)
    intro base
    apply h.still
    intro s
    cases base.member property computed <;> rfl
  | .identifier span name => exact h.of_work rfl (h.still (after_lookUp name))
  | .declaration span kind declarators =>
    exact h.of_work rfl (h.bind (h.declarators kind declarators) fun _ => h.still fun _ => rfl)
  | .declarator d => exact h.of_work rfl (h.still fun _ => rfl)
  | .unsupported => exact h.of_work rfl (h.still fun _ => rfl)

/-- Statements in a row respect it. -/
theorem statements (h : Nodewise cx r) (last : Value) (body : List Node) : (evaluateStatements cx last body).Respects r := by
  match body with
  | [] =>
    rw [evaluateStatements]
    exact h.still fun _ => rfl
  | statement :: rest =>
    rw [evaluateStatements]
    exact h.bind (h.evaluate statement) fun value => h.statements value rest

theorem arguments (h : Nodewise cx r) (nodes : List Node) : (evaluateArguments cx nodes).Respects r := by
  match nodes with
  | [] =>
    rw [evaluateArguments]
    exact h.still fun _ => rfl
  | argument :: rest =>
    rw [evaluateArguments]
    exact h.bind (h.evaluate argument) fun _ => h.bind (h.arguments rest) fun _ => h.still fun _ => rfl

/-- A declarator respects it, whatever its target is. -/
theorem declarator (h : Nodewise cx r) (kind : DeclarationKind) (d : Declarator) : (d.evaluate cx kind).Respects r := by
  rw [Declarator.evaluate.eq_def]
  cases d.name with
  | error error => exact h.still fun _ => rfl
  | ok name =>
    match d with
    | .mk span target init => exact h.bind (h.init init) fun value => h.declare _ name value kind

/-- An initial value respects it, an absent one too. -/
theorem init (h : Nodewise cx r) (init : Option Node) : (evaluateInit cx init).Respects r := by
  match init with
  | none =>
    rw [evaluateInit]
    exact h.still fun _ => rfl
  | some node =>
    rw [evaluateInit]
    exact h.evaluate node

theorem declarators (h : Nodewise cx r) (kind : DeclarationKind) (ds : List Declarator) : (evaluateDeclarators cx kind ds).Respects r := by
  match ds with
  | [] =>
    rw [evaluateDeclarators]
    exact h.still fun _ => rfl
  | d :: rest =>
    rw [evaluateDeclarators]
    exact h.bind (h.declarator kind d) fun _ => h.declarators kind rest

end

end Nodewise

/-! ## Up to a part -/

section Parts

variable {cx : Context} {r : State → State → Prop} {s s' t : State} {node part inner : Node}

/-- What holds around nodes holds between the beginning of a node's work and a part that it reaches. -/
theorem Nodewise.reaches (h : Nodewise cx r) (hreach : Reaches cx s node part s') : r s s' := by
  cases hreach with
  | @statement span body before => exact h.statements .undefined before s
  | expression => exact h.refl s
  | left => exact h.refl s
  | @right span left => exact h.evaluate left s
  | callee => exact h.refl s
  | @argument span callee argument arguments before => exact h.trans (h.evaluate callee s) (h.arguments before _)
  | object => exact h.refl s
  | @init span kind declarators before => exact h.declarators kind before s

/-- What holds around nodes holds between the beginning of an evaluation and a node that it meets. -/
theorem Nodewise.meets (h : Nodewise cx r) (hmeets : Meets cx s node inner t) : r s t := by
  induction hmeets with
  | @self s node => exact h.refl s
  | @part s s' t node part inner hroom hreach _ ih =>
    have hnode : node.regex? = none := by
      cases hreach <;> rfl
    exact h.trans (h.trans (h.inside s hnode) (h.reaches hreach)) ih

end Parts

/-! ## As many identities as literals -/

/-- Between two states as many identities were handed out as literals of regular expressions were entered. -/
def Creates (s t : State) : Prop :=
  ∃ created, View.regexes.ofState t = View.regexes.ofState s ++ created ∧ t.nextIdentity = s.nextIdentity + created.length

/-- An event that shows no literal of a regular expression goes with no new identity. -/
theorem Creates.of_record {s t : State} {event : Event} (hevents : t.events = (s.record event).events)
    (hevent : View.regexes.ofEvent event = []) (hidentity : t.nextIdentity = s.nextIdentity) : Creates s t := by
  refine ⟨[], ?_, hidentity⟩
  have hview : View.regexes.ofState t = View.regexes.ofState (s.record event) := by
    unfold View.ofState
    rw [hevents]
  rw [hview, View.ofState_record, hevent]

/-- A run hands out an identity for each literal of a regular expression that it enters, and no other. -/
theorem creates_nodewise (cx : Context) : Nodewise cx Creates where
  refl s := ⟨[], (List.append_nil _).symm, rfl⟩
  trans := by
    rintro s t u ⟨created, hst, hn⟩ ⟨created', htu, hn'⟩
    refine ⟨created ++ created', by rw [htu, hst, List.append_assoc], ?_⟩
    rw [hn', hn, List.length_append, Nat.add_assoc]
  literal span regex hroom := by
    rw [(evaluate_regex hroom span regex).2]
    exact ⟨[regex], View.regexes.ofState_record _ _, rfl⟩
  inside s node hnode := .of_record rfl (by simp [View.ofEvent, View.regexes, hnode]) rfl
  leave s := ⟨[], (List.append_nil _).symm, rfl⟩
  bound b _ := .of_record rfl rfl rfl
  refused b _ := .of_record rfl rfl rfl
  call s site f arguments _ := by
    have hevents : (s.afterCall site f arguments (f.reply cx.host s.calls arguments)).events =
        (s.record (.calling site f.name arguments.length)).events := rfl
    exact .of_record hevents rfl rfl

end ScriptTree
