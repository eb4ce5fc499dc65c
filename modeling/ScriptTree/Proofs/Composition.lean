import ScriptTree.Proofs.Run

/-!
# Properties that evaluation inherits from its building blocks

An evaluation is put together from a few building blocks: faults, names that are read and bound, regular expressions that
come into being, calls, and nodes that are entered around the rest. `Compositional` says that a relation between runs under
two contexts holds of the building blocks and survives putting runs together; `Compositional.evaluate` then gives it for
every tree. A property of single runs is the case of two equal contexts, and a relation between the state before a run and
the state after it is the case `Stepwise`.

The relation may depend on what a run does for the tree to see: the `Action`s of a node are the nodes that its work enters,
the names that it reads and binds and the call that it makes, in this order. A run that fails has done a part of them.
-/

namespace ScriptTree

/-- A step in the work of a node: a node that is entered, a name that is read or bound, a call that is made. -/
inductive Action where
  | visit (node : Node)
  | read (name : String)
  | declare (name : String)
  | call (site : Node)

/-- What evaluating a declarator consists of, in order. A target that is not a plain identifier is never bound. -/
def Declarator.actions : Declarator → List Action
  | .mk _ (.identifier _ name) init => init.toList.map .visit ++ [.declare name]
  | .mk _ _ init => init.toList.map .visit

/-- What the work of a node consists of, in order. -/
def Node.actions : Node → List Action
  | .program _ body => body.map .visit
  | .expressionStatement _ expression => [.visit expression]
  | .binary _ left _ right => [.visit left, .visit right]
  | .literal .. => []
  | node@(.call _ callee arguments _) => .visit callee :: (arguments.map .visit ++ [.call node])
  | .member _ object _ _ _ => [.visit object]
  | .identifier _ name => [.read name]
  | .declaration _ _ declarators => declarators.flatMap Declarator.actions
  | .declarator _ => []
  | .unsupported => []

/-- A run respects a relation between states if it leads from every state to a related one. -/
def Run.Respects {α : Type} (r : State → State → Prop) (x : Run α) : Prop := ∀ s, r s (x.after s)

/-- Two states at the same depth. -/
def SameDepth (s t : State) : Prop := t.environment.depth = s.environment.depth

/-- A relation between runs under two contexts, along the actions they stand for, that every building block of an
evaluation satisfies and that survives putting runs together. A fault may come in place of any actions. Every run that is
put before another leaves as many nodes as it enters. -/
structure Compositional (cx cx' : Context) (R : (α : Type) → List Action → Run α → Run α → Prop) : Prop where
  pure : ∀ {α : Type} (a : α), R α [] (Pure.pure a) (Pure.pure a)
  fault : ∀ {α : Type} (actions : List Action) (f : Fault) (span : Option Span),
    R α actions (throw (.fault f span)) (throw (.fault f span))
  bind : ∀ {α β : Type} {p q : List Action} {x x' : Run α} {f f' : α → Run β}, x.Respects SameDepth → R α p x x' →
    (∀ a, R β q (f a) (f' a)) → R β (p ++ q) (x >>= f) (x' >>= f')
  entering : ∀ (node : Node) {work work' : Run Value}, R Value node.actions work work' →
    R Value [.visit node] (entering cx node work) (entering cx' node work')
  fresh : R Identity [] freshIdentity freshIdentity
  lookUp : ∀ name : String, R Value [.read name] (lookUp name) (lookUp name)
  declare : ∀ (d : Declarator) (name : String) (value : Value) (kind : DeclarationKind),
    R Unit [.declare name] (d.bind name value kind) (d.bind name value kind)
  call : ∀ (site : Node) (f : Builtin) (arguments : List Value),
    R Value [.call site] (f.callFor cx site arguments) (f.callFor cx' site arguments)

/-- A target that is not bound is refused with a fault. -/
theorem Declarator.name_error {d : Declarator} {e : EvalError} (h : d.name = .error e) : ∃ f span, e = .fault f span := by
  unfold Declarator.name at h
  split at h
  · cases h
  · cases h
    exact ⟨_, _, rfl⟩

/-- The actions of a declarator whose target can be bound. -/
theorem Declarator.actions_of_name {span : Span} {target : Node} {init : Option Node} {name : String}
    (h : (Declarator.mk span target init).name = .ok name) :
    (Declarator.mk span target init).actions = init.toList.map .visit ++ [.declare name] := by
  cases target <;> simp_all [Declarator.name, Declarator.target, Declarator.actions]

/-- A compositional relation between runs that leave as many nodes as they enter. -/
structure Balanced (cx cx' : Context) (R : (α : Type) → List Action → Run α → Run α → Prop) : Prop
    extends Compositional cx cx' R where
  sameDepth : ∀ {α : Type} {p : List Action} {x x' : Run α}, R α p x x' → x.Respects SameDepth

namespace Balanced

variable {cx cx' : Context} {R : (α : Type) → List Action → Run α → Run α → Prop}

/-- Runs in a row, of which the relation itself says that they leave as many nodes as they enter. -/
theorem seq (h : Balanced cx cx' R) {α β : Type} {p q : List Action} {x x' : Run α} {f f' : α → Run β}
    (hx : R α p x x') (hf : ∀ a, R β q (f a) (f' a)) : R β (p ++ q) (x >>= f) (x' >>= f') :=
  h.bind (h.sameDepth hx) hx hf

/-- An operation on values is a value or a fault, without any action. -/
theorem ofOperation (h : Balanced cx cx' R) (result : Except OperationError Value) :
    R Value [] (Run.ofOperation result) (Run.ofOperation result) := by
  cases result with
  | ok value => exact h.pure value
  | error error => exact h.fault [] _ none

/-- A literal has its value at once, or hands out an identity to its regular expression. -/
theorem literal (h : Balanced cx cx' R) (value : LiteralValue) : R Value [] value.evaluate value.evaluate := by
  cases value with
  | regex r => exact h.seq h.fresh fun identity => h.pure _
  | _ => exact h.pure _

/-- What was looked up among properties is a value or a fault, without any action. -/
theorem member (h : Balanced cx cx' R) (result : Except Fault Value) :
    R Value []
      (match result with
        | .ok value => Pure.pure value
        | .error fault => Run.fault fault)
      (match result with
        | .ok value => Pure.pure value
        | .error fault => Run.fault fault) := by
  cases result with
  | ok value => exact h.pure value
  | error fault => exact h.fault [] fault none

/-- A node is entered around its work. -/
theorem evaluate_of_work (h : Balanced cx cx' R) {node : Node}
    (hwork : R Value node.actions (node.work cx) (node.work cx')) :
    R Value [.visit node] (node.evaluate cx) (node.evaluate cx') := by
  rw [Node.evaluate_eq, Node.evaluate_eq]
  exact h.entering node hwork

mutual

/-- The work of a node follows its actions, one case for each kind of node. -/
theorem work (h : Balanced cx cx' R) (node : Node) : R Value node.actions (node.work cx) (node.work cx') := by
  match node with
  | .program span body => exact h.statements .undefined body
  | .expressionStatement span expression => exact h.evaluate_of_work (h.work expression)
  | .binary span left operator right =>
    exact h.seq (h.evaluate_of_work (h.work left)) fun l =>
      h.seq (q := []) (h.evaluate_of_work (h.work right)) fun r => h.ofOperation (operator.apply l r)
  | .literal span value => exact h.literal value
  | .call span callee arguments optional =>
    refine h.seq (p := [.visit callee]) (h.evaluate_of_work (h.work callee)) fun value => ?_
    cases value with
    | callable identity f => exact h.seq (h.arguments arguments) fun values => h.call _ f values
    | _ => exact h.fault _ _ _
  | .member span object property computed optional =>
    exact h.seq (q := []) (h.evaluate_of_work (h.work object)) fun base => h.member (base.member property computed)
  | .identifier span name => exact h.lookUp name
  | .declaration span kind declarators =>
    have hd := h.seq (q := []) (h.declarators kind declarators) fun _ => h.pure Value.undefined
    rwa [List.append_nil] at hd
  | .declarator d => exact h.fault _ _ none
  | .unsupported => exact h.fault _ _ none

/-- Statements in a row visit each of them; the value of the last one is passed on. -/
theorem statements (h : Balanced cx cx' R) (last : Value) :
    ∀ body : List Node, R Value (body.map .visit) (evaluateStatements cx last body) (evaluateStatements cx' last body)
  | [] => by
    simp only [evaluateStatements]
    exact h.pure last
  | statement :: rest => by
    simp only [evaluateStatements]
    exact h.seq (p := [.visit statement]) (h.evaluate_of_work (h.work statement)) fun value => h.statements value rest

/-- Arguments in a row visit each of them; their values are collected. -/
theorem arguments (h : Balanced cx cx' R) :
    ∀ nodes : List Node, R (List Value) (nodes.map .visit) (evaluateArguments cx nodes) (evaluateArguments cx' nodes)
  | [] => by
    simp only [evaluateArguments]
    exact h.pure []
  | argument :: rest => by
    simp only [evaluateArguments]
    refine h.seq (p := [.visit argument]) (h.evaluate_of_work (h.work argument)) fun value => ?_
    have hr := h.seq (q := []) (h.arguments rest) fun values => h.pure (value :: values)
    rwa [List.append_nil] at hr

/-- A declarator visits its initial value and then binds its name, or is refused for its target. -/
theorem declarator (h : Balanced cx cx' R) (kind : DeclarationKind) (d : Declarator) :
    R Unit d.actions (d.evaluate cx kind) (d.evaluate cx' kind) := by
  rw [Declarator.evaluate.eq_def cx, Declarator.evaluate.eq_def cx']
  cases hn : d.name with
  | error error =>
    obtain ⟨f, span, rfl⟩ := d.name_error hn
    exact h.fault _ f span
  | ok name =>
    match d with
    | .mk span target init =>
      rw [Declarator.actions_of_name hn]
      exact h.seq (h.init init) fun value => h.declare _ name value kind

/-- An initial value is visited, an absent one is `undefined`. -/
theorem init (h : Balanced cx cx' R) :
    ∀ init : Option Node, R Value (init.toList.map .visit) (evaluateInit cx init) (evaluateInit cx' init)
  | none => by
    simp only [evaluateInit]
    exact h.pure Value.undefined
  | some node => by
    simp only [evaluateInit]
    exact h.evaluate_of_work (h.work node)

theorem declarators (h : Balanced cx cx' R) (kind : DeclarationKind) :
    ∀ ds : List Declarator,
      R Unit (ds.flatMap Declarator.actions) (evaluateDeclarators cx kind ds) (evaluateDeclarators cx' kind ds)
  | [] => by
    simp only [evaluateDeclarators]
    exact h.pure ()
  | d :: rest => by
    simp only [evaluateDeclarators, List.flatMap_cons]
    exact h.seq (h.declarator kind d) fun _ => h.declarators kind rest

end

/-- The evaluation of a node is a visit of it. -/
theorem evaluate (h : Balanced cx cx' R) (node : Node) :
    R Value [.visit node] (node.evaluate cx) (node.evaluate cx') := h.evaluate_of_work (h.work node)

end Balanced

/-- Every building block leaves as many nodes as it enters, so that much can be added to a compositional relation. -/
theorem Compositional.balanced {cx cx' : Context} {R : (α : Type) → List Action → Run α → Run α → Prop}
    (h : Compositional cx cx' R) : Balanced cx cx' fun α p x x' => R α p x x' ∧ x.Respects SameDepth where
  pure a := ⟨h.pure a, fun _ => rfl⟩
  fault actions f span := ⟨h.fault actions f span, fun _ => rfl⟩
  bind := by
    intro α β p q x x' f f' hd hx hf
    refine ⟨h.bind hd hx.1 fun a => (hf a).1, fun s => ?_⟩
    cases ho : x.outcome s with
    | ok a =>
      rw [Run.after_bind_ok ho]
      exact ((hf a).2 _).trans (hd s)
    | error e =>
      rw [Run.after_bind_error ho]
      exact hd s
  entering := by
    intro node work work' hw
    refine ⟨h.entering node hw.1, fun s => ?_⟩
    rcases entering_cases cx node work s with ⟨-, -, ha⟩ | ⟨-, -, -, ha⟩ | ⟨-, -, -, ha⟩
    · rw [ha]
      rfl
    · rw [ha]
      rfl
    · have hi : (work.after (s.inside node)).environment.depth = s.environment.depth + 1 := hw.2 (s.inside node)
      rw [ha]
      show (work.after (s.inside node)).environment.depth - 1 = s.environment.depth
      omega
  fresh := ⟨h.fresh, fun _ => rfl⟩
  lookUp name := ⟨h.lookUp name, fun s => by rw [after_lookUp]; rfl⟩
  declare d name value kind := by
    refine ⟨h.declare d name value kind, fun s => ?_⟩
    rcases d.bind_cases name value kind s with ⟨-, -, ha⟩ | ⟨-, -, ha⟩
    · rw [ha]
      rfl
    · rw [ha]
      rfl
  call site f arguments := by
    refine ⟨h.call site f arguments, fun s => ?_⟩
    rcases f.callFor_cases cx site arguments s with ⟨_, -, -, ha⟩ | ⟨-, -, ha⟩
    · rw [ha]
      rfl
    · rw [ha]
      rfl
  sameDepth hx := hx.2

/-- A compositional relation holds of the evaluation of every node. -/
theorem Compositional.evaluate {cx cx' : Context} {R : (α : Type) → List Action → Run α → Run α → Prop}
    (h : Compositional cx cx' R) (node : Node) : R Value [.visit node] (node.evaluate cx) (node.evaluate cx') :=
  (h.balanced.evaluate node).1

/-- The evaluation of a node leaves as many nodes as it enters. -/
theorem sameDepth_evaluate (cx : Context) (node : Node) : (node.evaluate cx).Respects SameDepth := by
  have h : Compositional cx cx fun _ _ _ _ => True :=
    ⟨fun _ => trivial, fun _ _ _ => trivial, fun _ _ _ => trivial, fun _ _ _ _ => trivial, trivial, fun _ => trivial,
      fun _ _ _ _ => trivial, fun _ _ _ => trivial⟩
  exact (h.balanced.evaluate node).2

/-! ## What a run does to the state -/

/-- A relation between states that every change of a run under a context respects: nothing happens, one change after
another, a node around a run, a new identity, a name that is bound or refused, a call. -/
structure Stepwise (cx : Context) (r : State → State → Prop) : Prop where
  refl : ∀ s, r s s
  trans : ∀ {s t u}, r s t → r t u → r s u
  node : ∀ {s t} (node : Node), s.interrupted = false → s.environment.depth < cx.maxDepth → r (s.inside node) t →
    r s t.leave
  fresh : ∀ s : State, r s { s with nextIdentity := s.nextIdentity + 1 }
  bound : ∀ {s : State} (b : Binding), s.environment.bindings.isConst b.name = false → r s (s.afterBound b)
  refused : ∀ {s : State} (b : Binding), s.environment.bindings.isConst b.name = true → r s (s.record (.refused b))
  call : ∀ (s : State) (site : Node) (f : Builtin) (arguments : List Value), f.checkArity arguments.length = .ok () →
    r s (s.afterCall site f arguments (f.reply cx.host s.calls arguments))

namespace Run.Respects

variable {r : State → State → Prop}

/-- What holds before and after each of two runs holds before and after both in a row. -/
theorem bind (htrans : ∀ {s t u}, r s t → r t u → r s u) {α β : Type} {x : Run α} {f : α → Run β} (hx : x.Respects r)
    (hf : ∀ a, (f a).Respects r) : (x >>= f).Respects r := by
  intro s
  cases ho : x.outcome s with
  | ok a =>
    rw [Run.after_bind_ok ho]
    exact htrans (hx s) (hf a _)
  | error e =>
    rw [Run.after_bind_error ho]
    exact hx s

/-- What holds around the work of a node, entered and left again, holds around the node. -/
theorem entering {cx : Context} (hrefl : ∀ s, r s s)
    (hnode : ∀ {s t} (node : Node), s.interrupted = false → s.environment.depth < cx.maxDepth → r (s.inside node) t →
      r s t.leave)
    (node : Node) {work : Run Value} (hw : work.Respects r) : (ScriptTree.entering cx node work).Respects r := by
  intro s
  rcases entering_cases cx node work s with ⟨-, -, ha⟩ | ⟨-, -, -, ha⟩ | ⟨hi, hd, -, ha⟩
  · rw [ha]
    exact hrefl s
  · rw [ha]
    exact hrefl s
  · rw [ha]
    exact hnode node hi hd (hw (s.inside node))

end Run.Respects

namespace Stepwise

variable {cx : Context} {r : State → State → Prop}

/-- Two runs in a row respect what every change respects. -/
theorem bind (h : Stepwise cx r) {α β : Type} {x : Run α} {f : α → Run β} (hx : x.Respects r)
    (hf : ∀ a, (f a).Respects r) : (x >>= f).Respects r := Run.Respects.bind (r := r) h.trans hx hf

/-- A node around a run respects it, too. -/
theorem entering (h : Stepwise cx r) (node : Node) {work : Run Value} (hw : work.Respects r) :
    (ScriptTree.entering cx node work).Respects r := .entering h.refl h.node node hw

/-- What each change respects, every run that evaluation is made of respects. -/
theorem compositional (h : Stepwise cx r) : Compositional cx cx fun _ _ x _ => x.Respects r where
  pure _ s := h.refl s
  fault _ _ _ s := h.refl s
  bind _ hx hf := h.bind hx hf
  entering node _ _ hw := h.entering node hw
  fresh s := h.fresh s
  lookUp name s := by
    rw [after_lookUp]
    exact h.refl s
  declare d name value kind s := by
    rcases d.bind_cases name value kind s with ⟨hc, -, ha⟩ | ⟨hc, -, ha⟩
    · rw [ha]
      exact h.bound ⟨name, value, kind⟩ hc
    · rw [ha]
      exact h.refused ⟨name, value, kind⟩ hc
  call site f arguments s := by
    rcases f.callFor_cases cx site arguments s with ⟨_, -, -, ha⟩ | ⟨hok, -, ha⟩
    · rw [ha]
      exact h.refl s
    · rw [ha]
      exact h.call s site f arguments hok

/-- What each change respects, the evaluation of every node respects. -/
theorem evaluate (h : Stepwise cx r) (node : Node) : (node.evaluate cx).Respects r := h.compositional.evaluate node

end Stepwise

/-- A relation between states that every change of a run under a context respects, as long as the names that it binds and
the calls that it makes are allowed. What is allowed of a node is allowed of what its work consists of. -/
structure StepwiseFor (cx : Context) (allowed : Action → Prop) (r : State → State → Prop) : Prop where
  actions : ∀ {node action}, allowed (.visit node) → action ∈ node.actions → allowed action
  refl : ∀ s, r s s
  trans : ∀ {s t u}, r s t → r t u → r s u
  node : ∀ {s t} (node : Node), r (s.inside node) t → r s t.leave
  fresh : ∀ s : State, r s { s with nextIdentity := s.nextIdentity + 1 }
  bound : ∀ (s : State) (b : Binding), allowed (.declare b.name) → r s (s.afterBound b)
  refused : ∀ (s : State) (b : Binding), r s (s.record (.refused b))
  call : ∀ (s : State) (site : Node) (f : Builtin) (arguments : List Value) (reply : Reply), allowed (.call site) →
    r s (s.afterCall site f arguments reply)

namespace StepwiseFor

variable {cx : Context} {allowed : Action → Prop} {r : State → State → Prop}

/-- What each allowed change respects, every run respects whose actions are all allowed. -/
theorem compositional (h : StepwiseFor cx allowed r) :
    Compositional cx cx fun _ actions x _ => (∀ action ∈ actions, allowed action) → x.Respects r where
  pure _ _ s := h.refl s
  fault _ _ _ _ s := h.refl s
  bind _ hx hf hallowed :=
    Run.Respects.bind (r := r) h.trans (hx fun a ha => hallowed a (List.mem_append_left _ ha)) fun v =>
      hf v fun a ha => hallowed a (List.mem_append_right _ ha)
  entering node _ _ hw hallowed :=
    .entering h.refl (fun node _ _ => h.node node) node (hw fun _ ha => h.actions (hallowed _ (List.mem_singleton_self _)) ha)
  fresh _ s := h.fresh s
  lookUp name _ s := by
    rw [after_lookUp]
    exact h.refl s
  declare d name value kind hallowed s := by
    rcases d.bind_cases name value kind s with ⟨-, -, ha⟩ | ⟨-, -, ha⟩
    · rw [ha]
      exact h.bound s ⟨name, value, kind⟩ (hallowed _ (List.mem_singleton_self _))
    · rw [ha]
      exact h.refused s ⟨name, value, kind⟩
  call site f arguments hallowed s := by
    rcases f.callFor_cases cx site arguments s with ⟨_, -, -, ha⟩ | ⟨-, -, ha⟩
    · rw [ha]
      exact h.refl s
    · rw [ha]
      exact h.call s site f arguments _ (hallowed _ (List.mem_singleton_self _))

/-- What each allowed change respects, the evaluation of every node respects of which nothing else is allowed. -/
theorem evaluate (h : StepwiseFor cx allowed r) {node : Node} (hnode : allowed (.visit node)) :
    (node.evaluate cx).Respects r :=
  h.compositional.evaluate node fun _ ha => List.mem_singleton.mp ha ▸ hnode

end StepwiseFor

/-- The lines of a state are the first lines of another. -/
def WritesOn (s t : State) : Prop := s.lines.toList <+: t.lines.toList

/-- A run only adds lines to those that were written before. -/
theorem writesOn_stepwise (cx : Context) : Stepwise cx WritesOn where
  refl _ := List.prefix_refl _
  trans h h' := List.IsPrefix.trans h h'
  node _ _ _ h := h
  fresh _ := List.prefix_refl _
  bound _ _ := List.prefix_refl _
  refused _ _ := List.prefix_refl _
  call s site f arguments _ := by simp [WritesOn, State.afterCall, State.receive, State.record]

end ScriptTree
