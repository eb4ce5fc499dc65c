import ScriptTree.Proofs.Composition

/-!
# The order of evaluation

The static walk of a tree goes from a node to its `Node.parts`, in order. Evaluation follows it, exactly once and no
further than it gets: `evaluation_follows_walk` says that the nodes that a run enters are a prefix of the pre-order of the
walk, each at its depth, that the calls whose body it starts are a prefix of the post-order of the walk's calls, and that a
run without an error has done all of both.

The two halves are one argument about a `View` of the record: what the view shows of a run is a prefix of what the actions
of the tree let expect.
-/

namespace ScriptTree

/-- The nodes that the work of a node evaluates, in order: never a declarator's target, never a member's property. -/
def Node.parts : Node → List Node
  | .program _ body => body
  | .expressionStatement _ expression => [expression]
  | .binary _ left _ right => [left, right]
  | .call _ callee arguments _ => callee :: arguments
  | .member _ object _ _ _ => [object]
  | .declaration _ _ declarators => declarators.filterMap Declarator.init
  | .literal .. | .identifier .. | .declarator _ | .unsupported => []

/-- A part is smaller than its node. -/
theorem Node.sizeOf_lt_of_mem_parts {part node : Node} (h : part ∈ node.parts) : sizeOf part < sizeOf node := by
  cases node <;> simp only [Node.parts, List.mem_cons, List.mem_filterMap, List.not_mem_nil, or_false] at h
  case program span body =>
    have := List.sizeOf_lt_of_mem h
    simp only [Node.program.sizeOf_spec]
    omega
  case expressionStatement => subst h; simp only [Node.expressionStatement.sizeOf_spec]; omega
  case binary => rcases h with rfl | rfl <;> simp only [Node.binary.sizeOf_spec] <;> omega
  case call span callee arguments optional =>
    simp only [Node.call.sizeOf_spec]
    rcases h with rfl | h
    · omega
    · have := List.sizeOf_lt_of_mem h
      omega
  case member => subst h; simp only [Node.member.sizeOf_spec]; omega
  case declaration span kind declarators =>
    obtain ⟨⟨span', target, init⟩, hd, rfl⟩ := h
    have := List.sizeOf_lt_of_mem hd
    simp only [Declarator.mk.sizeOf_spec, Option.some.sizeOf_spec, Node.declaration.sizeOf_spec] at this ⊢
    omega

/-- The walk of a node in pre-order: the node itself at the given depth, then its parts one deeper. -/
def Node.preorder (depth : Nat) (node : Node) : List (Node × Nat) :=
  (node, depth) :: node.parts.attach.flatMap fun part => part.1.preorder (depth + 1)
termination_by sizeOf node
decreasing_by exact Node.sizeOf_lt_of_mem_parts part.2

/-- The call that the work of a node ends with, if the node is one. -/
def Node.ownCall : Node → List Node
  | node@(.call ..) => [node]
  | _ => []

/-- The calls of the walk of a node in post-order: those in its parts, then the node itself if it is a call. -/
def Node.calls (node : Node) : List Node :=
  (node.parts.attach.flatMap fun part => part.1.calls) ++ node.ownCall
termination_by sizeOf node
decreasing_by exact Node.sizeOf_lt_of_mem_parts part.2

/-- A node comes before its parts, which lie one level deeper. -/
theorem Node.preorder_eq (depth : Nat) (node : Node) :
    node.preorder depth = (node, depth) :: node.parts.flatMap (Node.preorder (depth + 1)) := by
  rw [Node.preorder]
  simp

/-- The calls in the parts of a node come before its own. -/
theorem Node.calls_eq (node : Node) : node.calls = node.parts.flatMap Node.calls ++ node.ownCall := by
  rw [Node.calls]
  simp

/-! ## What the actions of a node let expect -/

/-- The sum of an action, when a node and a call are worth something and a name is not. -/
def Action.worth {β : Type} (visit call : Node → List β) : Action → List β
  | .visit node => visit node
  | .call site => call site
  | .read _ | .declare _ => []

/-- A declarator is worth what its initial value is. -/
theorem Declarator.flatMap_worth {β : Type} (visit call : Node → List β) (d : Declarator) :
    d.actions.flatMap (Action.worth visit call) = d.init.toList.flatMap visit := by
  obtain ⟨span, target, init⟩ := d
  cases target <;> simp [Declarator.actions, Declarator.init, Action.worth, List.flatMap_map]

/-- The actions of a node that count are its parts, and the call if it is one. -/
theorem Node.flatMap_worth {β : Type} (visit call : Node → List β) (node : Node) :
    node.actions.flatMap (Action.worth visit call) = node.parts.flatMap visit ++ node.ownCall.flatMap call := by
  cases node with
  | declaration span kind declarators =>
    simp only [Node.actions, Node.parts, Node.ownCall, List.flatMap_nil, List.append_nil]
    induction declarators with
    | nil => rfl
    | cons d rest ih =>
      rw [List.flatMap_cons, List.flatMap_append, ih, d.flatMap_worth]
      cases h : d.init <;> simp [h]
  | _ => simp [Node.actions, Node.parts, Node.ownCall, Action.worth, List.flatMap_map]

/-- The nodes that the work of a node enters are its parts. -/
theorem Node.mem_parts_of_visit {part node : Node} (h : .visit part ∈ node.actions) : part ∈ node.parts := by
  have hm : part ∈ node.actions.flatMap (Action.worth (fun n => [n]) fun _ => []) :=
    List.mem_flatMap.mpr ⟨_, h, List.mem_singleton_self part⟩
  rw [Node.flatMap_worth] at hm
  simpa using hm

/-- A call that the work of a node makes is the node itself. -/
theorem Node.mem_ownCall_of_call {site node : Node} (h : .call site ∈ node.actions) : site ∈ node.ownCall := by
  have hm : site ∈ node.actions.flatMap (Action.worth (fun _ => []) fun n => [n]) :=
    List.mem_flatMap.mpr ⟨_, h, List.mem_singleton_self site⟩
  rw [Node.flatMap_worth] at hm
  simpa using hm

/-! ## Views of the trace -/

/-- A view of the trace: what it shows of a node that is entered at a depth, and of a call whose body is started. -/
structure View (β : Type) where
  enter : Node → Nat → List β
  start : Node → List β

namespace View

variable {β : Type} (view : View β)

/-- What a view shows of an event. -/
def ofEvent : Event → List β
  | .entered node depth => view.enter node depth
  | .calling site _ _ => view.start site
  | .bound _ | .refused _ => []

/-- What a view shows of the trace of a state. -/
def ofState (s : State) : List β := s.events.toList.flatMap view.ofEvent

/-- A view of the record grows by what it shows of each event. -/
theorem ofState_record (s : State) (event : Event) : view.ofState (s.record event) = view.ofState s ++ view.ofEvent event := by
  simp [ofState, State.record]

/-- A walk that a view lets expect: of a node at a depth, what the view shows of its entry, then the walks of its parts one
deeper, then what the view shows of its call. -/
def Expects (walk : Nat → Node → List β) : Prop :=
  ∀ depth node, walk depth node =
    view.enter node depth ++ node.parts.flatMap (walk (depth + 1)) ++ node.ownCall.flatMap view.start

/-- A run that stands for some actions shows a prefix of their walks, and all of them unless it fails. -/
def Follows {α : Type} (walk : Nat → Node → List β) (actions : List Action) (x : Run α) : Prop :=
  ∀ s, ∃ shown, view.ofState (x.after s) = view.ofState s ++ shown ∧
    shown <+: actions.flatMap (Action.worth (walk (s.environment.depth + 1)) view.start) ∧
    ∀ a, x.outcome s = .ok a → shown = actions.flatMap (Action.worth (walk (s.environment.depth + 1)) view.start)

variable {view} {walk : Nat → Node → List β}

/-- Evaluation follows the walk that a view lets expect. -/
theorem Expects.compositional (hw : view.Expects walk) (cx : Context) :
    Compositional cx cx fun _ actions x _ => view.Follows walk actions x where
  pure a s := ⟨[], by simp, List.nil_prefix, fun _ _ => rfl⟩
  fault actions f span s := ⟨[], by simp, List.nil_prefix, nofun⟩
  bind := by
    intro α β p q x _ f _ hd hx hf s
    obtain ⟨shown, hs, hpre, hall⟩ := hx s
    rw [List.flatMap_append]
    cases h : x.outcome s with
    | error e =>
      rw [Run.after_bind_error h, Run.outcome_bind_error h]
      exact ⟨shown, hs, hpre.trans (List.prefix_append _ _), nofun⟩
    | ok a =>
      obtain ⟨shown', hs', hpre', hall'⟩ := hf a (x.after s)
      rw [show (x.after s).environment.depth = s.environment.depth from hd s] at hpre' hall'
      rw [Run.after_bind_ok h, Run.outcome_bind_ok h, ← hall a h]
      refine ⟨shown ++ shown', by rw [hs', hs, List.append_assoc], ?_, ?_⟩
      · exact (List.prefix_append_right_inj shown).mpr hpre'
      · intro b hb
        rw [hall' b hb]
  entering := by
    intro node work _ hx s
    obtain ⟨shown, hs, hpre, hall⟩ := hx (s.inside node)
    have hwalk : List.flatMap (Action.worth (walk (s.environment.depth + 1)) view.start) [.visit node] =
        view.enter node (s.environment.depth + 1) ++
          node.actions.flatMap (Action.worth (walk (s.environment.depth + 1 + 1)) view.start) := by
      rw [List.flatMap_singleton, Action.worth, hw, Node.flatMap_worth, List.append_assoc]
    rcases entering_cases cx node work s with ⟨-, ho, ha⟩ | ⟨-, -, ho, ha⟩ | ⟨-, -, ho, ha⟩
    · exact ⟨[], by rw [ha, List.append_nil], List.nil_prefix, by rw [ho]; exact nofun⟩
    · exact ⟨[], by rw [ha, List.append_nil], List.nil_prefix, by rw [ho]; exact nofun⟩
    · have hin : view.ofState (s.inside node) = view.ofState s ++ view.enter node (s.environment.depth + 1) :=
        view.ofState_record _ _
      rw [ha, ho, hwalk]
      refine ⟨view.enter node (s.environment.depth + 1) ++ shown, ?_, ?_, ?_⟩
      · rw [← List.append_assoc, ← hin]
        exact hs
      · exact (List.prefix_append_right_inj _).mpr hpre
      · intro a h
        cases hi : work.outcome (s.inside node) with
        | ok b => exact congrArg _ (hall b hi)
        | error e => rw [hi] at h; cases h
  fresh s := ⟨[], by rw [List.append_nil]; rfl, List.nil_prefix, fun _ _ => rfl⟩
  lookUp name s := ⟨[], by rw [after_lookUp, List.append_nil], List.nil_prefix, fun _ _ => rfl⟩
  declare d name value kind s := by
    refine ⟨[], ?_, List.nil_prefix, fun _ _ => rfl⟩
    rcases d.bind_cases name value kind s with ⟨-, -, ha⟩ | ⟨-, -, ha⟩
    · rw [ha]
      exact view.ofState_record _ _
    · rw [ha]
      exact view.ofState_record _ _
  call site f arguments s := by
    have hcall : List.flatMap (Action.worth (walk (s.environment.depth + 1)) view.start) [.call site] = view.start site :=
      List.flatMap_singleton _ _
    rw [hcall]
    rcases f.callFor_cases cx site arguments s with ⟨_, -, ho, ha⟩ | ⟨-, ho, ha⟩
    · exact ⟨[], by rw [ha, List.append_nil], List.nil_prefix, by rw [ho]; exact nofun⟩
    · exact ⟨view.start site, by rw [ha]; exact view.ofState_record _ _, List.prefix_refl _, fun _ _ => rfl⟩

/-- The evaluation of a node follows the walk that a view lets expect. -/
theorem Expects.evaluate (hw : view.Expects walk) (cx : Context) (node : Node) (s : State) :
    ∃ shown, view.ofState ((node.evaluate cx).after s) = view.ofState s ++ shown ∧
      shown <+: walk (s.environment.depth + 1) node ∧
      ∀ value, (node.evaluate cx).outcome s = .ok value → shown = walk (s.environment.depth + 1) node := by
  have h := (hw.compositional cx).evaluate node s
  rwa [List.flatMap_singleton] at h

end View

/-! ## The two orders -/

/-- The nodes that were entered, with their depths. -/
def View.entries : View (Node × Nat) := ⟨fun node depth => [(node, depth)], fun _ => []⟩

/-- The calls whose bodies were started. -/
def View.starts : View Node := ⟨fun _ _ => [], fun site => [site]⟩

/-- The nodes that are entered are those of the walk, in its order. -/
theorem View.entries_expects : View.entries.Expects Node.preorder := by
  intro depth node
  rw [Node.preorder_eq, View.entries, List.flatMap_eq_nil_iff.mpr fun _ _ => rfl, List.append_nil]
  rfl

/-- The calls that start are those of the walk, in its order. -/
theorem View.starts_expects : View.starts.Expects fun _ => Node.calls := by
  intro depth node
  show node.calls = [] ++ node.parts.flatMap Node.calls ++ node.ownCall.flatMap fun site => [site]
  rw [Node.calls_eq]
  simp

/-- Evaluation enters the nodes of the walk in pre-order, each at its depth, and starts the bodies of the calls of the walk
in post-order. Whatever the builtins do and wherever the run ends, it has done a first part of both; a run that gives a
value has done all of both, and each once. -/
theorem evaluation_follows_walk (cx : Context) (node : Node) (s : State) :
    ∃ entered started,
      View.entries.ofState ((node.evaluate cx).after s) = View.entries.ofState s ++ entered ∧
      View.starts.ofState ((node.evaluate cx).after s) = View.starts.ofState s ++ started ∧
      entered <+: node.preorder (s.environment.depth + 1) ∧
      started <+: node.calls ∧
      ∀ value, (node.evaluate cx).outcome s = .ok value →
        entered = node.preorder (s.environment.depth + 1) ∧ started = node.calls := by
  obtain ⟨entered, he, hepre, heall⟩ := View.entries_expects.evaluate cx node s
  obtain ⟨started, hs, hspre, hsall⟩ := View.starts_expects.evaluate cx node s
  exact ⟨entered, started, he, hs, hepre, hspre, fun value h => ⟨heall value h, hsall value h⟩⟩

end ScriptTree
