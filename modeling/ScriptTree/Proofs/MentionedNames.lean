import ScriptTree.Proofs.Renaming
import ScriptTree.Proofs.Walk

/-!
# The names that a script mentions

A run depends on no binding but those of the names that its tree reads or declares, and changes none but those that the tree
declares. `only_mentioned_names_matter` compares two runs that start from environments which agree on the mentioned names: they
are the same, but for the identities that come into being in them. A tree without a call writes nothing.
-/

namespace ScriptTree

/-! ## Names in the walk of a node -/

/-- The nodes of the walk of a node. -/
def Node.walk (node : Node) : List Node := (node.preorder 0).map Prod.fst

/-- The depth from which the walk is counted does not change its nodes. -/
theorem Node.map_fst_preorder (depth : Nat) (node : Node) : (node.preorder depth).map Prod.fst = node.walk := by
  induction hsize : sizeOf node using Nat.strongRecOn generalizing node depth with
  | ind size ih =>
    subst hsize
    have hpart (d : Nat) (part : Node) (hp : part ∈ node.parts) : (part.preorder d).map Prod.fst = part.walk :=
      ih _ (Node.sizeOf_lt_of_mem_parts hp) d part rfl
    rw [walk, node.preorder_eq, node.preorder_eq, List.map_cons, List.map_cons, List.map_flatMap, List.map_flatMap,
      List.flatMap_congr (hpart (depth + 1)), List.flatMap_congr (hpart (0 + 1))]

/-- A walk begins with the node itself and goes on with the walks of its parts. -/
theorem Node.walk_eq (node : Node) : node.walk = node :: node.parts.flatMap Node.walk := by
  rw [walk, node.preorder_eq, List.map_cons, List.map_flatMap, List.flatMap_congr fun part _ => part.map_fst_preorder (0 + 1)]

/-- The name that a node reads: that of an identifier. -/
def Node.ownReads : Node → List String
  | .identifier _ name => [name]
  | _ => []

/-- The names that a node declares: the targets of a declaration that are plain identifiers. -/
def Node.ownTargets : Node → List String
  | .declaration _ _ declarators => declarators.filterMap fun d => d.name.toOption
  | _ => []

/-- The names that are read in the walk of a node. -/
def Node.reads (node : Node) : List String := node.walk.flatMap Node.ownReads

/-- The names that are declared in the walk of a node. -/
def Node.targets (node : Node) : List String := node.walk.flatMap Node.ownTargets

/-- The names that are read or declared in the walk of a node. -/
def Node.mentions (node : Node) : List String := node.reads ++ node.targets

/-! ## Names and calls of an action -/

namespace Action

/-- The names that are read in the course of an action. -/
def reads : Action → List String
  | .visit node => node.reads
  | .read name => [name]
  | .declare _ | .call _ => []

/-- The names that are declared in the course of an action. -/
def targets : Action → List String
  | .visit node => node.targets
  | .declare name => [name]
  | .read _ | .call _ => []

/-- The calls that are made in the course of an action. -/
def calls : Action → List Node
  | .visit node => node.calls
  | .call site => [site]
  | .read _ | .declare _ => []

end Action

/-- A declarator visits nodes and binds the name that it has. -/
theorem Declarator.mem_actions {d : Declarator} {action : Action} (h : action ∈ d.actions) :
    (∃ node, action = .visit node) ∨ ∃ name, action = .declare name ∧ d.name = .ok name := by
  obtain ⟨span, target, init⟩ := d
  cases target with
  | identifier s name =>
    rw [Declarator.actions, List.mem_append, List.mem_map, List.mem_singleton] at h
    rcases h with ⟨node, -, rfl⟩ | rfl
    · exact Or.inl ⟨node, rfl⟩
    · exact Or.inr ⟨name, rfl, rfl⟩
  | _ =>
    obtain ⟨node, -, rfl⟩ := List.mem_map.mp h
    exact Or.inl ⟨node, rfl⟩

namespace Node

variable {node : Node} {name : String} {action : Action}

/-- A name that the work of a node reads is read by the node itself. -/
theorem mem_ownReads_of_read (h : .read name ∈ node.actions) : name ∈ node.ownReads := by
  cases node with
  | identifier span other => simpa [actions, ownReads] using h
  | declaration span kind declarators =>
    obtain ⟨d, -, hd⟩ := List.mem_flatMap.mp h
    rcases Declarator.mem_actions hd with ⟨part, hpart⟩ | ⟨target, htarget, -⟩
    · cases hpart
    · cases htarget
  | _ => simp [actions] at h

/-- A name that it binds is declared by the node itself. -/
theorem mem_ownTargets_of_declare (h : .declare name ∈ node.actions) : name ∈ node.ownTargets := by
  cases node with
  | declaration span kind declarators =>
    obtain ⟨d, hmem, hd⟩ := List.mem_flatMap.mp h
    rcases Declarator.mem_actions hd with ⟨part, hpart⟩ | ⟨target, htarget, hname⟩
    · cases hpart
    · cases htarget
      exact List.mem_filterMap.mpr ⟨d, hmem, by rw [hname]; rfl⟩
  | _ => simp [actions] at h

/-- What is gathered in the walk of a node is gathered from the node and in the walks of its parts. -/
theorem flatMap_walk {β : Type} (own : Node → List β) (node : Node) :
    node.walk.flatMap own = own node ++ node.parts.flatMap fun part => part.walk.flatMap own := by
  rw [node.walk_eq, List.flatMap_cons, List.flatMap_assoc]

/-- What is gathered from a part is gathered from the node. -/
theorem subset_flatMap_walk {β : Type} (own : Node → List β) {part : Node} (h : part ∈ node.parts) :
    part.walk.flatMap own ⊆ node.walk.flatMap own := by
  rw [flatMap_walk own node]
  exact List.subset_append_of_subset_right _ fun x hx => List.mem_flatMap.mpr ⟨part, h, hx⟩

/-- An action of a node reads no names but those of the node. -/
theorem reads_subset (h : action ∈ node.actions) : action.reads ⊆ node.reads := by
  cases action with
  | visit part => exact subset_flatMap_walk ownReads (mem_parts_of_visit h)
  | read name =>
    rw [reads, flatMap_walk]
    exact List.cons_subset.mpr ⟨List.mem_append_left _ (mem_ownReads_of_read h), List.nil_subset _⟩
  | declare name => exact List.nil_subset _
  | call site => exact List.nil_subset _

theorem targets_subset (h : action ∈ node.actions) : action.targets ⊆ node.targets := by
  cases action with
  | visit part => exact subset_flatMap_walk ownTargets (mem_parts_of_visit h)
  | declare name =>
    rw [targets, flatMap_walk]
    exact List.cons_subset.mpr ⟨List.mem_append_left _ (mem_ownTargets_of_declare h), List.nil_subset _⟩
  | read name => exact List.nil_subset _
  | call site => exact List.nil_subset _

theorem calls_subset (h : action ∈ node.actions) : action.calls ⊆ node.calls := by
  rw [node.calls_eq]
  cases action with
  | visit part =>
    exact List.subset_append_of_subset_left _ fun x hx => List.mem_flatMap.mpr ⟨part, mem_parts_of_visit h, hx⟩
  | call site => exact List.cons_subset.mpr ⟨List.mem_append_right _ (mem_ownCall_of_call h), List.nil_subset _⟩
  | read name => exact List.nil_subset _
  | declare name => exact List.nil_subset _

end Node

/-! ## Runs from states that agree on names -/

/-- Two states agree on some names, on the depth, and on all that the console, the interrupt flag and the host show. They may
differ in other bindings, in their supplies of fresh identities and in their records. -/
structure AgreeOn (names : List String) (s t : State) : Prop where
  bindings : ∀ name ∈ names, t.environment.binding? name = s.environment.binding? name
  depth : t.environment.depth = s.environment.depth
  lines : t.lines = s.lines
  interrupted : t.interrupted = s.interrupted
  calls : t.calls = s.calls

/-- Two states that agree on some names and have equal supplies of fresh identities. -/
structure InStep (names : List String) (s t : State) : Prop extends AgreeOn names s t where
  nextIdentity : t.nextIdentity = s.nextIdentity

namespace InStep

variable {names : List String} {s t : State}

/-- States in step have the same constants among the names. -/
theorem isConst (h : InStep names s t) {name : String} (hname : name ∈ names) :
    t.environment.bindings.isConst name = s.environment.bindings.isConst name :=
  congrArg (Option.any fun b : Binding => b.kind.isConst) (h.bindings name hname)

/-- States in step stay so when both bind a name to the same value. -/
theorem afterBound (h : InStep names s t) (b : Binding) : InStep names (s.afterBound b) (t.afterBound b) where
  bindings name hname := by
    show Bindings.find? (t.environment.bindings.put b) name = Bindings.find? (s.environment.bindings.put b) name
    by_cases hb : b.name = name
    · subst hb
      rw [Bindings.find?_put_self, Bindings.find?_put_self]
    · rw [Bindings.find?_put_of_ne _ hb, Bindings.find?_put_of_ne _ hb]
      exact h.bindings name hname
  depth := h.depth
  lines := h.lines
  interrupted := h.interrupted
  calls := h.calls
  nextIdentity := h.nextIdentity

/-- States in step stay so when both call a function and get the same reply. -/
theorem afterCall (h : InStep names s t) (site : Node) (f : Builtin) (arguments : List Value) (reply : Reply) :
    InStep names (s.afterCall site f arguments reply) (t.afterCall site f arguments reply) where
  bindings := h.bindings
  depth := h.depth
  lines := congrArg (fun lines : Array String => lines ++ reply.lines) h.lines
  interrupted := congrArg (· || reply.interrupt) h.interrupted
  calls := congrArg (_ :: ·) h.calls
  nextIdentity := h.nextIdentity

/-- States in step enter and leave nodes alike. -/
theorem entersAlike (cx : Context) (names : List String) : EntersAlike cx cx (InStep names) where
  maxDepth := rfl
  interrupted h := h.interrupted
  depth h := h.depth
  inside _ h := ⟨⟨h.bindings, congrArg (· + 1) h.depth, h.lines, h.interrupted, h.calls⟩, h.nextIdentity⟩
  leave h := ⟨⟨h.bindings, congrArg (· - 1) h.depth, h.lines, h.interrupted, h.calls⟩, h.nextIdentity⟩

/-- Two runs that read and bind no names but those on which their states agree stay in step. -/
theorem compositional (cx : Context) (names : List String) :
    Compositional cx cx fun _ actions x x' =>
      (∀ action ∈ actions, action.reads ⊆ names ∧ action.targets ⊆ names) → Simulates (InStep names) Eq x x' where
  pure _ _ := .pure rfl
  fault _ _ _ _ := .throw _
  bind _ hx hf hnames := by
    refine .bind (hx fun a ha => hnames a (List.mem_append_left _ ha)) ?_
    rintro v _ rfl
    exact hf v fun a ha => hnames a (List.mem_append_right _ ha)
  entering node _ _ hw hnames := by
    obtain ⟨hreads, htargets⟩ := hnames _ (List.mem_singleton_self _)
    exact (entersAlike cx names).entering node (hw fun a ha =>
      ⟨List.Subset.trans (Node.reads_subset ha) hreads, List.Subset.trans (Node.targets_subset ha) htargets⟩)
  fresh _ s t h :=
    ⟨h.nextIdentity.symm, ⟨h.bindings, h.depth, h.lines, h.interrupted, h.calls⟩,
      congrArg (· + 1) h.nextIdentity⟩
  lookUp name hnames s t h := by
    have hname : name ∈ names := (hnames _ (List.mem_singleton_self _)).1 (List.mem_singleton_self _)
    rw [after_lookUp, after_lookUp]
    refine ⟨matches_eq_iff.mpr ?_, h⟩
    unfold Run.outcome lookUp Environment.get Environment.value?
    rw [h.bindings name hname]
    cases s.environment.binding? name <;> rfl
  declare d name value kind hnames := by
    have hname : name ∈ names := (hnames _ (List.mem_singleton_self _)).2 (List.mem_singleton_self _)
    exact .declare d (fun h => h.isConst hname) (fun h => h.afterBound _) fun h =>
      ⟨⟨h.bindings, h.depth, h.lines, h.interrupted, h.calls⟩, h.nextIdentity⟩
  call site f arguments _ := by
    refine .call site rfl ?_
    intro s t h
    rw [h.calls]
    exact ⟨matches_eq_iff.mpr rfl, h.afterCall site f arguments _⟩

/-- From states that agree on the mentioned names a node is evaluated alike. -/
theorem evaluate (cx : Context) (node : Node) :
    Simulates (InStep node.mentions) Eq (node.evaluate cx) (node.evaluate cx) := by
  refine (compositional cx node.mentions).evaluate node fun action ha => ?_
  rw [List.mem_singleton] at ha
  subst ha
  exact ⟨List.subset_append_left _ _, List.subset_append_right _ _⟩

end InStep

/-! ## What a run leaves alone -/

/-- Binding one of some names does not touch the others. -/
theorem Bindings.filter_put (table : Bindings) {names : List String} {b : Binding} (h : b.name ∈ names) :
    (table.put b).filter (fun b => b.name ∉ names) = table.filter fun b => b.name ∉ names := by
  induction table with
  | nil => simp [put, h]
  | cons b' rest ih =>
    by_cases hb : b'.name = b.name
    · simp [put, hb, h]
    · simp only [put, if_neg hb, List.filter_cons, ih]

/-- The bindings of other names than these, in order. -/
def State.bindingsBut (names : List String) (s : State) : Bindings :=
  s.environment.bindings.filter fun b => b.name ∉ names

/-- Every change of a run that binds none but some names keeps the bindings of the others. -/
theorem keepsOthers_stepwise (cx : Context) (names : List String) :
    StepwiseFor cx (fun action => action.targets ⊆ names) fun s t => t.bindingsBut names = s.bindingsBut names where
  actions hnode ha := List.Subset.trans (Node.targets_subset ha) hnode
  refl _ := rfl
  trans h h' := h'.trans h
  node _ h := h
  fresh _ := rfl
  bound s _ hb := s.environment.bindings.filter_put (hb (List.mem_singleton_self _))
  refused _ _ := rfl
  call _ _ _ _ _ _ := rfl

/-- Every change of a run that makes no call keeps the lines. -/
theorem writesNothing_stepwise (cx : Context) :
    StepwiseFor cx (fun action => action.calls = []) fun s t => t.lines = s.lines where
  actions hnode ha := List.subset_nil.mp (hnode ▸ Node.calls_subset ha)
  refl _ := rfl
  trans h h' := h'.trans h
  node _ h := h
  fresh _ := rfl
  bound _ _ _ := rfl
  refused _ _ := rfl
  call _ _ _ _ _ h := absurd h (List.cons_ne_nil _ _)

/-! ## The two runs -/

/-- A state with exchanged identities has the same names bound, to values with exchanged identities. -/
theorem Renamed.binding? {ρ : Identity → Identity} {s s' : State} (h : Renamed ρ s s') (name : String) :
    s'.environment.binding? name = (s.environment.binding? name).map (Binding.rename ρ) := by
  rw [Environment.binding?, h.bindings, Bindings.find?_rename]
  rfl

/-- Only the mentioned names matter. From two states that agree on the names that a node reads or declares, it is evaluated
with the same result or the same error, to the same lines and the same interrupt flag, and the states that are left agree on
these names again: all of it up to the identities that came into being in the two runs, which are numbered through from the
later supply. (If the supplies differ, identities that are there must not be among those to come, and the host must not look at
more of an identity than whether it is another one.) In each of the runs the bindings of names that the node does not declare
stay as they were. If the node contains no call, no line is written. -/
theorem only_mentioned_names_matter (cx : Context) (node : Node) (s t : State) (hagree : AgreeOn node.mentions s t)
    (hsupply : s.nextIdentity = t.nextIdentity ∨ (cx.host.IgnoresIdentities ∧ s.Supplied ∧ t.Supplied)) :
    let later := max s.nextIdentity t.nextIdentity
    let ρ := renumber s.nextIdentity later
    let σ := renumber t.nextIdentity later
    let s' := (node.evaluate cx).after s
    let t' := (node.evaluate cx).after t
    ((node.evaluate cx).outcome s).map (Value.rename ρ) = ((node.evaluate cx).outcome t).map (Value.rename σ) ∧
    t'.lines = s'.lines ∧
    t'.interrupted = s'.interrupted ∧
    (∀ name ∈ node.mentions,
      (s'.environment.binding? name).map (Binding.rename ρ) = (t'.environment.binding? name).map (Binding.rename σ)) ∧
    s'.bindingsBut node.targets = s.bindingsBut node.targets ∧
    t'.bindingsBut node.targets = t.bindingsBut node.targets ∧
    (node.calls = [] → s'.lines = s.lines ∧ t'.lines = t.lines) := by
  intro later ρ σ s' t'
  have hs : s.nextIdentity = later ∨ (cx.host.IgnoresIdentities ∧ s.Supplied ∧ s.nextIdentity ≤ later) :=
    hsupply.imp (fun h => by simp [later, h]) fun h => ⟨h.1, h.2.1, Nat.le_max_left _ _⟩
  have ht : t.nextIdentity = later ∨ (cx.host.IgnoresIdentities ∧ t.Supplied ∧ t.nextIdentity ≤ later) :=
    hsupply.imp (fun h => by simp [later, h]) fun h => ⟨h.1, h.2.2, Nat.le_max_right _ _⟩
  obtain ⟨houts, hrens⟩ := evaluate_of_supply node hs
  obtain ⟨houtt, hrent⟩ := evaluate_of_supply node ht
  -- with one supply for both, the two runs stay in step
  have hstart : InStep node.mentions { s with nextIdentity := later } { t with nextIdentity := later } :=
    ⟨⟨hagree.bindings, hagree.depth, hagree.lines, hagree.interrupted, hagree.calls⟩, rfl⟩
  obtain ⟨hout, hafter⟩ := InStep.evaluate cx node hstart
  refine ⟨?_, ?_, ?_, ?_, ?_, ?_, ?_⟩
  · rw [← houts, ← houtt]
    exact matches_eq_iff.mp hout
  · rw [← hrens.lines, ← hrent.lines]
    exact hafter.lines
  · rw [← hrens.interrupted, ← hrent.interrupted]
    exact hafter.interrupted
  · intro name hname
    rw [← hrens.binding?, ← hrent.binding?]
    exact (hafter.bindings name hname).symm
  · exact (keepsOthers_stepwise cx node.targets).evaluate (List.Subset.refl node.targets) s
  · exact (keepsOthers_stepwise cx node.targets).evaluate (List.Subset.refl node.targets) t
  · intro hcalls
    exact ⟨(writesNothing_stepwise cx).evaluate hcalls s, (writesNothing_stepwise cx).evaluate hcalls t⟩

/-- A declaration that names a regular expression, with the console at hand and without: two regular expressions come into
being that differ in nothing but their identities. -/
theorem regex_with_and_without_console :
    let cx : Context := ⟨9, .silent⟩
    let regex : Node := .literal default (.regex ⟨"st", "g"⟩)
    let script : Node := .declaration default .const [.mk default (.identifier default "r") (some regex)]
    let s' := (script.evaluate cx).after .initial
    let t' := (script.evaluate cx).after .empty
    AgreeOn script.mentions .initial .empty ∧
      (cx.host.IgnoresIdentities ∧ State.initial.Supplied ∧ State.empty.Supplied) ∧
      s'.environment.binding? "r" = some ⟨"r", .regex 2 ⟨"st", "g"⟩, .const⟩ ∧
      t'.environment.binding? "r" = some ⟨"r", .regex 0 ⟨"st", "g"⟩, .const⟩ ∧
      (s'.environment.binding? "r").map (Binding.rename (renumber 2 2)) =
        (t'.environment.binding? "r").map (Binding.rename (renumber 0 2)) := by
  intro cx regex script s' t'
  have hmentions : script.mentions = ["r"] := by
    simp [script, regex, Node.mentions, Node.reads, Node.targets, Node.walk_eq, Node.parts, Node.ownReads, Node.ownTargets,
      Declarator.init, Declarator.name, Declarator.target, Except.toOption]
  have hagree : AgreeOn script.mentions .initial .empty := by
    refine ⟨?_, rfl, rfl, rfl, rfl⟩
    rw [hmentions]
    exact List.forall_mem_singleton.mpr rfl
  have hempty : State.empty.Supplied := ⟨List.forall_mem_nil _, List.forall_mem_nil _⟩
  have hsupply := And.intro Host.silent_ignoresIdentities (And.intro State.initial_supplied hempty)
  obtain ⟨-, -, -, hnames, -⟩ := only_mentioned_names_matter cx script .initial .empty hagree (Or.inr hsupply)
  exact ⟨hagree, hsupply, by rfl, by rfl, hnames "r" (by simp [hmentions])⟩

end ScriptTree
