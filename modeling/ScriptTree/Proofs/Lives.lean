import Mathlib.Logic.Relation
import ScriptTree.Proofs.Creation
import ScriptTree.Proofs.History
import ScriptTree.Proofs.Supply

/-!
# The lives of an environment

An environment lives through more than one evaluation: whoever embeds it makes values, binds names, evaluates trees, sets and
clears the interrupt flag, and takes guards, in any order. `Becomes` is one such step, to its end or to a node that is met
on the way, and `Lives` any number of them. Each step goes on from the history, takes no identity back, and keeps the state
supplied (`Lives.grows`). From that follows what a state has that the empty one leads to (`State.Reachable`), and that a name
stays bound as it is for as long as it is not bound again (`KeepsName.binding?_eq`).
-/

namespace ScriptTree

/-! ## Up to a part -/

section Parts

variable {cx : Context} {I : State → List Value → Prop} {s s' t : State} {held : List Value} {node part inner : Node}

/-- An invariant holds where a part is reached. -/
theorem Invariant.reaches (h : Invariant cx I) (hreach : Reaches cx s node part s') (hs : I s held) : I s' held := by
  cases hreach with
  | @statement span body before =>
    have hlast : I s (.undefined :: held) := h.primitive rfl hs
    exact h.drop (List.Subset.refl _) (h.statements before hlast).1
  | expression => exact hs
  | left => exact hs
  | @right span left => exact (h.evaluate left hs).1
  | callee => exact hs
  | @argument span callee argument arguments before => exact (h.arguments before (h.evaluate callee hs).1).1
  | object => exact hs
  | @init span kind declarators before => exact (h.declarators kind before hs).1

/-- An invariant holds where a node is met. -/
theorem Invariant.meets (h : Invariant cx I) (hmeets : Meets cx s node inner t) (hs : I s held) : I t held := by
  induction hmeets with
  | self => exact hs
  | @part s s' t node part inner hroom hreach _ ih => exact ih (h.reaches hreach (h.inside node hs))

end Parts

/-- The history goes on from node to node, and the table with it. -/
theorem continues_nodewise (cx : Context) : Nodewise cx Continues := by
  refine (continues_stepwise cx).nodewise ?_ Continues.refl
  intro s node
  unfold Continues
  rw [State.history_inside]
  exact ⟨List.prefix_refl _, id⟩

/-! ## Steps of a life -/

/-- All the identities in a value were handed out before a state. -/
def Value.Known (v : Value) (s : State) : Prop := ∀ i ∈ v.identities, i < s.nextIdentity

/-- Whether whoever performs an operation has what it takes: no name is bound to a value that is not yet made. -/
def Operation.Possible (s : State) : Operation → Prop
  | .bind _ value _ => value.Known s
  | .evaluate .. | .enter _ | .leave => True

/-- What can happen to a state: values are made outside and get their identities, the interrupt flag is set or cleared, an
operation is performed; or an evaluation is under way and a node is met. -/
inductive Becomes : State → State → Prop
  | made (s : State) (count : Nat) : Becomes s { s with nextIdentity := s.nextIdentity + count }
  | flag (s : State) (interrupted : Bool) : Becomes s { s with interrupted := interrupted }
  | performed {s : State} (operation : Operation) (h : operation.Possible s) : Becomes s (operation.perform s)
  | met {cx : Context} {s t : State} {node inner : Node} (h : Meets cx s node inner t) : Becomes s t

/-- What a state becomes in any number of steps. -/
abbrev Lives : State → State → Prop := Relation.ReflTransGen Becomes

/-- A state that some life of an environment leads to. -/
def State.Reachable (s : State) : Prop := ∃ lines, Lives { State.empty with lines := lines } s

/-- What every step does to a state: the history goes on, no identity is taken back, and the state stays supplied. -/
structure Grows (s t : State) : Prop where
  continues : Continues s t
  identities : s.nextIdentity ≤ t.nextIdentity
  supplied : s.Supplied → t.Supplied

section Lives

variable {s t u : State} {name : String}

theorem Grows.refl (s : State) : Grows s s := ⟨Continues.refl s, Nat.le_refl _, id⟩

theorem Grows.trans (h : Grows s t) (h' : Grows t u) : Grows s u :=
  ⟨h.continues.trans h'.continues, Nat.le_trans h.identities h'.identities, h'.supplied ∘ h.supplied⟩

/-- A step that touches neither names nor the record nor what was called. -/
theorem Grows.of_eq (hbindings : t.environment.bindings = s.environment.bindings) (hevents : t.events = s.events)
    (hcalls : t.calls = s.calls) (hidentities : s.nextIdentity ≤ t.nextIdentity) : Grows s t where
  continues := by
    unfold Continues State.history
    rw [hbindings, hevents]
    exact ⟨List.prefix_refl _, id⟩
  identities := hidentities
  supplied hs := by
    constructor
    · rw [hbindings]
      exact fun b hb i hi => Nat.lt_of_lt_of_le (hs.bindings b hb i hi) hidentities
    · rw [hcalls]
      exact fun call hcall v hv i hi => Nat.lt_of_lt_of_le (hs.calls call hcall v hv i hi) hidentities

/-- A name that is bound to a value that there is. -/
theorem Grows.bound (b : Binding) (hc : s.environment.bindings.isConst b.name = false) (hb : b.value.Known s) :
    Grows s (s.afterBound b) where
  continues := continues_afterBound b hc
  identities := Nat.le_refl _
  supplied hs := ⟨Bindings.forall_mem_put hb hs.bindings, hs.calls⟩

/-- A binding that is refused leaves nothing but an attempt in the history. -/
theorem Grows.refused (b : Binding) (hc : s.environment.bindings.isConst b.name = true) :
    Grows s (s.record (.refused b)) :=
  ⟨continues_refused b hc, Nat.le_refl _, fun hs => ⟨hs.bindings, hs.calls⟩⟩

/-- Identities are handed out and not taken back. -/
theorem Creates.le (h : Creates s t) : s.nextIdentity ≤ t.nextIdentity := by
  obtain ⟨created, -, hn⟩ := h
  rw [hn]
  exact Nat.le_add_right _ _

/-- The evaluation of a node is growth. -/
theorem Grows.evaluated (cx : Context) (node : Node) (s : State) : Grows s ((node.evaluate cx).after s) where
  continues := (continues_nodewise cx).evaluate node s
  identities := ((creates_nodewise cx).evaluate node s).le
  supplied hs := (evaluate_supplied cx node hs).1

/-- Every operation that can be performed is growth. -/
theorem Operation.perform_grows {operation : Operation} (h : operation.Possible s) : Grows s (operation.perform s) := by
  cases operation with
  | bind name value kind =>
    rw [Operation.perform]
    cases hc : s.environment.bindings.isConst name with
    | false =>
      rw [State.bind_of_free value kind hc]
      exact .bound ⟨name, value, kind⟩ hc h
    | true =>
      rw [State.bind_of_const value kind hc]
      exact .refused ⟨name, value, kind⟩ hc
  | evaluate cx interrupted node =>
    have hflag : Grows s { s with interrupted := interrupted } := .of_eq rfl rfl rfl (Nat.le_refl _)
    exact hflag.trans (.evaluated cx node _)
  | enter max =>
    rw [Operation.perform]
    rcases Nat.lt_or_ge s.environment.depth max with hd | hd
    · rw [Environment.enter_of_lt hd]
      exact .of_eq rfl rfl rfl (Nat.le_refl _)
    · rw [Environment.enter_of_le hd]
      exact .refl s
  | leave => exact .of_eq rfl rfl rfl (Nat.le_refl _)

/-- Every step of a life is growth. -/
theorem Becomes.grows (h : Becomes s t) : Grows s t := by
  cases h with
  | made count => exact .of_eq rfl rfl rfl (Nat.le_add_right _ _)
  | flag interrupted => exact .of_eq rfl rfl rfl (Nat.le_refl _)
  | performed operation hpossible => exact operation.perform_grows hpossible
  | met hmeets =>
    refine ⟨(continues_nodewise _).meets hmeets, ((creates_nodewise _).meets hmeets).le, ?_⟩
    intro hs
    exact ((supplied_invariant _).meets hmeets ⟨hs, List.forall_mem_nil _⟩).1

/-- A whole life is growth. -/
theorem Lives.grows (h : Lives s t) : Grows s t := by
  induction h with
  | refl => exact .refl s
  | tail _ hstep ih => exact ih.trans hstep.grows

namespace State.Reachable

/-- What a reachable state becomes is reachable. -/
theorem lives (hs : s.Reachable) (h : Lives s t) : t.Reachable := by
  obtain ⟨lines, hlives⟩ := hs
  exact ⟨lines, hlives.trans h⟩

/-- The state after an evaluation is reachable. -/
theorem evaluated (hs : s.Reachable) (cx : Context) (node : Node) : ((node.evaluate cx).after s).Reachable :=
  hs.lives (.single (.performed (.evaluate cx s.interrupted node) trivial))

/-- No identity in a reachable state is still to come. -/
theorem supplied (hs : s.Reachable) : s.Supplied := by
  obtain ⟨lines, hlives⟩ := hs
  exact hlives.grows.supplied ⟨List.forall_mem_nil _, List.forall_mem_nil _⟩

/-- The table of a reachable state replays its history. -/
theorem replays (hs : s.Reachable) : Replays s.environment.bindings s.history := by
  obtain ⟨lines, hlives⟩ := hs
  exact hlives.grows.continues.2 Replays.nil

end State.Reachable

/-- Every script starts in a reachable state. -/
theorem State.initial_reachable : State.initial.Reachable := by
  refine ⟨#[], ?_⟩
  have hmade : Becomes { State.empty with lines := #[] } { State.empty with nextIdentity := 2 } := .made _ 2
  have hbound : Becomes { State.empty with nextIdentity := 2 } State.initial :=
    .performed (.bind "console" (State.console 0 1) .var) State.console_identities_lt
  exact (Relation.ReflTransGen.single hmade).tail hbound

/-! ## Names that keep their bindings -/

/-- The history of a state goes on from that of another one, and a name is not bound again on the way. -/
def KeepsName (name : String) (s t : State) : Prop :=
  ∃ more, t.history = s.history ++ more ∧ ∀ b ∈ grantedBindings more, b.name ≠ name

/-- A name that is not bound again stays bound as it is. -/
theorem KeepsName.binding?_eq (h : KeepsName name s t) (hs : s.Reachable) (ht : t.Reachable) :
    t.environment.binding? name = s.environment.binding? name := by
  obtain ⟨more, hmore, hname⟩ := h
  have hnone : (grantedBindings more).reverse.find? (fun b => b.name == name) = none := by
    simpa using hname
  unfold Environment.binding?
  rw [ht.replays.latest, hs.replays.latest, hmore, grantedBindings_append, List.reverse_append, List.find?_append, hnone,
    Option.none_or]

/-- A constant stays bound as it is, whatever the history goes on with. -/
theorem KeepsName.binding?_of_const (h : KeepsName name s t) (hs : s.Reachable) (ht : t.Reachable) {b : Binding}
    (hb : s.environment.bindings.find? b.name = some b) (hk : b.kind.isConst = true) :
    t.environment.binding? b.name = some b := by
  obtain ⟨more, hmore, -⟩ := h
  have hcontinues : Continues s t := ⟨⟨more, hmore.symm⟩, fun _ => ht.replays⟩
  exact hcontinues.find?_of_const hs.replays hb hk

end Lives

end ScriptTree
