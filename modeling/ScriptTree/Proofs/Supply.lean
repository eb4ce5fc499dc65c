import ScriptTree.Proofs.HeldValues
import ScriptTree.Proofs.Properties

/-!
# The supply of fresh identities

A state hands out identities in order. In a state that is `Supplied` none of the identities that there are is still to come;
the initial state is, and every run keeps it so (`evaluate_supplied`).
-/

namespace ScriptTree

mutual

/-- The identities in a value: its own and those in its properties. -/
def Value.identities : Value → List Identity
  | .regex i _ => [i]
  | .callable i _ => [i]
  | .object i properties => i :: identitiesOfProperties properties
  | _ => []

/-- The identities in the values of properties. -/
def identitiesOfProperties : List (String × Value) → List Identity
  | [] => []
  | (_, value) :: rest => value.identities ++ identitiesOfProperties rest

end

/-- No identity in a state is still to come from its supply. -/
structure State.Supplied (s : State) : Prop where
  bindings : ∀ b ∈ s.environment.bindings, ∀ i ∈ b.value.identities, i < s.nextIdentity
  calls : ∀ call ∈ s.calls, ∀ v ∈ call.arguments, ∀ i ∈ v.identities, i < s.nextIdentity

namespace Value

/-- There is no identity in a primitive. -/
theorem identities_of_primitive {v : Value} (h : v.isObjectLike = false) : v.identities = [] := by
  cases v with
  | regex | callable | object => cases h
  | _ => rfl

/-- The identities in a property are among those in the properties. -/
theorem identities_of_mem {properties : List (String × Value)} {name : String} {v : Value} (h : (name, v) ∈ properties) :
    v.identities ⊆ identitiesOfProperties properties := by
  induction properties with
  | nil => cases h
  | cons head rest ih =>
    obtain ⟨key, value⟩ := head
    rw [identitiesOfProperties]
    rcases List.mem_cons.mp h with heq | h
    · cases heq
      exact List.subset_append_left _ _
    · exact List.subset_append_of_subset_right _ (ih h)

/-- A value inside another one brings no other identities. -/
theorem Within.identities_subset {v w : Value} (h : w.Within v) : w.identities ⊆ v.identities := by
  induction h with
  | self => exact List.Subset.refl _
  | @property v i properties name hmem _ ih =>
    exact List.Subset.trans ih (List.subset_cons_of_subset i (identities_of_mem hmem))

/-- Reading a member brings no other identities than the value does. -/
theorem identities_of_member {base v : Value} {property : Node} {computed : Bool}
    (h : base.member property computed = .ok v) : v.identities ⊆ base.identities := by
  rcases within_of_member h with hprimitive | hwithin
  · rw [identities_of_primitive hprimitive]
    exact List.nil_subset _
  · exact hwithin.identities_subset

end Value

/-- A binding of the new table is the new one or was there before. -/
theorem Bindings.mem_put {table : Bindings} {b b' : Binding} (h : b' ∈ table.put b) : b' = b ∨ b' ∈ table := by
  induction table with
  | nil => exact Or.inl (List.mem_singleton.mp h)
  | cons first rest ih =>
    by_cases hname : first.name = b.name
    · rw [put, if_pos hname] at h
      exact (List.mem_cons.mp h).imp_right (List.mem_cons_of_mem first)
    · rw [put, if_neg hname] at h
      rcases List.mem_cons.mp h with rfl | h
      · exact Or.inr List.mem_cons_self
      · exact (ih h).imp_right (List.mem_cons_of_mem first)

/-- What holds of a binding and of all those of a table holds of all of them when it is put there. -/
theorem Bindings.forall_mem_put {table : Bindings} {b : Binding} {p : Binding → Prop} (hb : p b) (h : ∀ b' ∈ table, p b') :
    ∀ b' ∈ table.put b, p b' := by
  intro b' hb'
  rcases mem_put hb' with rfl | hb'
  · exact hb
  · exact h b' hb'

/-- A state is supplied, and no identity in held values is to come either. -/
def SuppliedWith (s : State) (held : List Value) : Prop := s.Supplied ∧ ∀ v ∈ held, ∀ i ∈ v.identities, i < s.nextIdentity

/-- No building block of an evaluation makes use of an identity that is still to come. -/
theorem supplied_invariant (cx : Context) : Invariant cx SuppliedWith where
  drop hsub hs := ⟨hs.1, fun v hv => hs.2 v (hsub hv)⟩
  inside _ hs := ⟨⟨hs.1.bindings, hs.1.calls⟩, hs.2⟩
  leave hs := ⟨⟨hs.1.bindings, hs.1.calls⟩, hs.2⟩
  primitive hv hs := by
    refine ⟨hs.1, List.forall_mem_cons.mpr ⟨?_, hs.2⟩⟩
    rw [Value.identities_of_primitive hv]
    exact List.forall_mem_nil _
  regex r hs := by
    obtain ⟨hstate, hheld⟩ := hs
    refine ⟨⟨fun b hb i hi => Nat.lt_succ_of_lt (hstate.bindings b hb i hi),
      fun call hcall v hv i hi => Nat.lt_succ_of_lt (hstate.calls call hcall v hv i hi)⟩, List.forall_mem_cons.mpr ⟨?_, ?_⟩⟩
    · intro i hi
      rw [List.mem_singleton.mp hi]
      exact Nat.lt_succ_self _
    · exact fun v hv i hi => Nat.lt_succ_of_lt (hheld v hv i hi)
  member hv hs := by
    obtain ⟨hstate, hheld⟩ := hs
    rw [List.forall_mem_cons] at hheld
    exact ⟨hstate, List.forall_mem_cons.mpr ⟨fun i hi => hheld.1 i (Value.identities_of_member hv hi), hheld.2⟩⟩
  lookUp hb hs := ⟨hs.1, List.forall_mem_cons.mpr ⟨hs.1.bindings _ (List.mem_of_find?_eq_some hb), hs.2⟩⟩
  bound b _ hs := by
    obtain ⟨hstate, hheld⟩ := hs
    rw [List.forall_mem_cons] at hheld
    exact ⟨⟨Bindings.forall_mem_put hheld.1 hstate.bindings, hstate.calls⟩, hheld.2⟩
  refused _ hs := ⟨⟨hs.1.bindings, hs.1.calls⟩, hs.2⟩
  call site f _ hs := by
    obtain ⟨hstate, hheld⟩ := hs
    rw [List.forall_mem_append] at hheld
    exact ⟨⟨hstate.bindings, List.forall_mem_cons.mpr ⟨hheld.1, hstate.calls⟩⟩, hheld.2⟩

/-- Every run keeps a state supplied, and no identity in the value that it ends with is still to come. -/
theorem evaluate_supplied (cx : Context) (node : Node) {s : State} (hs : s.Supplied) :
    ((node.evaluate cx).after s).Supplied ∧
      ∀ v, (node.evaluate cx).outcome s = .ok v → ∀ i ∈ v.identities, i < ((node.evaluate cx).after s).nextIdentity := by
  obtain ⟨hafter, hvalue⟩ := (supplied_invariant cx).evaluate node ⟨hs, List.forall_mem_nil _⟩
  exact ⟨hafter.1, fun v hv => (hvalue v hv).2 v List.mem_cons_self⟩

/-- The console at the beginning has the first two identities. -/
theorem State.console_identities_lt : ∀ i ∈ (State.console 0 1).identities, i < 2 := by
  intro i hi
  have hi' : i = 0 ∨ i = 1 := by simpa [State.console, Value.identities, identitiesOfProperties] using hi
  rcases hi' with rfl | rfl <;> decide

/-- The initial state is supplied: the console and its one function have identities of their own. -/
theorem State.initial_supplied : State.initial.Supplied := by
  refine ⟨?_, List.forall_mem_nil _⟩
  intro b hb
  obtain rfl : b = ⟨"console", State.console 0 1, .var⟩ := List.mem_singleton.mp hb
  exact State.console_identities_lt

end ScriptTree
