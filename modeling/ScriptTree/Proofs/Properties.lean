import ScriptTree.Evaluation.Evaluate

/-!
# What is read from a value

Values are nested by the properties of objects, and by nothing else: the properties of every other value are primitives, made
for the occasion. So what a member expression reads is a primitive, or a value that was inside the one it is read from
(`Value.within_of_member`), and is shared, not copied.
-/

namespace ScriptTree

/-- A value is another one or is stored in a property of it, at any depth. -/
inductive Value.Within : Value → Value → Prop
  | self {v : Value} : Within v v
  | property {w v : Value} {i : Identity} {properties : List (String × Value)} {name : String}
      (hmem : (name, v) ∈ properties) (h : Within w v) : Within w (.object i properties)

namespace Value

variable {u v w base : Value} {name : String}

/-- What is inside something inside a value is inside the value. -/
theorem Within.trans (h : u.Within v) (h' : v.Within w) : u.Within w := by
  induction h' with
  | self => exact h
  | property hmem _ ih => exact .property hmem ih

/-- Only objects have anything inside them but themselves. -/
theorem Within.eq_of_not_object (hv : ∀ i properties, v ≠ .object i properties) (h : w.Within v) : w = v := by
  cases h with
  | self => rfl
  | property => exact absurd rfl (hv _ _)

/-! ## Properties -/

/-- A value that is found under a key stands among the properties. -/
theorem mem_of_lookup {properties : List (String × Value)} (h : properties.lookup name = some v) :
    (name, v) ∈ properties := by
  obtain ⟨before, after, rfl, -⟩ := List.lookup_eq_some_iff.mp h
  exact List.mem_append_right _ List.mem_cons_self

/-- The properties of a regular expression are primitives. -/
theorem isObjectLike_of_regex_property {r : Regex} {name : String} : ∀ v ∈ r.property? name, v.isObjectLike = false := by
  intro v hv
  unfold Regex.property? at hv
  split at hv <;> cases hv <;> rfl

theorem isObjectLike_of_builtin_property {f : Builtin} {name : String} :
    ∀ v ∈ f.property? name, v.isObjectLike = false := by
  intro v hv
  unfold Builtin.property? at hv
  split at hv <;> cases hv <;> rfl

/-- Only the properties of an object can have an identity of their own. -/
theorem isObjectLike_of_property? {v : Value} {name : String} (h : ∀ i properties, v ≠ .object i properties) :
    ∀ w ∈ v.property? name, w.isObjectLike = false := by
  intro w hw
  cases v with
  | object i properties => exact absurd rfl (h i properties)
  | regex => exact isObjectLike_of_regex_property w hw
  | callable => exact isObjectLike_of_builtin_property w hw
  | string s =>
    simp only [property?] at hw
    split at hw <;> cases hw
    rfl
  | _ => cases hw

/-- A property is a primitive or stands inside the value. -/
theorem within_of_property? (h : base.property? name = some v) : v.isObjectLike = false ∨ v.Within base := by
  cases base with
  | object i properties => exact Or.inr (.property (mem_of_lookup h) .self)
  | _ => exact Or.inl (isObjectLike_of_property? (by intro i properties hobject; cases hobject) v h)

/-- What is read from a value is a primitive or was inside the value. -/
theorem within_of_member {property : Node} {computed : Bool} (h : base.member property computed = .ok v) :
    v.isObjectLike = false ∨ v.Within base := by
  unfold member at h
  cases computed with
  | true => cases h
  | false =>
    cases property with
    | identifier span name =>
      by_cases hnullish : base.isNullish = true
      · simp [hnullish] at h
      · simp only [Bool.false_eq_true, if_false, if_neg hnullish, Except.ok.injEq] at h
        subst h
        cases hp : base.property? name with
        | none => exact Or.inl rfl
        | some v => exact within_of_property? hp
    | _ => cases h

end Value

end ScriptTree
