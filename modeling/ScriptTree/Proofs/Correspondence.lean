import ScriptTree.Host.Canned
import ScriptTree.Proofs.OperatorDomain
import ScriptTree.Proofs.Properties
import ScriptTree.Proofs.Simulation

/-!
# Corresponding runs

Two runs may work with functions of different bodies and with different identities. A `Correspondence` says which bodies and
which identities belong together; values correspond if they are equal but for these. A script can tell identities apart and
nothing else about them, and of a function it sees the name and the arity. So no operation gives corresponding values away,
and neither does evaluation (`Correspondence.simulation`), under hosts whose bodies do the same when they belong together.
What a body returns is not part of what it does: `returned_values_have_no_influence`.
-/

namespace ScriptTree

/-- Which identities and which bodies of functions belong together in two runs. Identities do so one to one. -/
structure Correspondence where
  identities : Identity → Identity → Prop
  bodies : Body → Body → Prop
  oneToOne : Relator.BiUnique identities

/-- Everything belongs together with itself. -/
def Correspondence.same : Correspondence where
  identities := Eq
  bodies := Eq
  oneToOne := ⟨fun _ _ _ hi hj => hi.trans hj.symm, fun _ _ _ hi hj => hi.symm.trans hj⟩

mutual

/-- Two values are equal but for the identities and for the bodies of functions, which belong together. -/
inductive Value.Corresponds (R : Correspondence) : Value → Value → Prop
  | primitive {v : Value} (h : v.isObjectLike = false) : Value.Corresponds R v v
  | regex {i i' : Identity} (r : Regex) (hi : R.identities i i') : Value.Corresponds R (.regex i r) (.regex i' r)
  | callable {i i' : Identity} {f f' : Builtin} (hi : R.identities i i') (hname : f'.name = f.name)
      (harity : f'.arity = f.arity) (hbody : R.bodies f.body f'.body) :
      Value.Corresponds R (.callable i f) (.callable i' f')
  | object {i i' : Identity} {properties properties' : List (String × Value)} (hi : R.identities i i')
      (h : PropertiesCorrespond R properties properties') :
      Value.Corresponds R (.object i properties) (.object i' properties')

/-- Properties have the same keys in the same order, and corresponding values. -/
inductive PropertiesCorrespond (R : Correspondence) : List (String × Value) → List (String × Value) → Prop
  | nil : PropertiesCorrespond R [] []
  | cons {key : String} {v v' : Value} {rest rest' : List (String × Value)} (hv : Value.Corresponds R v v')
      (h : PropertiesCorrespond R rest rest') : PropertiesCorrespond R ((key, v) :: rest) ((key, v') :: rest')

end

variable {R : Correspondence}

/-- Identities that belong together are told apart alike. -/
theorem Correspondence.beq_eq {i i' j j' : Identity} (hi : R.identities i i') (hj : R.identities j j') :
    (i' == j') = (i == j) := by
  rw [Bool.eq_iff_iff, beq_iff_eq, beq_iff_eq]
  constructor
  · rintro rfl
    exact R.oneToOne.1 hi hj
  · rintro rfl
    exact R.oneToOne.2 hi hj

/-! ## What corresponding values have in common -/

namespace Value.Corresponds

variable {v v' : Value}

/-- Corresponding values are of one type. -/
theorem typeName (h : v.Corresponds R v') : v'.typeName = v.typeName := by
  cases h <;> rfl

theorem isNullish (h : v.Corresponds R v') : v'.isNullish = v.isNullish := by
  cases h <;> rfl

theorem isString (h : v.Corresponds R v') : v'.isString = v.isString := by
  cases h <;> rfl

/-- Corresponding values are both objects, or neither is. -/
theorem isObjectLike (h : v.Corresponds R v') : v'.isObjectLike = v.isObjectLike := by
  cases h <;> rfl

theorem toText? (h : v.Corresponds R v') : v'.toText? = v.toText? := by
  cases h <;> rfl

theorem toNumeric? (h : v.Corresponds R v') : v'.toNumeric? = v.toNumeric? := by
  cases h <;> rfl

/-- A primitive corresponds to itself only. -/
theorem eq_of_primitive (h : v.Corresponds R v') (hv : v.isObjectLike = false) : v' = v := by
  cases h with
  | primitive => rfl
  | _ => cases hv

mutual

/-- Inspection shows neither identities nor bodies. -/
theorem inspectChars {v v' : Value} (h : v.Corresponds R v') : v'.inspectChars = v.inspectChars := by
  cases h with
  | primitive => rfl
  | regex => rfl
  | @callable _ _ f f' _ hname =>
    show "[Function: ".toList ++ f'.name.toList ++ [']'] = _
    rw [hname]
    rfl
  | object _ hproperties =>
    cases hproperties with
    | nil => rfl
    | @cons key v v' rest rest' hv hrest =>
      show '{' :: ' ' :: (keyChars key ++ ':' :: ' ' :: (v'.inspectChars ++ Value.inspectRest rest')) = _
      rw [inspectChars hv, inspectRest hrest]
      rfl

/-- Corresponding properties are inspected alike. -/
theorem inspectRest {properties properties' : List (String × Value)} (h : PropertiesCorrespond R properties properties') :
    Value.inspectRest properties' = Value.inspectRest properties := by
  cases h with
  | nil => rfl
  | @cons key v v' rest rest' hv hrest =>
    show ',' :: ' ' :: (keyChars key ++ ':' :: ' ' :: (v'.inspectChars ++ Value.inspectRest rest')) = _
    rw [inspectChars hv, inspectRest hrest]
    rfl

end

/-- Corresponding values are inspected alike. -/
theorem inspect (h : v.Corresponds R v') : v'.inspect = v.inspect := congrArg String.ofList h.inspectChars

theorem display (h : v.Corresponds R v') : v'.display = v.display := by
  cases h with
  | primitive => rfl
  | regex r hi => exact inspect (.regex r hi)
  | callable hi hname harity hbody => exact inspect (.callable hi hname harity hbody)
  | object hi hproperties => exact inspect (.object hi hproperties)

end Value.Corresponds

/-! ## Properties of corresponding values -/

/-- Under each key, corresponding properties have corresponding values. -/
theorem PropertiesCorrespond.lookup {properties properties' : List (String × Value)} (name : String)
    (h : PropertiesCorrespond R properties properties') :
    Option.Rel (Value.Corresponds R) (properties.lookup name) (properties'.lookup name) := by
  cases h with
  | nil => exact .none
  | @cons key _ _ _ _ hv hrest =>
    by_cases hname : name = key
    · rw [hname, List.lookup_cons_self, List.lookup_cons_self]
      exact .some hv
    · rw [List.lookup_cons, List.lookup_cons, beq_false_of_ne hname]
      exact hrest.lookup name

namespace Value

/-- A primitive corresponds to itself. -/
theorem corresponds_of_primitive {x : Option Value} (h : ∀ v ∈ x, v.isObjectLike = false) :
    Option.Rel (Corresponds R) x x := by
  cases x with
  | none => exact .none
  | some v => exact .some (.primitive (h v rfl))

/-- Corresponding values have corresponding properties of each name. -/
theorem Corresponds.property? {v v' : Value} (h : v.Corresponds R v') (name : String) :
    Option.Rel (Corresponds R) (v.property? name) (v'.property? name) := by
  cases h with
  | primitive hv =>
    refine corresponds_of_primitive (isObjectLike_of_property? ?_)
    rintro i properties rfl
    cases hv
  | regex r => exact corresponds_of_primitive isObjectLike_of_regex_property
  | @callable _ _ f f' _ hname harity =>
    have hsame : f'.property? name = f.property? name := by
      unfold Builtin.property?
      rw [hname, harity]
    show Option.Rel _ (f.property? name) (f'.property? name)
    rw [hsame]
    exact corresponds_of_primitive isObjectLike_of_builtin_property
  | object _ hproperties => exact hproperties.lookup name

/-- Corresponding values have properties of the same names. -/
theorem Corresponds.isSome_property? {v v' : Value} (h : v.Corresponds R v') (name : String) :
    (v'.property? name).isSome = (v.property? name).isSome := by
  have hproperty := h.property? name
  generalize v.property? name = x, v'.property? name = x' at hproperty
  cases hproperty with
  | none => rfl
  | some _ => rfl

/-- A member of corresponding values is read alike. -/
theorem Corresponds.member {base base' : Value} (h : base.Corresponds R base') (property : Node) (computed : Bool) :
    Matches (Corresponds R) (base.member property computed) (base'.member property computed) := by
  unfold Value.member
  cases computed with
  | true => exact rfl
  | false =>
    cases property with
    | identifier span name =>
      have hproperty := h.property? name
      simp only [h.isNullish, h.display, Bool.false_eq_true, if_false]
      split
      · exact rfl
      · generalize base.property? name = x, base'.property? name = x' at hproperty
        cases hproperty with
        | none => exact Corresponds.primitive rfl
        | some hv => exact hv
    | _ => exact rfl

/-! ## Operators on corresponding values -/

/-- A value with an identity is never converted to be compared. -/
theorem equalsConverting_of_isObjectLike {l r : Value} (h : l.isObjectLike = true ∨ r.isObjectLike = true) :
    l.equalsConverting r =
      if l.isObjectLike == r.isObjectLike then .ok (l.strictEquals r) else .error (.ofOperands .looseEqual l r) := by
  unfold equalsConverting
  split
  case h_7 => rfl
  all_goals simp [isObjectLike] at h

/-- What a value is compared as: a boolean as its number, and any other value as itself. -/
def compared : Value → Value
  | .boolean b => .number (.ofBool b)
  | v => v

/-- Where an operand has an identity, a boolean beside it is converted before the two are compared. -/
theorem looseEquals_of_isObjectLike {l r : Value} (h : l.isObjectLike = true ∨ r.isObjectLike = true) :
    l.looseEquals r =
      if l.isNullish || r.isNullish then .ok (l.isNullish && r.isNullish) else l.compared.equalsConverting r.compared := by
  unfold looseEquals
  split
  · rfl
  cases l with
  | boolean a =>
    cases r with
    | boolean b => rcases h with h | h <;> cases h
    | _ => rfl
  | _ => cases r <;> rfl

/-- A value with an identity is none without. -/
theorem strictEquals_of_isObjectLike_ne {l r : Value} (h : l.isObjectLike ≠ r.isObjectLike) : l.strictEquals r = false := by
  unfold strictEquals
  split
  case h_10 => rfl
  all_goals exact absurd rfl h

namespace Corresponds

variable {l l' r r' : Value}

/-- A refusal names the types of the operands, which are the same. -/
theorem ofOperands (hl : l.Corresponds R l') (hr : r.Corresponds R r') (operator : BinaryOperator) :
    OperationError.ofOperands operator l' r' = .ofOperands operator l r := by
  rw [OperationError.ofOperands, hl.typeName, hr.typeName, OperationError.ofOperands]

/-- Strict equality is the same, because a correspondence matches identities one to one. -/
theorem strictEquals (hl : l.Corresponds R l') (hr : r.Corresponds R r') : l'.strictEquals r' = l.strictEquals r := by
  by_cases h : l.isObjectLike = r.isObjectLike
  · cases hl with
    | primitive hv => rw [hr.eq_of_primitive (h ▸ hv)]
    | regex _ hi =>
      cases hr with
      | primitive hv => rw [← h] at hv; cases hv
      | regex _ hj => exact R.beq_eq hi hj
      | _ => rfl
    | callable hi =>
      cases hr with
      | primitive hv => rw [← h] at hv; cases hv
      | callable hj => exact R.beq_eq hi hj
      | _ => rfl
    | object hi =>
      cases hr with
      | primitive hv => rw [← h] at hv; cases hv
      | object hj => exact R.beq_eq hi hj
      | _ => rfl
  · rw [strictEquals_of_isObjectLike_ne h, strictEquals_of_isObjectLike_ne]
    rwa [hl.isObjectLike, hr.isObjectLike]

theorem equalsConverting (hl : l.Corresponds R l') (hr : r.Corresponds R r') :
    l'.equalsConverting r' = l.equalsConverting r := by
  by_cases h : l.isObjectLike = true ∨ r.isObjectLike = true
  · have h' : l'.isObjectLike = true ∨ r'.isObjectLike = true := by rwa [hl.isObjectLike, hr.isObjectLike]
    rw [equalsConverting_of_isObjectLike h, equalsConverting_of_isObjectLike h', hl.strictEquals hr, hl.ofOperands hr,
      hl.isObjectLike, hr.isObjectLike]
  · rw [not_or, Bool.not_eq_true, Bool.not_eq_true] at h
    rw [hl.eq_of_primitive h.1, hr.eq_of_primitive h.2]

theorem compared (h : l.Corresponds R l') : l.compared.Corresponds R l'.compared := by
  cases h with
  | primitive hv =>
    cases l with
    | boolean b => exact .primitive rfl
    | _ => exact .primitive hv
  | regex r hi => exact .regex r hi
  | callable hi hname harity hbody => exact .callable hi hname harity hbody
  | object hi hproperties => exact .object hi hproperties

theorem looseEquals (hl : l.Corresponds R l') (hr : r.Corresponds R r') : l'.looseEquals r' = l.looseEquals r := by
  by_cases h : l.isObjectLike = true ∨ r.isObjectLike = true
  · have h' : l'.isObjectLike = true ∨ r'.isObjectLike = true := by rwa [hl.isObjectLike, hr.isObjectLike]
    rw [looseEquals_of_isObjectLike h, looseEquals_of_isObjectLike h', hl.isNullish, hr.isNullish,
      hl.compared.equalsConverting hr.compared]
  · rw [not_or, Bool.not_eq_true, Bool.not_eq_true] at h
    rw [hl.eq_of_primitive h.1, hr.eq_of_primitive h.2]

/-- Values with identities have no order; primitives are the same in both. -/
theorem compareBy (hl : l.Corresponds R l') (hr : r.Corresponds R r') (operator : BinaryOperator)
    (accepts : Ordering → Bool) : Value.compareBy operator accepts l' r' = Value.compareBy operator accepts l r := by
  unfold Value.compareBy
  rw [hl.isObjectLike, hr.isObjectLike, hl.ofOperands hr]
  split
  · rfl
  · rename_i h
    rw [Bool.not_eq_true, Bool.or_eq_false_iff] at h
    rw [hl.eq_of_primitive h.1, hr.eq_of_primitive h.2]

/-- Arithmetic has the same result, or refuses alike. -/
theorem onNumerics (hl : l.Corresponds R l') (hr : r.Corresponds R r') (operator : BinaryOperator)
    (numbers : Double → Double → Double) (bigints : Option (BigInt → BigInt → Except RangeCause BigInt)) :
    Value.onNumerics operator numbers bigints l' r' = Value.onNumerics operator numbers bigints l r := by
  unfold Value.onNumerics
  rw [hl.toNumeric?, hr.toNumeric?, hl.ofOperands hr]

theorem add (hl : l.Corresponds R l') (hr : r.Corresponds R r') : Value.add l' r' = Value.add l r := by
  unfold Value.add
  rw [hl.isObjectLike, hr.isObjectLike, hl.isString, hr.isString, hl.toText?, hr.toText?, hl.onNumerics hr,
    hl.ofOperands hr]

theorem isIn (hl : l.Corresponds R l') (hr : r.Corresponds R r') : l'.isIn r' = l.isIn r := by
  simp only [Value.isIn, hl.toText?, hr.isObjectLike, hr.isSome_property?, hl.ofOperands hr]

end Corresponds

end Value

/-- No operator gives corresponding operands away. -/
theorem BinaryOperator.apply_corresponding (operator : BinaryOperator) {l l' r r' : Value} (hl : l.Corresponds R l')
    (hr : r.Corresponds R r') : operator.apply l' r' = operator.apply l r := by
  cases operator <;>
    simp only [apply, hl.looseEquals hr, hl.strictEquals hr, hl.compareBy hr, hl.add hr, hl.onNumerics hr, hl.isIn hr,
      hl.ofOperands hr]

/-! ## Corresponding states -/

/-- Bindings of the same name and kind, and of corresponding values. -/
structure Binding.Corresponds (R : Correspondence) (b b' : Binding) : Prop where
  name : b'.name = b.name
  value : b.value.Corresponds R b'.value
  kind : b'.kind = b.kind

/-- Calls of bodies that belong together, with corresponding arguments. -/
structure Call.Corresponds (R : Correspondence) (call call' : Call) : Prop where
  body : R.bodies call.body call'.body
  arguments : List.Forall₂ (Value.Corresponds R) call.arguments call'.arguments

/-- Two states have the same names in the same order, bound alike to corresponding values, at the same depth, after the same
lines and after corresponding calls. Identities that are still to come belong together in their order. -/
structure State.Corresponds (R : Correspondence) (s s' : State) : Prop where
  bindings : List.Forall₂ (Binding.Corresponds R) s.environment.bindings s'.environment.bindings
  depth : s'.environment.depth = s.environment.depth
  lines : s'.lines = s.lines
  interrupted : s'.interrupted = s.interrupted
  calls : List.Forall₂ (Call.Corresponds R) s.calls s'.calls
  fresh : ∀ n, R.identities (s.nextIdentity + n) (s'.nextIdentity + n)

namespace Bindings

variable {table table' : Bindings}

/-- Corresponding tables have corresponding bindings of each name. -/
theorem find?_corresponding (h : List.Forall₂ (Binding.Corresponds R) table table') (name : String) :
    Option.Rel (Binding.Corresponds R) (table.find? name) (table'.find? name) := by
  induction h with
  | nil => exact .none
  | @cons b b' rest rest' hb _ ih =>
    unfold find? at ih ⊢
    rw [List.find?_cons, List.find?_cons, hb.name]
    cases b.name == name with
    | true => exact .some hb
    | false => exact ih

theorem isConst_corresponding (h : List.Forall₂ (Binding.Corresponds R) table table') (name : String) :
    table'.isConst name = table.isConst name := by
  have hfound := find?_corresponding h name
  unfold isConst
  generalize table.find? name = x, table'.find? name = x' at hfound
  cases hfound with
  | none => rfl
  | some hb => exact congrArg DeclarationKind.isConst hb.kind

/-- Tables correspond after corresponding bindings have been put into both. -/
theorem put_corresponding (h : List.Forall₂ (Binding.Corresponds R) table table') {b b' : Binding}
    (hb : b.Corresponds R b') : List.Forall₂ (Binding.Corresponds R) (table.put b) (table'.put b') := by
  induction h with
  | nil => exact .cons hb .nil
  | cons hfirst hrest ih =>
    rw [put, put, hfirst.name, hb.name]
    split
    · exact .cons hb hrest
    · exact .cons hfirst ih

end Bindings

namespace State.Corresponds

variable {s s' : State}

/-- States that correspond still do inside a node. -/
theorem inside (h : s.Corresponds R s') (node : Node) : (s.inside node).Corresponds R (s'.inside node) :=
  ⟨h.bindings, congrArg (· + 1) h.depth, h.lines, h.interrupted, h.calls, h.fresh⟩

theorem leave (h : s.Corresponds R s') : s.leave.Corresponds R s'.leave :=
  ⟨h.bindings, congrArg (· - 1) h.depth, h.lines, h.interrupted, h.calls, h.fresh⟩

/-- States still correspond when both have refused a binding, whatever it is. -/
theorem refused (h : s.Corresponds R s') (b b' : Binding) :
    (s.record (.refused b)).Corresponds R (s'.record (.refused b')) :=
  ⟨h.bindings, h.depth, h.lines, h.interrupted, h.calls, h.fresh⟩

theorem afterBound (h : s.Corresponds R s') {b b' : Binding} (hb : b.Corresponds R b') :
    (s.afterBound b).Corresponds R (s'.afterBound b') :=
  ⟨Bindings.put_corresponding h.bindings hb, h.depth, h.lines, h.interrupted, h.calls, h.fresh⟩

/-- The identities that come into being in both states belong together. -/
theorem supply (h : s.Corresponds R s') :
    R.identities s.nextIdentity s'.nextIdentity ∧
      State.Corresponds R { s with nextIdentity := s.nextIdentity + 1 } { s' with nextIdentity := s'.nextIdentity + 1 } := by
  refine ⟨h.fresh 0, h.bindings, h.depth, h.lines, h.interrupted, h.calls, fun n => ?_⟩
  show R.identities (s.nextIdentity + 1 + n) (s'.nextIdentity + 1 + n)
  rw [Nat.add_assoc, Nat.add_assoc]
  exact h.fresh (1 + n)

end State.Corresponds

/-! ## Calls -/

/-- Two replies do the same to a run, whatever they return. -/
structure Reply.SameEffect (reply reply' : Reply) : Prop where
  lines : reply'.lines = reply.lines
  interrupt : reply'.interrupt = reply.interrupt
  result : Matches (fun _ _ => True) reply.result reply'.result

/-- Functions whose bodies belong together do the same when they are called with corresponding arguments after corresponding
calls: they write the same lines, they ask for an interruption both or neither, and they fail for the same reason or both
return something. -/
def Correspondence.HostsAgree (R : Correspondence) (host host' : Host) : Prop :=
  ∀ ⦃f f' : Builtin⦄ ⦃earlier earlier' : List Call⦄ ⦃arguments arguments' : List Value⦄, R.bodies f.body f'.body →
    List.Forall₂ (Call.Corresponds R) earlier earlier' → List.Forall₂ (Value.Corresponds R) arguments arguments' →
    (f.reply host earlier arguments).SameEffect (f'.reply host' earlier' arguments')

/-- What does not tell corresponding values apart is the same of corresponding lists, place by place. -/
theorem map_corresponding {α : Type} {g : Value → α} (hg : ∀ {v v' : Value}, v.Corresponds R v' → g v' = g v)
    {values values' : List Value} (h : List.Forall₂ (Value.Corresponds R) values values') :
    values'.map g = values.map g := by
  induction h with
  | nil => rfl
  | cons hv _ ih => rw [List.map_cons, List.map_cons, hg hv, ih]

/-- The console writes the same line about corresponding arguments. -/
theorem consoleLine_corresponding {values values' : List Value}
    (h : List.Forall₂ (Value.Corresponds R) values values') : consoleLine values' = consoleLine values := by
  rw [consoleLine, consoleLine, map_corresponding Value.Corresponds.display h]

/-- States that correspond still do after corresponding calls whose replies have the same effect. -/
theorem State.Corresponds.afterCall {s s' : State} (h : s.Corresponds R s') (site : Node) {f f' : Builtin}
    (hbody : R.bodies f.body f'.body) {arguments arguments' : List Value}
    (harguments : List.Forall₂ (Value.Corresponds R) arguments arguments') {reply reply' : Reply}
    (heffect : reply.SameEffect reply') :
    (s.afterCall site f arguments reply).Corresponds R (s'.afterCall site f' arguments' reply') where
  bindings := h.bindings
  depth := h.depth
  lines := by
    show s'.lines ++ reply'.lines = s.lines ++ reply.lines
    rw [h.lines, heffect.lines]
  interrupted := by
    show (s'.interrupted || reply'.interrupt) = (s.interrupted || reply.interrupt)
    rw [h.interrupted, heffect.interrupt]
  calls := .cons ⟨hbody, harguments⟩ h.calls
  fresh := h.fresh

/-- What a call gives does not depend on what the body returns. -/
theorem Reply.SameEffect.outcomeOf {reply reply' : Reply} (h : reply.SameEffect reply') {f f' : Builtin}
    (hname : f'.name = f.name) : Matches (Value.Corresponds R) (f.outcomeOf reply) (f'.outcomeOf reply') := by
  unfold Builtin.outcomeOf
  rcases h.result.cases with ⟨v, v', hv, hv', -⟩ | ⟨e, he, he'⟩
  · rw [hv, hv']
    exact Value.Corresponds.primitive rfl
  · rw [he, he', hname]
    exact rfl

/-- Canned functions do the same, whatever they return. -/
structure Canned.SameEffect (f f' : Canned) : Prop where
  name : f'.name = f.name
  effect : f'.effect = f.effect
  result : Matches (fun _ _ => True) f.result f'.result

/-- Canned functions see of their arguments what inspection shows. -/
theorem Canned.SameEffect.reply {f f' : Canned} (h : f.SameEffect f') {arguments arguments' : List Value}
    (harguments : List.Forall₂ (Value.Corresponds R) arguments arguments') :
    (f.reply arguments).SameEffect (f'.reply arguments') where
  lines := by
    rw [Canned.reply, Canned.reply, Canned.line, Canned.line, h.name, h.effect,
      map_corresponding Value.Corresponds.inspect harguments]
  interrupt := by rw [Canned.reply, Canned.reply, h.effect]
  result := h.result

/-- Hosts of canned functions agree if the functions at each place do the same. -/
theorem Host.ofCanned_agree {functions functions' : Array Canned}
    (hbodies : ∀ {body body' : Body}, R.bodies body body' → body = body')
    (h : ∀ key : Nat, Option.Rel Canned.SameEffect functions[key]? functions'[key]?) :
    R.HostsAgree (.ofCanned functions) (.ofCanned functions') := by
  intro f f' earlier earlier' arguments arguments' hbody _ harguments
  unfold Builtin.reply
  rw [← hbodies hbody]
  cases f.body with
  | consoleLog => exact ⟨by rw [consoleLine_corresponding harguments], rfl, trivial⟩
  | host key =>
    show (Host.ofCanned functions earlier key arguments).SameEffect (Host.ofCanned functions' earlier' key arguments')
    have hkey := h key
    unfold Host.ofCanned
    generalize functions[key]? = x, functions'[key]? = x' at hkey ⊢
    cases hkey with
    | none => exact ⟨rfl, rfl, trivial⟩
    | some hf => exact hf.reply harguments

/-! ## Runs -/

/-- Under hosts that agree, two runs from corresponding states go on in correspondence. -/
theorem Correspondence.simulation {cx cx' : Context} (hmax : cx'.maxDepth = cx.maxDepth)
    (hhosts : R.HostsAgree cx.host cx'.host) : Simulation cx cx' (State.Corresponds R) (Value.Corresponds R) where
  maxDepth := hmax
  interrupted h := h.interrupted
  depth h := h.depth
  inside node h := h.inside node
  leave h := h.leave
  undefined := .primitive rfl
  typeName h := h.typeName
  literal value := by
    cases value with
    | regex r =>
      intro s s' h
      obtain ⟨hnext, hsupply⟩ := h.supply
      exact ⟨Value.Corresponds.regex r hnext, hsupply⟩
    | _ => exact .pure (.primitive rfl)
  apply := by
    intro operator l l' r r' hl hr
    rw [operator.apply_corresponding hl hr]
    cases h : operator.apply l r with
    | ok v => exact Value.Corresponds.primitive (BinaryOperator.isObjectLike_of_apply h)
    | error e => exact rfl
  member property computed h := h.member property computed
  lookUp name := by
    intro s s' h
    rw [after_lookUp, after_lookUp]
    refine ⟨?_, h⟩
    have hfound := Bindings.find?_corresponding h.bindings name
    unfold Run.outcome ScriptTree.lookUp Environment.get Environment.value? Environment.binding?
    generalize s.environment.bindings.find? name = x, s'.environment.bindings.find? name = x' at hfound
    cases hfound with
    | none => exact rfl
    | some hb => exact hb.value
  declare d name v v' kind hv :=
    .declare d (fun h => Bindings.isConst_corresponding h.bindings name) (fun h => h.afterBound ⟨rfl, hv, rfl⟩)
      fun h => h.refused _ _
  call site i i' f f' vs vs' hf hvs := by
    cases hf with
    | primitive hv => cases hv
    | callable _ hname harity hbody =>
      refine .call site ?_ ?_
      · rw [Builtin.checkArity, Builtin.checkArity, hname, harity, hvs.length_eq]
      · intro s s' h
        have heffect := hhosts hbody h.calls hvs
        exact ⟨heffect.outcomeOf hname, h.afterCall site hbody hvs heffect⟩

/-- What a function returns has no influence. From corresponding states, and under hosts whose functions do the same but for
what they return, a node is evaluated to corresponding values or with the same error, and corresponding states are left: with
the same lines and the same interrupt flag, and with the same names bound alike to corresponding values. -/
theorem returned_values_have_no_influence {cx cx' : Context} (hmax : cx'.maxDepth = cx.maxDepth)
    (hhosts : R.HostsAgree cx.host cx'.host) {s s' : State} (hs : s.Corresponds R s') (node : Node) :
    Matches (Value.Corresponds R) ((node.evaluate cx).outcome s) ((node.evaluate cx').outcome s') ∧
      ((node.evaluate cx).after s).Corresponds R ((node.evaluate cx').after s') :=
  (R.simulation hmax hhosts).evaluate node hs

/-- A script that calls a function with itself as the argument. One host returns `null` and the other one a truth value; both
write the same line, and in both runs the name that is declared is bound to `undefined`. -/
theorem null_and_truth_are_dropped_alike :
    let R : Correspondence := .same
    let cx : Context := ⟨9, .ofCanned #[⟨"f", .log, .ok .null⟩]⟩
    let cx' : Context := ⟨9, .ofCanned #[⟨"f", .log, .ok (.boolean true)⟩]⟩
    let s : State := ⟨⟨[⟨"f", .callable 0 ⟨"f", some 1, .host 0⟩, .var⟩], 0⟩, #[], false, 1, [], #[]⟩
    let name : Node := .identifier default "f"
    let script : Node :=
      .declaration default .const [.mk default (.identifier default "x") (some (.call default name [name] false))]
    let after := (script.evaluate cx).after s
    let after' := (script.evaluate cx').after s
    cx'.maxDepth = cx.maxDepth ∧ R.HostsAgree cx.host cx'.host ∧ s.Corresponds R s ∧
      after.Corresponds R after' ∧ after'.lines = #["f[[Function: f]]"] := by
  intro R cx cx' s name script after after'
  have hhosts : R.HostsAgree cx.host cx'.host := Host.ofCanned_agree (fun h => h) fun key => by
    cases key with
    | zero => exact .some ⟨rfl, rfl, trivial⟩
    | succ key => exact .none
  have hs : s.Corresponds R s :=
    ⟨.cons ⟨rfl, .callable rfl rfl rfl rfl, rfl⟩ .nil, rfl, rfl, rfl, .nil, fun _ => rfl⟩
  have hmax : cx'.maxDepth = cx.maxDepth := rfl
  obtain ⟨-, hafter⟩ := returned_values_have_no_influence hmax hhosts hs script
  exact ⟨hmax, hhosts, hs, hafter, by rfl⟩

end ScriptTree
