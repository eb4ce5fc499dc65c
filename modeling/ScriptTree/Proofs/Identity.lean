import ScriptTree.Proofs.Comparison
import ScriptTree.Proofs.Lives

/-!
# Identities come from literals and are kept

A value that a literal of a regular expression gives is unlike every value that there is: its identity is the next one, and
those in a reachable state have been handed out before. Everything else that evaluation does shares the values it is given.
`Value.StemsFrom` says so of one value: whatever in it has an identity was bound before, just as it is, or is a regular
expression that has come into being since. `identity_comes_from_literals` puts both together with what scripts can see of
it: a name goes on being equal to itself, and so does a property of an object.
-/

namespace ScriptTree

/-! ## Where values stem from -/

/-- Whatever in a value has an identity was bound in a state, just as it is, or is a regular expression with an identity that
was handed out after that state. -/
def Value.StemsFrom (v : Value) (s : State) (next : Identity) : Prop :=
  ∀ w : Value, w.Within v → w.isObjectLike = true →
    (∃ b ∈ s.environment.bindings, w.Within b.value) ∨ ∃ i r, w = .regex i r ∧ s.nextIdentity ≤ i ∧ i < next

/-- All the values that there are in a state stem from another one: those that are bound, those that some call has got as
arguments since then, and some that are held beside them. -/
structure Stems (s t : State) (held : List Value) : Prop where
  identities : s.nextIdentity ≤ t.nextIdentity
  bindings : ∀ b ∈ t.environment.bindings, b.value.StemsFrom s t.nextIdentity
  calls : ∀ call ∈ t.calls, call ∈ s.calls ∨ ∀ v ∈ call.arguments, v.StemsFrom s t.nextIdentity
  held : ∀ v ∈ held, v.StemsFrom s t.nextIdentity

namespace Value.StemsFrom

variable {s : State} {v base : Value} {next next' : Identity}

/-- A primitive has no identity in it, so it stems from any state. -/
theorem of_primitive (hv : v.isObjectLike = false) : v.StemsFrom s next := by
  intro w hw hobject
  have hsame : w = v := hw.eq_of_not_object (by rintro i properties rfl; cases hv)
  rw [hsame, hv] at hobject
  cases hobject

/-- More identities may have been handed out in the meantime. -/
theorem mono (h : v.StemsFrom s next) (hle : next ≤ next') : v.StemsFrom s next' := by
  intro w hw hobject
  rcases h w hw hobject with hold | ⟨i, r, rfl, hge, hlt⟩
  · exact Or.inl hold
  · exact Or.inr ⟨i, r, rfl, hge, Nat.lt_of_lt_of_le hlt hle⟩

/-- What is read from a value stems from where the value stems from. -/
theorem member {property : Node} {computed : Bool} (h : base.StemsFrom s next)
    (hv : base.member property computed = .ok v) : v.StemsFrom s next := by
  rcases within_of_member hv with hprimitive | hwithin
  · exact of_primitive hprimitive
  · intro w hw
    exact h w (hw.trans hwithin)

end Value.StemsFrom

/-- The values that are bound in a state stem from it. -/
theorem Stems.refl (s : State) : Stems s s [] where
  identities := Nat.le_refl _
  bindings b hb _ hw _ := Or.inl ⟨b, hb, hw⟩
  calls _ hcall := Or.inl hcall
  held := List.forall_mem_nil _

/-- Evaluation shares the values that it is given, and makes none but regular expressions. -/
theorem stems_invariant (cx : Context) (s : State) : Invariant cx (Stems s) where
  drop hsub h := ⟨h.identities, h.bindings, h.calls, fun v hv => h.held v (hsub hv)⟩
  inside _ h := ⟨h.identities, h.bindings, h.calls, h.held⟩
  leave h := ⟨h.identities, h.bindings, h.calls, h.held⟩
  primitive hv h := ⟨h.identities, h.bindings, h.calls, List.forall_mem_cons.mpr ⟨.of_primitive hv, h.held⟩⟩
  regex {t held} r h := by
    have hle : t.nextIdentity ≤ t.nextIdentity + 1 := Nat.le_succ _
    refine ⟨Nat.le_trans h.identities hle, fun b hb => (h.bindings b hb).mono hle,
      fun call hcall => (h.calls call hcall).imp_right fun hs v hv => (hs v hv).mono hle, ?_⟩
    refine List.forall_mem_cons.mpr ⟨?_, fun v hv => (h.held v hv).mono hle⟩
    intro w hw _
    obtain rfl : w = .regex t.nextIdentity r := hw.eq_of_not_object nofun
    exact Or.inr ⟨_, r, rfl, h.identities, Nat.lt_succ_self _⟩
  member hv h := by
    obtain ⟨hbase, hheld⟩ := List.forall_mem_cons.mp h.held
    exact ⟨h.identities, h.bindings, h.calls, List.forall_mem_cons.mpr ⟨hbase.member hv, hheld⟩⟩
  lookUp hb h :=
    ⟨h.identities, h.bindings, h.calls,
      List.forall_mem_cons.mpr ⟨h.bindings _ (List.mem_of_find?_eq_some hb), h.held⟩⟩
  bound b _ h := by
    obtain ⟨hvalue, hheld⟩ := List.forall_mem_cons.mp h.held
    exact ⟨h.identities, Bindings.forall_mem_put hvalue h.bindings, h.calls, hheld⟩
  refused _ h := ⟨h.identities, h.bindings, h.calls, h.held⟩
  call site f _ h := by
    obtain ⟨harguments, hheld⟩ := List.forall_mem_append.mp h.held
    exact ⟨h.identities, h.bindings, List.forall_mem_cons.mpr ⟨Or.inr harguments, h.calls⟩, hheld⟩

/-! ## Equal and unlike -/

namespace Value

/-- Whether a value is NaN. -/
def isNan : Value → Bool
  | .number x => x.isNan
  | _ => false

/-- Two values are unequal for a script, whichever stands on the left. -/
def Unlike (v w : Value) : Prop := BinaryOperator.strictUnequal.Holds v w ∧ BinaryOperator.strictUnequal.Holds w v

/-- A value equals itself unless it is NaN. -/
theorem strictEquals_self {v : Value} (h : v.isNan = false) : v.strictEquals v = true := by
  cases v with
  | number x => exact Double.equals_self h
  | _ => simp [strictEquals]

/-- A regular expression is unlike every value that does not have its identity. -/
theorem unlike_of_not_mem {i : Identity} {w : Value} (r : Regex) (h : i ∉ w.identities) : (Value.regex i r).Unlike w := by
  have hunequal : (Value.regex i r).strictEquals w = false ∧ w.strictEquals (.regex i r) = false := by
    cases w with
    | regex j r' =>
      have hne : i ≠ j := by simpa [identities] using h
      exact ⟨beq_false_of_ne hne, beq_false_of_ne hne.symm⟩
    | _ => exact ⟨rfl, rfl⟩
  unfold Unlike BinaryOperator.Holds BinaryOperator.apply
  rw [hunequal.1, hunequal.2]
  exact ⟨rfl, rfl⟩

/-- Regular expressions with different identities are unlike, also if they have the same pattern and flags. -/
theorem unlike_of_ne {i j : Identity} (r r' : Regex) (h : i ≠ j) : (Value.regex i r).Unlike (.regex j r') :=
  unlike_of_not_mem r (by simpa [identities] using h)

end Value

/-! ## What literals produce -/

/-- The evaluation of a node from a state meets a literal of a regular expression in a state, and the literal has a value
there. -/
def Produces (cx : Context) (s : State) (node : Node) (u : State) (v : Value) : Prop :=
  ∃ span r, Meets cx s node (.literal span (.regex r)) u ∧ ((Node.literal span (.regex r)).evaluate cx).outcome u = .ok v

/-- The record goes on, and no identity is taken back. -/
def Prolongs (s t : State) : Prop := s.events.toList <+: t.events.toList ∧ s.nextIdentity ≤ t.nextIdentity

theorem Prolongs.trans {s t u : State} (h : Prolongs s t) (h' : Prolongs t u) : Prolongs s u :=
  ⟨h.1.trans h'.1, Nat.le_trans h.2 h'.2⟩

/-- A record only adds to the record. -/
theorem prolongs_record (s : State) (event : Event) : Prolongs s (s.record event) := by
  refine ⟨?_, Nat.le_refl _⟩
  unfold State.record
  rw [Array.toList_push]
  exact List.prefix_append _ _

/-- Every change of a run only adds to the record and hands out identities. -/
theorem prolongs_stepwise (cx : Context) : Stepwise cx Prolongs where
  refl _ := ⟨List.prefix_refl _, Nat.le_refl _⟩
  trans := Prolongs.trans
  node node _ _ h := (prolongs_record _ (.entered node _)).trans h
  fresh _ := ⟨List.prefix_refl _, Nat.le_succ _⟩
  bound b _ := prolongs_record _ (.bound b)
  refused b _ := prolongs_record _ (.refused b)
  call s site f arguments _ := prolongs_record s (.calling site f.name arguments.length)

namespace Produces

variable {cx : Context} {s u u' : State} {node : Node} {v v' : Value}

/-- A literal that is met has a value if there is room for it. -/
theorem of_hasRoom {span : Span} {r : Regex} (hmeets : Meets cx s node (.literal span (.regex r)) u)
    (hroom : u.HasRoom cx 1) : Produces cx s node u (.regex u.nextIdentity r) :=
  ⟨span, r, hmeets, (evaluate_regex hroom span r).1⟩

/-- What a literal produces is a regular expression with the next identity. -/
theorem value (h : Produces cx s node u v) : ∃ r, v = .regex u.nextIdentity r := by
  obtain ⟨span, r, -, hv⟩ := h
  exact ⟨r, (evaluate_regex_eq_ok_iff.mp hv).2⟩

/-- Up to the literal as many identities were handed out as literals were entered. -/
theorem creates (h : Produces cx s node u v) : Creates s u := by
  obtain ⟨_, _, hmeets, -⟩ := h
  exact (creates_nodewise cx).meets hmeets

/-- By the end of a run in which a literal has a value its identity has been handed out, and
the record shows the literal next. -/
theorem recorded (h : Produces cx s node u v) :
    u.nextIdentity < ((node.evaluate cx).after s).nextIdentity ∧
      ∃ r entry, v = .regex u.nextIdentity r ∧ View.regexes.ofEvent entry = [r] ∧
        u.events.toList ++ [entry] <+: ((node.evaluate cx).after s).events.toList := by
  obtain ⟨span, r, hmeets, hv⟩ := h
  obtain ⟨hroom, rfl⟩ := evaluate_regex_eq_ok_iff.mp hv
  have hrest : Prolongs _ ((node.evaluate cx).after s) :=
    Moment.respects ⟨_, u, hmeets, .after⟩ (prolongs_stepwise cx) fun s => ⟨List.prefix_refl _, Nat.le_refl _⟩
  rw [(evaluate_regex hroom span r).2] at hrest
  obtain ⟨hevents, hidentities⟩ := hrest
  refine ⟨hidentities, r, .entered (.literal span (.regex r)) (u.environment.depth + 1), rfl, rfl, ?_⟩
  rwa [State.record, Array.toList_push] at hevents

/-- At one place of the record there is one literal, with one value. -/
theorem eq_of_size_eq (h : Produces cx s node u v) (h' : Produces cx s node u' v')
    (hsize : u'.events.size = u.events.size) : v' = v := by
  obtain ⟨-, r, entry, hv, hentry, hend⟩ := h.recorded
  obtain ⟨-, r', entry', hv', hentry', hend'⟩ := h'.recorded
  obtain ⟨created, hview, hcount⟩ := h.creates
  obtain ⟨created', hview', hcount'⟩ := h'.creates
  have hrecord : u'.events.toList ++ [entry'] = u.events.toList ++ [entry] := by
    refine (List.prefix_of_prefix_length_le hend' hend ?_).eq_of_length ?_ <;> simp [hsize]
  obtain ⟨hevents, hentries⟩ := List.append_inj' hrecord rfl
  have hr : r' = r := by
    rw [List.singleton_inj] at hentries
    rw [hentries, hentry] at hentry'
    exact (List.singleton_inj.mp hentry').symm
  have hcreated : created' = created := by
    have hsame : View.regexes.ofState u' = View.regexes.ofState u := congrArg (List.flatMap View.regexes.ofEvent) hevents
    rw [hview, hview'] at hsame
    exact List.append_cancel_left hsame
  rw [hv, hv', hcount, hcount', hcreated, hr]

/-- Of two literals that have values in one run the earlier one in the record has the smaller identity. -/
theorem lt_of_size_lt (h : Produces cx s node u v) (h' : Produces cx s node u' v')
    (hsize : u.events.size < u'.events.size) : u.nextIdentity < u'.nextIdentity := by
  obtain ⟨-, r, entry, -, hentry, hend⟩ := h.recorded
  obtain ⟨-, _, entry', -, -, hend'⟩ := h'.recorded
  obtain ⟨created, hview, hcount⟩ := h.creates
  obtain ⟨created', hview', hcount'⟩ := h'.creates
  have hbetween : u.events.toList ++ [entry] <+: u'.events.toList := by
    refine List.prefix_of_prefix_length_le hend ((List.prefix_append _ _).trans hend') ?_
    simpa using Nat.succ_le_of_lt hsize
  obtain ⟨more, hmore⟩ := hbetween
  have hregexes : View.regexes.ofState u' = View.regexes.ofState u ++ r :: more.flatMap View.regexes.ofEvent := by
    simp [View.ofState, ← hmore, hentry]
  have hlength := congrArg List.length hregexes
  rw [hview, hview'] at hlength
  simp only [List.length_append, List.length_cons] at hlength
  have hlt : created.length < created'.length := by omega
  rw [hcount, hcount']
  exact Nat.add_lt_add_left hlt _

/-- Literals at different places of the record have unlike values. -/
theorem unlike_of_size_ne (h : Produces cx s node u v) (h' : Produces cx s node u' v')
    (hsize : u'.events.size ≠ u.events.size) : v.Unlike v' := by
  have hne : u.nextIdentity ≠ u'.nextIdentity := by
    rcases Nat.lt_or_gt_of_ne hsize with hlt | hlt
    · exact Nat.ne_of_gt (h'.lt_of_size_lt h hlt)
    · exact Nat.ne_of_lt (h.lt_of_size_lt h' hlt)
  obtain ⟨r, rfl⟩ := h.value
  obtain ⟨r', rfl⟩ := h'.value
  exact Value.unlike_of_ne r r' hne

/-- What a literal produces in a later run is unlike what one has produced before. -/
theorem unlike_of_lives {cx' : Context} {t : State} {node' : Node} (h : Produces cx s node u v)
    (hlives : Lives ((node.evaluate cx).after s) t) (h' : Produces cx' t node' u' v') : v.Unlike v' := by
  obtain ⟨hlt, -⟩ := h.recorded
  obtain ⟨r, rfl⟩ := h.value
  obtain ⟨r', rfl⟩ := h'.value
  obtain ⟨_, _, hmeets, -⟩ := h'
  have hle : t.nextIdentity ≤ u'.nextIdentity := ((creates_nodewise cx').meets hmeets).le
  have hne : u.nextIdentity ≠ u'.nextIdentity :=
    Nat.ne_of_lt (Nat.lt_of_lt_of_le hlt (Nat.le_trans hlives.grows.identities hle))
  exact Value.unlike_of_ne r r' hne

/-- What a literal produces in a reachable state is unlike every value that is bound there or stored in one that is. -/
theorem unlike_of_bound (h : Produces cx s node u v) (hs : s.Reachable) {b : Binding} (hb : b ∈ u.environment.bindings)
    {w : Value} (hw : w.Within b.value) : v.Unlike w := by
  obtain ⟨r, rfl⟩ := h.value
  obtain ⟨_, _, hmeets, -⟩ := h
  have hu : u.Reachable := hs.lives (.single (.met hmeets))
  apply Value.unlike_of_not_mem
  intro hmem
  exact Nat.lt_irrefl _ (hu.supplied.bindings b hb _ (hw.identities_subset hmem))

end Produces

/-! ## What scripts see of identities -/

/-- In a state two expressions are equal for a script, wherever there is room for so many nodes. -/
def State.Equates (s : State) (levels : Nat) (left right : Node) : Prop :=
  ∀ cx span, s.HasRoom cx levels → Yields cx s (.binary span left .strictEqual right) (.boolean true)

/-- The declaration `const y = x`. -/
def constantOf (declaration declarator target source : Span) (y x : String) : Node :=
  .declaration declaration .const [.mk declarator (.identifier target y) (some (.identifier source x))]

/-- The expression `x.name`, or `x?.name`. -/
def propertyOf (expression object property : Span) (x name : String) (optional : Bool) : Node :=
  .member expression (.identifier object x) (.identifier property name) false optional

section Names

variable {cx : Context} {s t u : State} {x y : String} {b c : Binding} {i : Identity} {properties : List (String × Value)}
  {name : String} {w : Value}

theorem get_of_binding? (h : s.environment.binding? x = some b) : s.environment.get x = .ok b.value := by
  simp [Environment.get, Environment.value?, h]

/-- Expressions that yield the same value, which is not NaN, are equal. -/
theorem Yields.strictEqual (span : Span) {left right : Node} {v : Value} {levels : Nat} (hroom : s.HasRoom cx (levels + 1))
    (hv : v.isNan = false) (hleft : Yields cx (s.inside (.binary span left .strictEqual right)) left v)
    (hright : Yields cx (s.inside (.binary span left .strictEqual right)) right v) :
    Yields cx s (.binary span left .strictEqual right) (.boolean true) := by
  refine .binary span hroom hleft hright ?_
  rw [BinaryOperator.apply, Value.strictEquals_self hv]

/-- Two names of one value are equal. -/
theorem State.equates_names (hx : s.environment.binding? x = some b) (hy : s.environment.binding? y = some c)
    (hvalue : c.value = b.value) (hnan : b.value.isNan = false) (left right : Span) :
    s.Equates 2 (.identifier left x) (.identifier right y) := by
  intro cx span hroom
  have hinside := hroom.inside (.binary span (.identifier left x) .strictEqual (.identifier right y))
  refine .strictEqual span hroom hnan (.identifier left hinside (get_of_binding? hx)) (.identifier right hinside ?_)
  rw [← hvalue]
  exact get_of_binding? hy

/-- Reading a property of an object that is bound to a name gives what is stored there, as it is. -/
theorem Yields.propertyOf (hx : s.environment.binding? x = some b) (hobject : b.value = .object i properties)
    (hw : properties.lookup name = some w) (p o q : Span) (optional : Bool) (hroom : s.HasRoom cx 2) :
    Yields cx s (propertyOf p o q x name optional) w := by
  refine .member p hroom (.identifier o (hroom.inside _) (get_of_binding? hx)) ?_
  rw [hobject]
  simp [Value.member, Value.isNullish, Value.property?, hw]

/-- Two reads of a property of an object that is bound to a name are equal. -/
theorem State.equates_propertyOf (hx : s.environment.binding? x = some b) (hobject : b.value = .object i properties)
    (hw : properties.lookup name = some w) (hnan : w.isNan = false) (p o q p' o' q' : Span) (optional optional' : Bool) :
    s.Equates 3 (propertyOf p o q x name optional) (propertyOf p' o' q' x name optional') := by
  intro cx span hroom
  have hinside := hroom.inside (.binary span (propertyOf p o q x name optional) .strictEqual
    (propertyOf p' o' q' x name optional'))
  exact .strictEqual span hroom hnan (.propertyOf (s := s.inside _) hx hobject hw p o q optional hinside)
    (.propertyOf (s := s.inside _) hx hobject hw p' o' q' optional' hinside)

/-- The work of `const y = x` is to read the one name and to bind the other. -/
theorem work_constantOf (cx : Context) (p q r o : Span) (y x : String) :
    (constantOf p q r o y x).work cx = do
      let value ← (Node.identifier o x).evaluate cx
      Declarator.bind (.mk q (.identifier r y) (some (.identifier o x))) y value .const
      return .undefined := by
  have hname : (Declarator.mk q (.identifier r y) (some (.identifier o x))).name = .ok y := rfl
  simp [constantOf, Node.work, evaluateDeclarators, Declarator.evaluate, evaluateInit, hname]

/-- After `const y = x` has been evaluated, the name `y` is bound to the value of `x`. -/
theorem bindings_after_constantOf {p q r o : Span} {v : Value} (hx : s.environment.binding? x = some b)
    (h : ((constantOf p q r o y x).evaluate cx).outcome s = .ok v) :
    (((constantOf p q r o y x).evaluate cx).after s).environment.bindings =
      s.environment.bindings.put ⟨y, b.value, .const⟩ := by
  obtain ⟨hroom, hwork⟩ := room_of_ok h
  rw [hroom.after_evaluate]
  rw [work_constantOf] at hwork ⊢
  obtain ⟨value, hvalue, hrest⟩ := Run.outcome_bind_eq_ok_iff.mp hwork
  obtain ⟨_, hbind, -⟩ := Run.outcome_bind_eq_ok_iff.mp hrest
  have hyields : Yields cx (s.inside (constantOf p q r o y x)) (.identifier o x) b.value :=
    .identifier o (room_of_ok hvalue).1 (get_of_binding? hx)
  obtain rfl : b.value = value := Except.ok.inj (hyields.1.symm.trans hvalue)
  rw [Run.after_bind_ok hvalue, Run.after_bind_ok hbind]
  rcases Declarator.bind_cases _ y b.value .const _ with ⟨-, -, ha⟩ | ⟨-, ho, -⟩
  · rw [Run.after_pure, ha]
    show Bindings.put _ _ = _
    rw [hyields.2.environment]
    rfl
  · rw [ho] at hbind
    cases hbind

/-- After `const y = x` the two names are equal for as long as `x` is not bound again. -/
theorem State.equates_after_constantOf {p q r o : Span} {v : Value} (hs : s.Reachable)
    (hx : s.environment.binding? x = some b) (hnan : b.value.isNan = false)
    (h : ((constantOf p q r o y x).evaluate cx).outcome s = .ok v) (hu : u.Reachable)
    (hkeeps : KeepsName x (((constantOf p q r o y x).evaluate cx).after s) u) (left right : Span) :
    u.Equates 2 (.identifier left x) (.identifier right y) := by
  have hafter := hs.evaluated cx (constantOf p q r o y x)
  have hput := bindings_after_constantOf hx h
  have hy : (((constantOf p q r o y x).evaluate cx).after s).environment.bindings.find? y =
      some ⟨y, b.value, .const⟩ := by
    rw [hput]
    exact Bindings.find?_put_self _ ⟨y, b.value, .const⟩
  obtain ⟨b', hb', hvalue⟩ : ∃ b', u.environment.binding? x = some b' ∧ b'.value = b.value := by
    rw [hkeeps.binding?_eq hafter hu]
    by_cases hyx : y = x
    · subst hyx
      exact ⟨_, hy, rfl⟩
    · refine ⟨b, ?_, rfl⟩
      rw [Environment.binding?, hput]
      exact (Bindings.find?_put_of_ne _ hyx).trans hx
  have hyu : u.environment.binding? y = some ⟨y, b.value, .const⟩ :=
    hkeeps.binding?_of_const (b := ⟨y, b.value, .const⟩) hafter hu hy rfl
  exact State.equates_names hb' hyu hvalue.symm (by rw [hvalue]; exact hnan) left right

end Names

/-! ## The main statement -/

/-- Identities come from literals of regular expressions and are kept everywhere else. A run from a reachable state hands out
as many as it enters such literals, and everything that has an identity after it was bound before, just as it is, or is one
of the regular expressions. A literal that there is room for has a value, and it is unlike everything that is bound there or
stored in what is bound, and unlike what any other literal produces: one at another place of the record of the same run, or
one in a later run. For as long as a name is not bound again it is equal to itself, unless its value is NaN, and to a
constant that is made of it; and if it is bound to an object, every read of a property gives the same value, equal to itself
unless it is NaN. -/
theorem identity_comes_from_literals {s : State} (hs : s.Reachable) :
    (∀ cx node,
      let t := (node.evaluate cx).after s
      Creates s t ∧ Stems s t [] ∧
      (∀ v, (node.evaluate cx).outcome s = .ok v → v.StemsFrom s t.nextIdentity) ∧
      (∀ u span r, Meets cx s node (.literal span (.regex r)) u → u.HasRoom cx 1 →
        Produces cx s node u (.regex u.nextIdentity r)) ∧
      ∀ u v, Produces cx s node u v →
        (∀ b ∈ u.environment.bindings, ∀ w : Value, w.Within b.value → v.Unlike w) ∧
        (∀ u' v', Produces cx s node u' v' →
          (u'.events.size = u.events.size → v' = v) ∧ (u'.events.size ≠ u.events.size → v.Unlike v')) ∧
        ∀ t' cx' node' u' v', Lives t t' → Produces cx' t' node' u' v' → v.Unlike v') ∧
    ∀ x b t, s.environment.binding? x = some b → t.Reachable → KeepsName x s t →
      (b.value.isNan = false →
        (∀ q r, t.Equates 2 (.identifier q x) (.identifier r x)) ∧
        ∀ cx p q r o y v, ((constantOf p q r o y x).evaluate cx).outcome t = .ok v →
          ∀ u, u.Reachable → KeepsName x (((constantOf p q r o y x).evaluate cx).after t) u →
            ∀ q r, u.Equates 2 (.identifier q x) (.identifier r y)) ∧
      ∀ i properties name w, b.value = .object i properties → properties.lookup name = some w →
        (∀ cx p o q optional, t.HasRoom cx 2 → Yields cx t (propertyOf p o q x name optional) w) ∧
        (w.isNan = false → w.strictEquals w = true ∧
          ∀ p o q p' o' q' optional optional',
            t.Equates 3 (propertyOf p o q x name optional) (propertyOf p' o' q' x name optional')) := by
  constructor
  · intro cx node t
    obtain ⟨hstems, hvalue⟩ := (stems_invariant cx s).evaluate node (Stems.refl s)
    refine ⟨(creates_nodewise cx).evaluate node s, hstems, ?_, fun u span r => Produces.of_hasRoom, ?_⟩
    · intro v hv
      exact (hvalue v hv).held v List.mem_cons_self
    · intro u v hproduces
      refine ⟨?_, ?_, ?_⟩
      · intro b hb w hw
        exact hproduces.unlike_of_bound hs hb hw
      · intro u' v' hproduces'
        exact ⟨hproduces.eq_of_size_eq hproduces', hproduces.unlike_of_size_ne hproduces'⟩
      · intro t' cx' node' u' v' hlives hproduces'
        exact hproduces.unlike_of_lives hlives hproduces'
  · intro x b t hb ht hkeeps
    have hbt : t.environment.binding? x = some b := (hkeeps.binding?_eq hs ht).trans hb
    refine ⟨?_, ?_⟩
    · intro hnan
      refine ⟨State.equates_names hbt hbt rfl hnan, ?_⟩
      intro cx p q r o y v hv u hu hkeeps'
      exact State.equates_after_constantOf ht hbt hnan hv hu hkeeps'
    · intro i properties name w hobject hw
      refine ⟨fun cx p o q optional => .propertyOf hbt hobject hw p o q optional, fun hnan => ?_⟩
      exact ⟨Value.strictEquals_self hnan, State.equates_propertyOf hbt hobject hw hnan⟩

/-- In `/a/g === /a/g` the two literals produce unlike values, and both are unlike the console. The console is equal to a
constant that is made of it, and its one function to itself. -/
theorem equal_literals_are_unlike :
    let cx : Context := ⟨9, .silent⟩
    let literal : Node := .literal default (.regex ⟨"a", "g"⟩)
    let node : Node := .binary default literal .strictEqual literal
    let left := State.initial.inside node
    let right := (literal.evaluate cx).after left
    let constant := constantOf default default default default "c" "console"
    let t := (constant.evaluate cx).after .initial
    Produces cx .initial node left (.regex 2 ⟨"a", "g"⟩) ∧ Produces cx .initial node right (.regex 3 ⟨"a", "g"⟩) ∧
      (Value.regex 2 ⟨"a", "g"⟩).Unlike (.regex 3 ⟨"a", "g"⟩) ∧
      (Value.regex 2 ⟨"a", "g"⟩).Unlike (State.console 0 1) ∧
      t.Equates 2 (.identifier default "console") (.identifier default "c") ∧
      State.initial.Equates 3 (propertyOf default default default "console" "log" false)
        (propertyOf default default default "console" "log" true) := by
  intro cx literal node left right constant t
  obtain ⟨hruns, hnames⟩ := identity_comes_from_literals State.initial_reachable
  obtain ⟨-, -, -, hproduces, hunlike⟩ := hruns cx node
  have hleft : Produces cx .initial node left (.regex 2 ⟨"a", "g"⟩) :=
    hproduces left default ⟨"a", "g"⟩ (.part ⟨rfl, by decide⟩ .left .self) ⟨rfl, by decide⟩
  have hright : Produces cx .initial node right (.regex 3 ⟨"a", "g"⟩) := by
    refine hproduces right default ⟨"a", "g"⟩ (.part ⟨rfl, by decide⟩ (.right rfl) .self) ⟨rfl, by decide⟩
  obtain ⟨hbound, hothers, -⟩ := hunlike left _ hleft
  have hconsole : State.initial.environment.binding? "console" = some ⟨"console", State.console 0 1, .var⟩ := rfl
  have hkeeps : ∀ s, KeepsName "console" s s := fun s => ⟨[], (List.append_nil _).symm, List.forall_mem_nil _⟩
  obtain ⟨hequal, hproperties⟩ := hnames "console" _ .initial hconsole State.initial_reachable (hkeeps _)
  refine ⟨hleft, hright, (hothers right _ hright).2 (by decide), ?_, ?_, ?_⟩
  · exact hbound ⟨"console", State.console 0 1, .var⟩ List.mem_cons_self _ .self
  · exact (hequal rfl).2 cx default default default default "c" .undefined rfl t
      (State.initial_reachable.evaluated cx constant) (hkeeps t) default default
  · obtain ⟨-, hreads⟩ := hproperties 0 _ "log" _ rfl rfl
    exact (hreads rfl).2 default default default default default default false true

end ScriptTree
