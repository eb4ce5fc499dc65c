import ScriptTree.Proofs.MentionedNames
import ScriptTree.Proofs.Moments

/-!
# Declarations that fail

The declarators of a declaration are evaluated and bound one after the other. One of them may fail in three ways: by its
target, before anything else is looked at; by its initial value; or by its name, if that is a constant, after the initial
value has been evaluated. `declaration_keeps_bound_prefix` says that in all three cases exactly the declarators before it
stay bound, and that none behind it matters.
-/

namespace ScriptTree

/-! ## One declarator -/

/-- Some node that is evaluated in the course of a node is a declaration. -/
def Node.Declares (node : Node) : Prop := ∃ inner ∈ node.walk, inner.kind? = some .declaration

/-- No initial value of a declarator contains a declaration. -/
def Declarator.IsPlain (d : Declarator) : Prop := ∀ init ∈ d.init, ¬init.Declares

/-- In a state, a declarator takes effect: its initial value has a value there, and it binds its name to that value. What is
left is the state after the initial value with the binding in its table, and the table is the one from before but for the
binding. -/
structure Declarator.Binds (cx : Context) (kind : DeclarationKind) (s : State) (d : Declarator) (b : Binding) (t : State) :
    Prop where
  name : d.name = .ok b.name
  value : (evaluateInit cx d.init).outcome s = .ok b.value
  kind : b.kind = kind
  free : ((evaluateInit cx d.init).after s).environment.bindings.isConst b.name = false
  state : t = ((evaluateInit cx d.init).after s).afterBound b
  table : t.environment.bindings = s.environment.bindings.put b

/-- In a state, a declarator fails with an error and leaves another state behind. -/
inductive Declarator.Fails (cx : Context) (kind : DeclarationKind) (s : State) (d : Declarator) :
    EvalError → State → Prop
  | target {e : EvalError} (hname : d.name = .error e) : Fails cx kind s d e s
  | init {e : EvalError} {name : String} {init : Node} (hname : d.name = .ok name) (hinit : d.init = some init)
      (h : (init.evaluate cx).outcome s = .error e) : Fails cx kind s d e ((init.evaluate cx).after s)
  | constant {name : String} {value : Value} (hname : d.name = .ok name)
      (hinit : (evaluateInit cx d.init).outcome s = .ok value)
      (hconst : ((evaluateInit cx d.init).after s).environment.bindings.isConst name = true) :
      Fails cx kind s d (.located (.constReassigned name) d.span)
        (((evaluateInit cx d.init).after s).record (.refused ⟨name, value, kind⟩))

section

variable {cx : Context} {kind : DeclarationKind} {s t mid last : State} {d : Declarator} {ds : List Declarator}
  {b : Binding} {bs : List Binding} {e : EvalError}

/-- A node without a declaration in it binds no name. -/
theorem Node.targets_of_not_declares {node : Node} (h : ¬node.Declares) : node.targets = [] := by
  refine List.flatMap_eq_nil_iff.mpr fun inner hm => ?_
  cases inner with
  | declaration => exact absurd ⟨_, hm, rfl⟩ h
  | _ => rfl

/-- Without a declaration in it a node leaves the table as it is, whether it has a value or fails. -/
theorem Node.bindings_after (cx : Context) {node : Node} (h : ¬node.Declares) (s : State) :
    ((node.evaluate cx).after s).environment.bindings = s.environment.bindings := by
  have hkept := (keepsOthers_stepwise cx []).evaluate (List.subset_nil.mpr (Node.targets_of_not_declares h)) s
  simpa [State.bindingsBut] using hkept

/-- Without a declaration in it an initial value leaves the table as it is. -/
theorem Declarator.IsPlain.bindings_after (h : d.IsPlain) (cx : Context) (s : State) :
    ((evaluateInit cx d.init).after s).environment.bindings = s.environment.bindings := by
  unfold Declarator.IsPlain at h
  cases hinit : d.init with
  | none => rw [evaluateInit, Run.after_pure]
  | some init =>
    rw [evaluateInit]
    exact Node.bindings_after cx (h init hinit) s

/-- A declarator whose target is a name evaluates its initial value and binds the name to it. -/
theorem Declarator.evaluate_of_name {name : String} (h : d.name = .ok name) :
    d.evaluate cx kind = evaluateInit cx d.init >>= fun value => d.bind name value kind := by
  obtain ⟨span, target, init⟩ := d
  rw [Declarator.evaluate.eq_def, h]
  rfl

/-- A declarator that takes effect ends in the state that it is said to leave. -/
theorem Declarator.Binds.evaluate (h : d.Binds cx kind s b t) :
    (d.evaluate cx kind).outcome s = .ok () ∧ (d.evaluate cx kind).after s = t := by
  rw [Declarator.evaluate_of_name h.name, Run.outcome_bind_ok h.value, Run.after_bind_ok h.value]
  rcases d.bind_cases b.name b.value kind ((evaluateInit cx d.init).after s) with ⟨-, ho, ha⟩ | ⟨hconst, -, -⟩
  · refine ⟨ho, ?_⟩
    rw [ha, h.state, ← h.kind]
  · rw [h.free] at hconst
    nomatch hconst

/-- A declarator that fails ends with the error, and in the state, that it is said to have. -/
theorem Declarator.Fails.evaluate (h : d.Fails cx kind s e t) :
    (d.evaluate cx kind).outcome s = .error e ∧ (d.evaluate cx kind).after s = t := by
  cases h with
  | target hname =>
    obtain ⟨span, target, init⟩ := d
    rw [Declarator.evaluate.eq_def, hname]
    exact ⟨rfl, rfl⟩
  | init hname hinit h =>
    have hvalue : (evaluateInit cx d.init).outcome s = .error e := by
      rw [hinit, evaluateInit]
      exact h
    rw [Declarator.evaluate_of_name hname, Run.outcome_bind_error hvalue, Run.after_bind_error hvalue, hinit, evaluateInit]
    exact ⟨rfl, rfl⟩
  | @constant name value hname hinit hconst =>
    rw [Declarator.evaluate_of_name hname, Run.outcome_bind_ok hinit, Run.after_bind_ok hinit]
    rcases d.bind_cases name value kind ((evaluateInit cx d.init).after s) with ⟨hfree, -, -⟩ | ⟨-, ho, ha⟩
    · rw [hfree] at hconst
      nomatch hconst
    · exact ⟨ho, ha⟩

/-- A declarator takes effect or fails. -/
theorem Declarator.binds_or_fails (cx : Context) (kind : DeclarationKind) (s : State) (h : d.IsPlain) :
    (∃ b t, d.Binds cx kind s b t) ∨ ∃ e t, d.Fails cx kind s e t := by
  cases hname : d.name with
  | error e => exact .inr ⟨e, s, .target hname⟩
  | ok name =>
    cases hinit : (evaluateInit cx d.init).outcome s with
    | error e =>
      obtain ⟨init, hsome, herror⟩ := evaluateInit_eq_error_iff.mp hinit
      exact .inr ⟨e, _, .init hname hsome herror⟩
    | ok value =>
      cases hconst : ((evaluateInit cx d.init).after s).environment.bindings.isConst name with
      | true => exact .inr ⟨_, _, .constant hname hinit hconst⟩
      | false =>
        have htable := congrArg (Bindings.put · ⟨name, value, kind⟩) (h.bindings_after cx s)
        exact .inl ⟨⟨name, value, kind⟩, _, hname, hinit, rfl, hconst, rfl, htable⟩

/-- A declarator that fails leaves the table as it is, also if its initial value was evaluated before. -/
theorem Declarator.Fails.bindings (h : d.Fails cx kind s e t) (hplain : d.IsPlain) :
    t.environment.bindings = s.environment.bindings := by
  cases h with
  | target => rfl
  | init _ hinit => exact Node.bindings_after cx (hplain _ hinit) s
  | constant => exact hplain.bindings_after cx s

/-! ## Declarators in a row -/

/-- From a state, declarators in a row take effect, each in the state that the one before it has left. -/
inductive DeclaratorsBind (cx : Context) (kind : DeclarationKind) :
    State → List Declarator → List Binding → State → Prop
  | nil (s : State) : DeclaratorsBind cx kind s [] [] s
  | cons {s mid t : State} {d : Declarator} {ds : List Declarator} {b : Binding} {bs : List Binding}
      (hd : d.Binds cx kind s b mid) (hds : DeclaratorsBind cx kind mid ds bs t) :
      DeclaratorsBind cx kind s (d :: ds) (b :: bs) t

/-- Declarators in a row that take effect end in the state that the last of them leaves. -/
theorem DeclaratorsBind.evaluate (h : DeclaratorsBind cx kind s ds bs t) :
    (evaluateDeclarators cx kind ds).outcome s = .ok () ∧ (evaluateDeclarators cx kind ds).after s = t := by
  induction h with
  | nil s =>
    rw [evaluateDeclarators]
    exact ⟨rfl, rfl⟩
  | cons hd _ ih =>
    obtain ⟨ho, ha⟩ := hd.evaluate
    rw [evaluateDeclarators, Run.outcome_bind_ok ho, Run.after_bind_ok ho, ha]
    exact ih

/-- The table afterwards is the one from before with the bindings put into it in order. -/
theorem DeclaratorsBind.bindings (h : DeclaratorsBind cx kind s ds bs t) :
    t.environment.bindings = bs.foldl Bindings.put s.environment.bindings := by
  induction h with
  | nil => rfl
  | cons hd _ ih => rw [ih, hd.table, List.foldl_cons]

/-- Putting bindings into a table leaves the names of no binding as they were. -/
theorem Bindings.find?_foldl_put {name : String} (h : name ∉ bs.map Binding.name) (table : Bindings) :
    (bs.foldl Bindings.put table).find? name = table.find? name := by
  induction bs generalizing table with
  | nil => rfl
  | cons b bs ih =>
    rw [List.map_cons, List.mem_cons, not_or] at h
    rw [List.foldl_cons, ih h.2, Bindings.find?_put_of_ne table (Ne.symm h.1)]

/-- The declarators before a failing one have been evaluated, and none behind it is. -/
theorem DeclaratorsBind.evaluate_failing (h : DeclaratorsBind cx kind s ds bs mid) (hfails : d.Fails cx kind mid e last)
    (rest : List Declarator) :
    (evaluateDeclarators cx kind (ds ++ d :: rest)).outcome s = .error e ∧
      (evaluateDeclarators cx kind (ds ++ d :: rest)).after s = last := by
  obtain ⟨ho, ha⟩ := h.evaluate
  obtain ⟨herror, hlast⟩ := hfails.evaluate
  rw [evaluateDeclarators_append, Run.outcome_bind_ok ho, Run.after_bind_ok ho, ha, evaluateDeclarators,
    Run.outcome_bind_error herror, Run.after_bind_error herror]
  exact ⟨rfl, hlast⟩

/-- Declarators take effect up to the first one that fails, or all of them do. -/
theorem declarators_bind_or_fail (cx : Context) (kind : DeclarationKind) (hds : ∀ d ∈ ds, d.IsPlain) (s : State) :
    ∃ before bs mid, DeclaratorsBind cx kind s before bs mid ∧
      (ds = before ∨ ∃ d rest e last, ds = before ++ d :: rest ∧ d.Fails cx kind mid e last) := by
  induction ds generalizing s with
  | nil => exact ⟨[], [], s, .nil s, .inl rfl⟩
  | cons d ds ih =>
    obtain ⟨hd, hds⟩ := List.forall_mem_cons.mp hds
    rcases Declarator.binds_or_fails cx kind s hd with ⟨b, t, hbinds⟩ | ⟨e, last, hfails⟩
    · obtain ⟨before, bs, mid, hbefore, hrest⟩ := ih hds t
      refine ⟨d :: before, b :: bs, mid, .cons hbinds hbefore, ?_⟩
      rcases hrest with rfl | ⟨failing, rest, e, last, rfl, hfails⟩
      · exact .inl rfl
      · exact .inr ⟨failing, rest, e, last, rfl, hfails⟩
    · exact ⟨[], [], s, .nil s, .inr ⟨d, ds, e, last, rfl, hfails⟩⟩

/-! ## A declaration as a whole -/

section Declaration

variable {span : Span} {node : Node} {before : List Declarator} (hnode : node = .declaration span kind ds)
  (hroom : s.HasRoom cx 1)
include hnode hroom

/-- A declaration has the outcome of its declarators, with `undefined` for a value and errors blamed on it. -/
theorem outcome_declaration :
    (node.evaluate cx).outcome s =
      ((evaluateDeclarators cx kind ds >>= fun _ => pure .undefined).outcome (s.inside node)).mapError node.blame := by
  rw [hroom.outcome_evaluate]
  subst hnode
  rw [Node.work]

/-- A declaration is left after its declarators. -/
theorem after_declaration :
    (node.evaluate cx).after s =
      ((evaluateDeclarators cx kind ds >>= fun _ => pure Value.undefined).after (s.inside node)).leave := by
  rw [hroom.after_evaluate]
  subst hnode
  rw [Node.work]

/-- Once all its declarators have taken effect, a declaration is left with the value `undefined`. -/
theorem DeclaratorsBind.declaration (h : DeclaratorsBind cx kind (s.inside node) ds bs mid) :
    (node.evaluate cx).outcome s = .ok .undefined ∧ (node.evaluate cx).after s = mid.leave := by
  obtain ⟨ho, ha⟩ := h.evaluate
  rw [outcome_declaration hnode hroom, after_declaration hnode hroom, Run.outcome_bind_ok ho, Run.after_bind_ok ho, ha]
  exact ⟨rfl, rfl⟩

/-- At its first failing declarator a declaration is left with the error, which it is blamed for. -/
theorem DeclaratorsBind.failing_declaration {rest : List Declarator}
    (h : DeclaratorsBind cx kind (s.inside node) before bs mid) (hds : ds = before ++ d :: rest)
    (hfails : d.Fails cx kind mid e last) :
    (node.evaluate cx).outcome s = .error (node.blame e) ∧ (node.evaluate cx).after s = last.leave := by
  obtain ⟨ho, ha⟩ := h.evaluate_failing hfails rest
  rw [← hds] at ho ha
  rw [outcome_declaration hnode hroom, after_declaration hnode hroom, Run.outcome_bind_error ho,
    Run.after_bind_error ho, ha]
  exact ⟨rfl, rfl⟩

/-- A declaration ends with all its declarators in effect, or at the first one that fails; either way the table is the one that
the declarators in effect have left. -/
theorem declaration_cases (hplain : ∀ d ∈ ds, d.IsPlain) :
    ∃ before bs mid, DeclaratorsBind cx kind (s.inside node) before bs mid ∧
      ((node.evaluate cx).after s).environment.bindings = mid.environment.bindings ∧
      ((ds = before ∧ (node.evaluate cx).outcome s = .ok .undefined) ∨
        ∃ d later e last, ds = before ++ d :: later ∧ d.Fails cx kind mid e last ∧
          (node.evaluate cx).outcome s = .error (node.blame e) ∧ (node.evaluate cx).after s = last.leave) := by
  obtain ⟨before, bs, mid, hbefore, hrest⟩ := declarators_bind_or_fail cx kind hplain (s.inside node)
  refine ⟨before, bs, mid, hbefore, ?_⟩
  rcases hrest with hall | ⟨d, later, e, last, hsplit, hfails⟩
  · obtain ⟨hok, hafter⟩ := DeclaratorsBind.declaration hnode hroom (hall ▸ hbefore)
    refine ⟨?_, .inl ⟨hall, hok⟩⟩
    rw [hafter]
    rfl
  · obtain ⟨herror, hafter⟩ := hbefore.failing_declaration hnode hroom hsplit hfails
    refine ⟨?_, .inr ⟨d, later, e, last, hsplit, hfails, herror, hafter⟩⟩
    rw [hafter]
    exact hfails.bindings (hplain d (by simp [hsplit]))

end Declaration

end

/-- A declaration that fails keeps exactly the declarators before the failure. It binds its declarators in order, each to what
its initial value is in the state that the one before has left, until one of them fails; the table afterwards is the one from
before with just these bindings put into it. If there is no failing one, the value is `undefined`. Otherwise the error is that
of the failing one, blamed on the declaration if it has no place yet; what is left is what that one has left, its name has the
binding that it had before it, and whatever declarators stand behind it, none of them is evaluated. -/
theorem declaration_keeps_bound_prefix (cx : Context) (s : State) (span : Span) (kind : DeclarationKind)
    (ds : List Declarator) (hroom : s.HasRoom cx 1) (hplain : ∀ d ∈ ds, d.IsPlain) :
    let node : Node := .declaration span kind ds
    let after := (node.evaluate cx).after s
    ∃ before rest bs mid, ds = before ++ rest ∧ DeclaratorsBind cx kind (s.inside node) before bs mid ∧
      after.environment.bindings = bs.foldl Bindings.put s.environment.bindings ∧
      (∀ name ∉ bs.map Binding.name, after.environment.binding? name = s.environment.binding? name) ∧
      (rest = [] ↔ ∃ v, (node.evaluate cx).outcome s = .ok v) ∧
      (∀ v, (node.evaluate cx).outcome s = .ok v → v = .undefined) ∧
      ∀ d later, rest = d :: later → ∃ e last, d.Fails cx kind mid e last ∧
        (node.evaluate cx).outcome s = .error (node.blame e) ∧ after = last.leave ∧
        (∀ name, d.name = .ok name → after.environment.binding? name = mid.environment.binding? name) ∧
        ∀ other, (evaluateDeclarators cx kind (before ++ d :: other)).outcome (s.inside node) = .error e ∧
          (evaluateDeclarators cx kind (before ++ d :: other)).after (s.inside node) = last := by
  intro node after
  have hnode : node = .declaration span kind ds := rfl
  obtain ⟨before, bs, mid, hbefore, hkept, hend⟩ := declaration_cases hnode hroom hplain
  have htable : after.environment.bindings = bs.foldl Bindings.put s.environment.bindings :=
    hkept.trans hbefore.bindings
  have hothers (name : String) (hname : name ∉ bs.map Binding.name) :
      after.environment.binding? name = s.environment.binding? name := by
    rw [Environment.binding?, htable]
    exact Bindings.find?_foldl_put hname s.environment.bindings
  rcases hend with ⟨hall, hok⟩ | ⟨d, later, e, last, hsplit, hfails, herror, hafter⟩
  · refine ⟨before, [], bs, mid, by rw [List.append_nil, hall], hbefore, htable, hothers, ?_, ?_, ?_⟩
    · exact iff_of_true rfl ⟨_, hok⟩
    · intro v hv
      rw [hok] at hv
      exact (Except.ok.inj hv).symm
    · rintro d later ⟨⟩
  · have hfailed (v : Value) : (node.evaluate cx).outcome s ≠ .ok v := by
      rw [herror]
      rintro ⟨⟩
    refine ⟨before, d :: later, bs, mid, hsplit, hbefore, htable, hothers, ?_, ?_, ?_⟩
    · refine iff_of_false (List.cons_ne_nil _ _) ?_
      rintro ⟨v, hv⟩
      exact hfailed v hv
    · intro v hv
      exact absurd hv (hfailed v)
    · rintro _ _ ⟨⟩
      exact ⟨e, last, hfails, herror, hafter, fun name _ => congrArg (Bindings.find? · name) hkept,
        hbefore.evaluate_failing hfails⟩

/-- In `const a = null, a = null, b` the second declarator fails; the console and the first name are bound afterwards. -/
theorem second_constant_refused :
    let cx : Context := ⟨9, .silent⟩
    let null : Node := .literal default .null
    let declarator (name : String) (init : Option Node) : Declarator := .mk ⟨3, 4⟩ (.identifier default name) init
    let ds := [declarator "a" (some null), declarator "a" (some null), declarator "b" none]
    let node : Node := .declaration default .const ds
    let after := (node.evaluate cx).after .initial
    (node.evaluate cx).outcome .initial = .error (.located (.constReassigned "a") ⟨3, 4⟩) ∧
      after.environment.bindings.names = ["console", "a"] ∧
      ∃ before rest bs mid, ds = before ++ rest ∧ rest ≠ [] ∧
        DeclaratorsBind cx .const (State.initial.inside node) before bs mid ∧
        after.environment.bindings = bs.foldl Bindings.put State.initial.environment.bindings := by
  intro cx null declarator ds node after
  have hroom : State.initial.HasRoom cx 1 := ⟨rfl, by decide⟩
  have hnull : ¬null.Declares := by
    rintro ⟨inner, hm, hkind⟩
    obtain rfl : inner = null := by simpa [null, Node.walk_eq, Node.parts] using hm
    cases hkind
  have hplain : ∀ d ∈ ds, d.IsPlain := by
    intro d hd init hinit
    simp only [ds, declarator, List.mem_cons, List.not_mem_nil, or_false] at hd
    rcases hd with rfl | rfl | rfl
    · cases hinit
      exact hnull
    · cases hinit
      exact hnull
    · cases hinit
  have herror : (node.evaluate cx).outcome .initial = .error (.located (.constReassigned "a") ⟨3, 4⟩) := by rfl
  obtain ⟨before, rest, bs, mid, hsplit, hbound, htable, -, hok, -⟩ :=
    declaration_keeps_bound_prefix cx .initial default .const ds hroom hplain
  refine ⟨herror, by rfl, before, rest, bs, mid, hsplit, ?_, hbound, htable⟩
  rintro rfl
  obtain ⟨v, hv⟩ := hok.mp rfl
  rw [herror] at hv
  cases hv

end ScriptTree
