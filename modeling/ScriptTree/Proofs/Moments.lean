import ScriptTree.Proofs.Blame

/-!
# The moments of a run

Evaluating a node leads through states: those in which the parts of the tree are met, and around each node that is met the
ones before and inside it and after its work and itself. `Meets` and `Moment` say which states these are. What every change
of a state respects holds between a moment and the end of the run (`Moment.respects`), since a run only goes on from a
moment by changes, and by leaving nodes.
-/

namespace ScriptTree

/-! ## Lists in two parts -/

/-- Arguments in two parts are evaluated one part after the other. -/
theorem evaluateArguments_append (cx : Context) (before after : List Node) :
    evaluateArguments cx (before ++ after) =
      evaluateArguments cx before >>= fun first => do return first ++ (← evaluateArguments cx after) := by
  induction before with
  | nil => simp [evaluateArguments]
  | cons argument rest ih => simp [evaluateArguments, ih, bind_assoc]

/-- Declarators in two parts are evaluated one part after the other. -/
theorem evaluateDeclarators_append (cx : Context) (kind : DeclarationKind) (before after : List Declarator) :
    evaluateDeclarators cx kind (before ++ after) =
      evaluateDeclarators cx kind before >>= fun _ => evaluateDeclarators cx kind after := by
  induction before with
  | nil => simp [evaluateDeclarators]
  | cons d rest ih => simp [evaluateDeclarators, ih, bind_assoc]

/-! ## Before a part and behind it -/

section Around

variable {cx : Context} {r : State → State → Prop} {s s' : State} {node part : Node}

/-- What the rest of a run respects holds between the end of its beginning and its own end. -/
theorem Stepwise.rest (h : Stepwise cx r) {α β : Type} {f : α → Run β} (hf : ∀ a, (f a).Respects r) (x : Run α)
    (s : State) : r (x.after s) ((x >>= f).after s) := by
  cases ho : x.outcome s with
  | ok a =>
    rw [Run.after_bind_ok ho]
    exact hf a (x.after s)
  | error e =>
    rw [Run.after_bind_error ho]
    exact h.refl _

/-- What each change respects holds between the beginning of a node's work and a part that it reaches. -/
theorem Reaches.respects (hreach : Reaches cx s node part s') (h : Stepwise cx r) : r s s' := by
  have hb := h.compositional.balanced
  cases hreach with
  | @statement span body before => exact (hb.statements .undefined before).1 s
  | expression => exact h.refl s
  | left => exact h.refl s
  | @right span left => exact h.evaluate left s
  | callee => exact h.refl s
  | @argument span callee argument arguments before => exact h.trans (h.evaluate callee s) ((hb.arguments before).1 _)
  | object => exact h.refl s
  | @init span kind declarators before => exact (hb.declarators kind before).1 s

/-- What each change respects holds between the end of a part and the end of the work that has reached it. -/
theorem Reaches.respects_rest (hreach : Reaches cx s node part s') (h : Stepwise cx r) :
    r ((part.evaluate cx).after s') ((node.work cx).after s) := by
  have hb := h.compositional.balanced
  cases hreach with
  | @statement span body before after statement value hbody hbefore =>
    subst hbody
    rw [Node.work, evaluateStatements_append, Run.after_bind_ok hbefore, evaluateStatements]
    exact h.rest (fun last => (hb.statements last after).1) _ _
  | expression => exact h.refl _
  | @left span left right operator =>
    refine h.rest (fun l => ?_) _ _
    exact h.bind (h.evaluate right) fun r => (hb.ofOperation (operator.apply l r)).1
  | @right span left right operator l hleft =>
    rw [Node.work, Run.after_bind_ok hleft]
    exact h.rest (fun r => (hb.ofOperation (operator.apply l r)).1) _ _
  | @callee span callee arguments optional =>
    refine h.rest (fun value => ?_) _ _
    cases value with
    | callable identity f => exact h.bind (hb.arguments arguments).1 fun values => (hb.call _ f values).1
    | _ => exact fun s => h.refl s
  | @argument span callee argument arguments before after optional identity f values harguments hcallee hbefore =>
    subst harguments
    rw [Node.work, Run.after_bind_ok hcallee]
    refine h.trans ?_ (h.rest (fun values => (hb.call _ f values).1) _ _)
    rw [evaluateArguments_append, Run.after_bind_ok hbefore, evaluateArguments]
    refine h.trans ?_ (h.rest (fun _ => (hb.pure _).1) _ _)
    exact h.rest (fun value => h.bind (hb.arguments after).1 fun _ => (hb.pure _).1) _ _
  | @object span object property computed optional =>
    exact h.rest (fun base : Value => (hb.member (base.member property computed)).1) _ _
  | @init span kind declarators before after d name init hdeclarators hbefore hname hinit =>
    subst hdeclarators
    refine h.trans ?_ (h.rest (fun _ => (hb.pure _).1) _ _)
    rw [evaluateDeclarators_append, Run.after_bind_ok hbefore, evaluateDeclarators]
    refine h.trans ?_ (h.rest (fun _ => (hb.declarators kind after).1) _ _)
    obtain ⟨place, target, _⟩ := d
    cases hinit
    rw [Declarator.evaluate, hname]
    exact h.rest (fun value => (hb.declare _ name value kind).1) _ _

end Around

/-! ## Moments -/

/-- The evaluation of a node, from a state, gets to the evaluation of a node in another state. -/
inductive Meets (cx : Context) : State → Node → Node → State → Prop
  | self {s : State} {node : Node} : Meets cx s node node s
  | part {s s' t : State} {node part inner : Node} (hroom : s.HasRoom cx 1)
      (hreach : Reaches cx (s.inside node) node part s') (h : Meets cx s' part inner t) : Meets cx s node inner t

/-- The states around the parts of a node that is evaluated from a state: that state, the ones inside the node before its
work, after some of its declarators and after its work, and the one that is left. -/
inductive Stage (cx : Context) (s : State) (node : Node) : State → Prop
  | before : Stage cx s node s
  | inside (hroom : s.HasRoom cx 1) : Stage cx s node (s.inside node)
  | declared {span : Span} {kind : DeclarationKind} {ds rest : List Declarator} (hroom : s.HasRoom cx 1)
      (hnode : node = .declaration span kind (ds ++ rest))
      (hds : (evaluateDeclarators cx kind ds).outcome (s.inside node) = .ok ()) :
      Stage cx s node ((evaluateDeclarators cx kind ds).after (s.inside node))
  | worked (hroom : s.HasRoom cx 1) : Stage cx s node ((node.work cx).after (s.inside node))
  | after : Stage cx s node ((node.evaluate cx).after s)

/-- A state that the evaluation of a node, from a state, leads through. -/
def Moment (cx : Context) (s : State) (node : Node) (t : State) : Prop :=
  ∃ inner s', Meets cx s node inner s' ∧ Stage cx s' inner t

section Moments

variable {cx : Context} {r : State → State → Prop} {s s' t : State} {node inner : Node}

/-- What each change and leaving a node respect holds between each stage of a node and its end. -/
theorem Stage.respects (hstage : Stage cx s node t) (h : Stepwise cx r) (hleave : ∀ s : State, r s s.leave) :
    r t ((node.evaluate cx).after s) := by
  have hb := h.compositional.balanced
  cases hstage with
  | before => exact h.evaluate node s
  | inside hroom =>
    rw [hroom.after_evaluate]
    exact h.trans ((hb.work node).1 _) (hleave _)
  | declared hroom hnode hds =>
    subst hnode
    rw [hroom.after_evaluate]
    refine h.trans (h.trans ?_ (h.rest (fun _ => (hb.pure _).1) _ _)) (hleave _)
    rw [evaluateDeclarators_append]
    exact h.rest (fun _ => (hb.declarators _ _).1) _ _
  | worked hroom =>
    rw [hroom.after_evaluate]
    exact hleave _
  | after => exact h.refl _

/-- What each change and leaving a node respect holds between each moment of a run and its end. -/
theorem Moment.respects (hm : Moment cx s node t) (h : Stepwise cx r) (hleave : ∀ s : State, r s s.leave) :
    r t ((node.evaluate cx).after s) := by
  obtain ⟨inner, s', hmeets, hstage⟩ := hm
  induction hmeets with
  | self => exact hstage.respects h hleave
  | @part s s' t node part inner hroom hreach _ ih =>
    rw [hroom.after_evaluate]
    exact h.trans (h.trans (ih hstage) (hreach.respects_rest h)) (hleave _)

end Moments

end ScriptTree
