import ScriptTree.Proofs.Splitting

/-!
# Expressions without an effect

A node yields a value in a state if it evaluates to the value there and nothing is left behind but records. A bound name
yields its value and a literal of a primitive what it holds, wherever they can be entered, an operation on nodes that yield
its operands yields its result (`Yields.binary`), and a property of what a node yields is yielded too (`Yields.member`).
-/

namespace ScriptTree

/-- A node evaluates to a value and leaves the state as it was, records aside. -/
def Yields (cx : Context) (s : State) (node : Node) (value : Value) : Prop :=
  (node.evaluate cx).outcome s = .ok value ∧ SameEffect ((node.evaluate cx).after s) s

/-- So many nodes can be entered, one inside the other, from a state. -/
def State.HasRoom (s : State) (cx : Context) (levels : Nat) : Prop :=
  s.interrupted = false ∧ s.environment.depth + levels ≤ cx.maxDepth

namespace State.HasRoom

variable {s : State} {cx : Context} {levels : Nat}

/-- Inside a node there is room for one node less. -/
theorem inside (h : s.HasRoom cx (levels + 1)) (node : Node) : (s.inside node).HasRoom cx levels := by
  refine ⟨h.1, ?_⟩
  have hdepth : (s.inside node).environment.depth = s.environment.depth + 1 := rfl
  have := h.2
  omega

theorem lt_maxDepth (h : s.HasRoom cx (levels + 1)) : s.environment.depth < cx.maxDepth := by
  have := h.2
  omega

/-- A node that there is room for has the outcome of its work, and its errors are blamed on it. -/
theorem outcome_evaluate (h : s.HasRoom cx (levels + 1)) (node : Node) :
    (node.evaluate cx).outcome s = ((node.work cx).outcome (s.inside node)).mapError node.blame := by
  rw [Node.evaluate_eq]
  exact (entering_of_entered node (node.work cx) h.1 h.lt_maxDepth).1

/-- A node that there is room for is left after its work. -/
theorem after_evaluate (h : s.HasRoom cx (levels + 1)) (node : Node) :
    (node.evaluate cx).after s = ((node.work cx).after (s.inside node)).leave := by
  rw [Node.evaluate_eq]
  exact (entering_of_entered node (node.work cx) h.1 h.lt_maxDepth).2

end State.HasRoom

/-- Going inside a node and leaving it again has no effect. -/
theorem State.leave_inside (s : State) (node : Node) : SameEffect (s.inside node).leave s := ⟨rfl, rfl, rfl, rfl, rfl⟩

namespace Yields

variable {cx : Context} {s t : State} {levels : Nat}

/-- States that differ only in their records yield the same. -/
theorem transfer {node : Node} {value : Value} (h : Yields cx s node value) (hst : SameEffect s t) :
    Yields cx t node value := by
  obtain ⟨houtcome, hafter⟩ := (unobserving_compositional cx).evaluate node hst
  exact ⟨houtcome.symm.trans h.1, (hafter.symm.trans h.2).trans hst⟩

/-- A node yields what its work does inside it. -/
theorem of_work {node : Node} (work : Run Value) {value : Value} (hroom : s.HasRoom cx (levels + 1))
    (hnode : node.evaluate cx = entering cx node work) (houtcome : work.outcome (s.inside node) = .ok value)
    (hafter : SameEffect (work.after (s.inside node)) (s.inside node)) : Yields cx s node value := by
  obtain ⟨ho, ha⟩ := entering_of_entered node work hroom.1 hroom.lt_maxDepth
  unfold Yields
  rw [hnode, ho, ha, houtcome]
  exact ⟨rfl, hafter.leave.trans (s.leave_inside node)⟩

/-- A bound name yields its value. -/
theorem identifier (span : Span) {name : String} {value : Value} (hroom : s.HasRoom cx (levels + 1))
    (h : s.environment.get name = .ok value) : Yields cx s (.identifier span name) value := by
  have hget : (s.inside (.identifier span name)).environment.get name = .ok value := h
  refine of_work (lookUp name) hroom (by rw [Node.evaluate]) ?_ ?_
  · exact Run.outcome_of_ok (t := s.inside (.identifier span name)) (by rw [lookUp, hget])
  · rw [after_lookUp]
    exact .refl _

/-- A literal of a primitive yields what it holds. -/
theorem literal (span : Span) {literal : LiteralValue} {value : Value} (hroom : s.HasRoom cx (levels + 1))
    (h : literal.evaluate = pure value) : Yields cx s (.literal span literal) value :=
  of_work (pure value) hroom (by rw [Node.evaluate, h]) rfl (.refl _)

/-- An operation yields its result if its operands are yielded inside it. -/
theorem binary (span : Span) {left right : Node} {operator : BinaryOperator} {l r result : Value}
    (hroom : s.HasRoom cx (levels + 1)) (hl : Yields cx (s.inside (.binary span left operator right)) left l)
    (hr : Yields cx (s.inside (.binary span left operator right)) right r) (h : operator.apply l r = .ok result) :
    Yields cx s (.binary span left operator right) result := by
  have hr' := hr.transfer hl.2.symm
  refine of_work _ hroom (by rw [Node.evaluate]) ?_ ?_
  · rw [Run.outcome_bind_ok hl.1, Run.outcome_bind_ok hr'.1, h]
    rfl
  · rw [Run.after_bind_ok hl.1, Run.after_bind_ok hr'.1, h]
    exact hr'.2.trans hl.2

/-- A property of a value that is yielded is yielded. -/
theorem member (span : Span) {object property : Node} {computed optional : Bool} {base value : Value}
    (hroom : s.HasRoom cx (levels + 1))
    (hobject : Yields cx (s.inside (.member span object property computed optional)) object base)
    (h : base.member property computed = .ok value) :
    Yields cx s (.member span object property computed optional) value := by
  refine of_work _ hroom (by rw [Node.evaluate]) ?_ ?_
  · rw [Run.outcome_bind_ok hobject.1, h]
    rfl
  · rw [Run.after_bind_ok hobject.1, h]
    exact hobject.2

end Yields

end ScriptTree
