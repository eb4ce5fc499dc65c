import ScriptTree.Proofs.Moments

/-!
# Depth is balanced

Whatever a run ends with, it leaves as many nodes as it has entered, and on the way it never goes deeper than the limit, or
than it was at the beginning. The same holds of guards that are taken one inside the other, even if some of them are refused
(`Environment.takeGuards`). `depth_is_balanced` puts both together.
-/

namespace ScriptTree

/-! ## The depth of a run -/

section Depth

variable {cx : Context} {s t : State} {node inner : Node}

/-- Every change of a run that is complete keeps the depth. -/
theorem sameDepth_stepwise (cx : Context) : Stepwise cx SameDepth where
  refl _ := rfl
  trans h h' := Eq.trans h' h
  node {s t} _ _ _ h := by
    show t.environment.depth - 1 = s.environment.depth
    rw [show t.environment.depth = s.environment.depth + 1 from h, Nat.add_sub_cancel]
  fresh _ := rfl
  bound _ _ := rfl
  refused _ _ := rfl
  call _ _ _ _ _ := rfl

/-- A part is reached at the depth at which the work of its node begins. -/
theorem Reaches.depth {s' : State} {part : Node} (h : Reaches cx s node part s') :
    s'.environment.depth = s.environment.depth :=
  h.respects (sameDepth_stepwise cx)

/-- A depth lies between the one at the beginning of a run and the limit, or is the one at the beginning. -/
def State.DepthWithin (s : State) (cx : Context) (t : State) : Prop :=
  s.environment.depth ≤ t.environment.depth ∧ t.environment.depth ≤ max s.environment.depth cx.maxDepth

/-- Bounds on the depth in two runs in a row give one on both together. -/
theorem State.DepthWithin.trans {u : State} (h : s.DepthWithin cx t) (h' : t.DepthWithin cx u) : s.DepthWithin cx u := by
  unfold State.DepthWithin at *
  omega

/-- Inside a node that there is room for the depth is one more, and within the limit. -/
theorem State.HasRoom.depthWithin (hroom : s.HasRoom cx 1) (h : t.environment.depth = s.environment.depth + 1) :
    s.DepthWithin cx t := by
  have := hroom.2
  unfold State.DepthWithin
  omega

/-- Where a part of the tree is met, the depth is within its bounds. -/
theorem Meets.depthWithin (h : Meets cx s node inner t) : s.DepthWithin cx t := by
  induction h with
  | self => exact ⟨Nat.le_refl _, Nat.le_max_left _ _⟩
  | part hroom hreach _ ih => exact (hroom.depthWithin hreach.depth).trans ih

/-- In the states around a node the depth is within its bounds. -/
theorem Stage.depthWithin (h : Stage cx s node t) : s.DepthWithin cx t := by
  have hb := (sameDepth_stepwise cx).compositional.balanced
  cases h with
  | before => exact ⟨Nat.le_refl _, Nat.le_max_left _ _⟩
  | inside hroom => exact hroom.depthWithin rfl
  | declared hroom => exact hroom.depthWithin ((hb.declarators _ _).1 (s.inside node))
  | worked hroom => exact hroom.depthWithin ((hb.work node).1 (s.inside node))
  | after =>
    have hsame : ((node.evaluate cx).after s).environment.depth = s.environment.depth := sameDepth_evaluate cx node s
    exact ⟨Nat.le_of_eq hsame.symm, Nat.le_trans (Nat.le_of_eq hsame) (Nat.le_max_left _ _)⟩

/-- In every state that an evaluation leads through the depth is within its bounds. -/
theorem Moment.depthWithin (h : Moment cx s node t) : s.DepthWithin cx t := by
  obtain ⟨inner, s', hmeets, hstage⟩ := h
  exact hmeets.depthWithin.trans hstage.depthWithin

end Depth

/-- The nodes that were entered between two states were entered no deeper than a limit. -/
def EntersWithin (limit : Nat) (s t : State) : Prop :=
  ∃ entered, View.entries.ofState t = View.entries.ofState s ++ entered ∧ ∀ entry ∈ entered, entry.2 ≤ limit

/-- Every change of a run enters nodes within the limit only. -/
theorem entersWithin_stepwise (cx : Context) : Stepwise cx (EntersWithin cx.maxDepth) where
  refl s := ⟨[], (List.append_nil _).symm, List.forall_mem_nil _⟩
  trans := by
    rintro s t u ⟨entered, hst, h⟩ ⟨entered', htu, h'⟩
    refine ⟨entered ++ entered', by rw [htu, hst, List.append_assoc], ?_⟩
    exact List.forall_mem_append.mpr ⟨h, h'⟩
  node {s t} node _ hd := by
    rintro ⟨entered, hst, h⟩
    refine ⟨(node, s.environment.depth + 1) :: entered, ?_, List.forall_mem_cons.mpr ⟨hd, h⟩⟩
    have hinside : View.entries.ofState (s.inside node) = View.entries.ofState s ++ [(node, s.environment.depth + 1)] :=
      View.entries.ofState_record _ _
    rw [hinside, List.append_assoc] at hst
    exact hst
  fresh s := ⟨[], (List.append_nil _).symm, List.forall_mem_nil _⟩
  bound b _ := ⟨[], View.entries.ofState_record _ (.bound b), List.forall_mem_nil _⟩
  refused b _ := ⟨[], View.entries.ofState_record _ (.refused b), List.forall_mem_nil _⟩
  call s site f arguments _ :=
    ⟨[], View.entries.ofState_record s (.calling site f.name arguments.length), List.forall_mem_nil _⟩

/-! ## Guards -/

namespace Environment

/-- Takes nesting guards one inside the other, each with its own limit, and releases them all again. After a refusal the next
guard is taken inside the last one that was granted. Gives for each guard the depth seen through it or why it was refused,
and the environment afterwards. -/
def takeGuards (env : Environment) : List Nat → List (Except EnvironmentError Nat) × Environment
  | [] => ([], env)
  | max :: more =>
    match env.enter max with
    | .error refusal =>
      let (seen, after) := env.takeGuards more
      (.error refusal :: seen, after)
    | .ok inner =>
      let (seen, after) := inner.takeGuards more
      (.ok inner.depth :: seen, after.leave)

/-- The environment at another depth. -/
def atDepth (env : Environment) (depth : Nat) : Environment := { env with depth := depth }

/-- The depth inside the guards that were granted: the one seen through the last of them. -/
def depthInside (env : Environment) (seen : List (Except EnvironmentError Nat)) : Nat :=
  (seen.filterMap Except.toOption).getLastD env.depth

variable (env : Environment)

/-- A guard at its limit is refused, and the next one is taken in its place. -/
theorem takeGuards_refused {max : Nat} (h : max ≤ env.depth) (more : List Nat) :
    env.takeGuards (max :: more) =
      (.error (.nestingTooDeep (env.depth + 1) max) :: (env.takeGuards more).1, (env.takeGuards more).2) := by
  rw [takeGuards, enter_of_le h]

/-- A guard below its limit shows a depth of one more, and the others are taken inside it. -/
theorem takeGuards_granted {max : Nat} (h : env.depth < max) (more : List Nat) :
    env.takeGuards (max :: more) =
      (.ok (env.depth + 1) :: ((env.atDepth (env.depth + 1)).takeGuards more).1,
        ((env.atDepth (env.depth + 1)).takeGuards more).2.leave) := by
  rw [takeGuards, enter_of_lt h]
  rfl

/-- Behind a guard that was granted the depth is counted from the one that it shows. -/
theorem depthInside_granted (depth : Nat) (seen : List (Except EnvironmentError Nat)) :
    env.depthInside (.ok depth :: seen) = (env.atDepth depth).depthInside seen := by
  show (depth :: seen.filterMap Except.toOption).getLastD env.depth = _
  rw [List.getLastD_cons]
  rfl

/-- When all guards are released the environment is what it was. -/
theorem takeGuards_after (limits : List Nat) : (env.takeGuards limits).2 = env := by
  induction limits generalizing env with
  | nil => rfl
  | cons max more ih =>
    rcases Nat.lt_or_ge env.depth max with h | h
    · rw [env.takeGuards_granted h, ih]
      rfl
    · rw [env.takeGuards_refused h, ih]

/-- Every guard is granted or refused. -/
theorem length_takeGuards (limits : List Nat) : (env.takeGuards limits).1.length = limits.length := by
  induction limits generalizing env with
  | nil => rfl
  | cons max more ih =>
    rcases Nat.lt_or_ge env.depth max with h | h
    · rw [env.takeGuards_granted h, List.length_cons, List.length_cons, ih]
    · rw [env.takeGuards_refused h, List.length_cons, List.length_cons, ih]

/-- Guards in two parts: the second part is taken inside the guards of the first one that were granted. -/
theorem takeGuards_append (before after : List Nat) :
    (env.takeGuards (before ++ after)).1 =
      (env.takeGuards before).1 ++ ((env.atDepth (env.depthInside (env.takeGuards before).1)).takeGuards after).1 := by
  induction before generalizing env with
  | nil => rfl
  | cons max more ih =>
    rcases Nat.lt_or_ge env.depth max with h | h
    · rw [List.cons_append, env.takeGuards_granted h, env.takeGuards_granted h, depthInside_granted, ih]
      rfl
    · rw [List.cons_append, env.takeGuards_refused h, env.takeGuards_refused h, ih]
      rfl

/-- What is seen through guards that are taken until one is refused is the first of what is seen through all of them. -/
theorem withGuards_prefix (limits : List Nat) :
    (env.withGuards limits).1.map .ok ++ (env.withGuards limits).2.1.toList.map .error <+: (env.takeGuards limits).1 := by
  induction limits generalizing env with
  | nil => exact List.prefix_refl _
  | cons max more ih =>
    rcases Nat.lt_or_ge env.depth max with h | h
    · rw [env.takeGuards_granted h, withGuards, enter_of_lt h]
      exact List.cons_prefix_cons.mpr ⟨rfl, ih _⟩
    · rw [env.takeGuards_refused h, withGuards, enter_of_le h]
      exact List.cons_prefix_cons.mpr ⟨rfl, List.nil_prefix⟩

/-- What is done inside guards that are released again leaves the environment as it was. -/
theorem withGuards_after (limits : List Nat) : (env.withGuards limits).2.2 = env := by
  induction limits generalizing env with
  | nil => rfl
  | cons max more ih =>
    rcases Nat.lt_or_ge env.depth max with h | h
    · rw [withGuards, enter_of_lt h]
      exact congrArg leave (ih _)
    · rw [withGuards, enter_of_le h]

end Environment

/-- Depth is balanced. Whatever the evaluation of a node ends with, the depth is what it was; at every moment of it the
depth is at most the limit, or what it was at the beginning, and so is the depth of every node that is entered. Of guards
that are taken one inside the other, with whatever limits, one is granted if the depth inside those before it is below its
limit, and shows exactly one more; any other is refused and changes nothing for those after it. Released again, they leave
the environment as it was, also if no more guards are taken after the first refusal. -/
theorem depth_is_balanced (cx : Context) (node : Node) (s : State) :
    ((node.evaluate cx).after s).environment.depth = s.environment.depth ∧
    (∀ t, Moment cx s node t → t.environment.depth ≤ max s.environment.depth cx.maxDepth) ∧
    EntersWithin cx.maxDepth s ((node.evaluate cx).after s) ∧
    ∀ (env : Environment) (limits : List Nat),
      (env.takeGuards limits).2 = env ∧ (env.withGuards limits).2.2 = env ∧
      (env.withGuards limits).1.map .ok ++ (env.withGuards limits).2.1.toList.map .error <+: (env.takeGuards limits).1 ∧
      ∀ before limit after, limits = before ++ limit :: after →
        let seen := (env.takeGuards limits).1
        let parent := env.depthInside (env.takeGuards before).1
        (parent < limit → seen[before.length]? = some (.ok (parent + 1))) ∧
        (limit ≤ parent → seen[before.length]? = some (.error (.nestingTooDeep (parent + 1) limit)) ∧
          seen.eraseIdx before.length = (env.takeGuards (before ++ after)).1) := by
  refine ⟨sameDepth_evaluate cx node s, fun t hm => hm.depthWithin.2, (entersWithin_stepwise cx).evaluate node s, ?_⟩
  intro env limits
  refine ⟨env.takeGuards_after limits, env.withGuards_after limits, env.withGuards_prefix limits, ?_⟩
  rintro before limit after rfl seen parent
  have hlength : (env.takeGuards before).1.length = before.length := env.length_takeGuards before
  have hseen : seen = (env.takeGuards before).1 ++ ((env.atDepth parent).takeGuards (limit :: after)).1 :=
    env.takeGuards_append before (limit :: after)
  constructor
  · intro hlt
    have hlt' : (env.atDepth parent).depth < limit := hlt
    rw [hseen, (env.atDepth parent).takeGuards_granted hlt', ← hlength, List.getElem?_append_right (Nat.le_refl _),
      Nat.sub_self]
    rfl
  · intro hle
    have hle' : limit ≤ (env.atDepth parent).depth := hle
    rw [hseen, (env.atDepth parent).takeGuards_refused hle', ← hlength, List.getElem?_append_right (Nat.le_refl _),
      Nat.sub_self, List.eraseIdx_append_of_length_le (Nat.le_refl _), Nat.sub_self, env.takeGuards_append]
    exact ⟨rfl, rfl⟩

/-- A program of one identifier goes as deep as a limit of two allows, and is back outside when the name is not bound. -/
theorem unbound_name_at_the_limit :
    let cx : Context := ⟨2, .silent⟩
    let name : Node := .identifier default "x"
    let script : Node := .program default [name]
    let t := (State.empty.inside script).inside name
    Moment cx .empty script t ∧ t.environment.depth = 2 ∧
      t.environment.depth ≤ max State.empty.environment.depth cx.maxDepth ∧
      (script.evaluate cx).outcome .empty = .error (.located (.unbound "x") default) ∧
      ((script.evaluate cx).after .empty).environment.depth = 0 := by
  intro cx name script t
  have hreach : Reaches cx (State.empty.inside script) script name (State.empty.inside script) :=
    .statement (show [name] = [] ++ name :: [] from rfl) rfl
  have hmoment : Moment cx .empty script t :=
    ⟨name, _, .part ⟨rfl, by decide⟩ hreach .self, .inside ⟨rfl, by decide⟩⟩
  obtain ⟨hdepth, hmoments, -, -⟩ := depth_is_balanced cx script .empty
  exact ⟨hmoment, rfl, hmoments t hmoment, by rfl, hdepth⟩

/-- Guards inside a depth of two; the second and the fourth are refused, and the others go on from where they were. -/
example : (Environment.empty.atDepth 2).takeGuards [5, 1, 5, 4, 9] =
    ([.ok 3, .error (.nestingTooDeep 4 1), .ok 4, .error (.nestingTooDeep 5 4), .ok 5], Environment.empty.atDepth 2) := rfl

end ScriptTree
