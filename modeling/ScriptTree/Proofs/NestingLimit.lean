import Mathlib.Data.List.MinMax
import ScriptTree.Proofs.Walk

/-!
# The nesting limit

The limit of nesting only decides where a run stops. `nesting_limit_is_transparent` compares a run under a limit with the
run under a higher one: as long as the lower limit stops nothing the two are the same run, and where it stops something
the error names the limit and the lines so far are the first lines of the other run. A limit that leaves room for the
height of the walk stops nothing.

The first part relates the two runs step by step (`Lockstep`), the last one follows the parts of the tree (`Fits`).
-/

namespace ScriptTree

/-- An outcome that the nesting limit has brought about. -/
def TooDeep {α : Type} (outcome : Except EvalError α) : Prop :=
  ∃ depth max, outcome = .error (.nestingTooDeep depth max)

theorem not_tooDeep_ok {α : Type} (a : α) : ¬TooDeep (.ok a) := by
  rintro ⟨_, _, h⟩
  cases h

theorem not_tooDeep_fault {α : Type} (f : Fault) (span : Option Span) :
    ¬TooDeep (.error (.fault f span) : Except EvalError α) := by
  rintro ⟨_, _, h⟩
  cases h

theorem not_tooDeep_interrupted {α : Type} : ¬TooDeep (.error .interrupted : Except EvalError α) := by
  rintro ⟨_, _, h⟩
  cases h

/-- Blame makes no limit of a fault, and no fault of a limit. -/
theorem tooDeep_mapError_blame_iff {α : Type} (node : Node) (outcome : Except EvalError α) :
    TooDeep (outcome.mapError node.blame) ↔ TooDeep outcome := by
  exact exists_congr fun depth => exists_congr fun max =>
    mapError_blame_eq_iff_of_isLimit node outcome (Or.inr ⟨depth, max, rfl⟩)

/-! ## Building blocks never meet the limit -/

/-- Reading a name meets no limit. -/
theorem not_tooDeep_lookUp (name : String) (s : State) : ¬TooDeep ((lookUp name).outcome s) := by
  unfold Run.outcome lookUp Environment.get
  cases s.environment.value? name with
  | some value => exact not_tooDeep_ok value
  | none => exact not_tooDeep_fault _ none

theorem not_tooDeep_bind (d : Declarator) (name : String) (value : Value) (kind : DeclarationKind) (s : State) :
    ¬TooDeep ((d.bind name value kind).outcome s) := by
  rcases d.bind_cases name value kind s with ⟨-, ho, -⟩ | ⟨-, ho, -⟩
  · rw [ho]
    exact not_tooDeep_ok ()
  · rw [ho]
    exact not_tooDeep_fault _ _

/-- A call meets no limit, since it enters no node. -/
theorem not_tooDeep_callFor (cx : Context) (site : Node) (f : Builtin) (arguments : List Value) (s : State) :
    ¬TooDeep ((f.callFor cx site arguments).outcome s) := by
  rcases f.callFor_cases cx site arguments s with ⟨fault, -, ho, -⟩ | ⟨-, ho, -⟩
  · rw [ho]
    exact not_tooDeep_fault fault none
  · rw [ho]
    unfold Builtin.outcomeOf
    split
    · exact not_tooDeep_ok _
    · exact not_tooDeep_fault _ none

/-! ## Two runs in lockstep -/

/-- The second run is the first one, unless that one meets the limit: then the error names the first node beyond it, and
the second run has written the same lines before it went on. -/
def Lockstep {α : Type} (limit : Nat) (x x' : Run α) : Prop := ∀ s,
  (¬TooDeep (x.outcome s) → x'.outcome s = x.outcome s ∧ x'.after s = x.after s) ∧
    ∀ depth bound, x.outcome s = .error (.nestingTooDeep depth bound) →
      depth = max s.environment.depth limit + 1 ∧ bound = limit ∧ WritesOn (x.after s) (x'.after s)

/-- A run that never meets a limit is in lockstep with itself. -/
theorem Lockstep.refl {α : Type} {x : Run α} (limit : Nat) (h : ∀ s, ¬TooDeep (x.outcome s)) : Lockstep limit x x :=
  fun s => ⟨fun _ => ⟨rfl, rfl⟩, fun depth bound ho => absurd ⟨depth, bound, ho⟩ (h s)⟩

/-- Two runs in a row do the same up to the limit if each of them does, and lines are only added. -/
theorem Lockstep.bind {α β : Type} {limit : Nat} {x x' : Run α} {f f' : α → Run β} (hd : x.Respects SameDepth)
    (hx : Lockstep limit x x') (hf : ∀ a, Lockstep limit (f a) (f' a)) (hw : ∀ a, (f' a).Respects WritesOn) :
    Lockstep limit (x >>= f) (x' >>= f') := by
  intro s
  obtain ⟨hsame, hdeep⟩ := hx s
  cases ho : x.outcome s with
  | ok a =>
    obtain ⟨ho', ha'⟩ := hsame (by rw [ho]; exact not_tooDeep_ok a)
    have hfa := hf a (x.after s)
    rw [show (x.after s).environment.depth = s.environment.depth from hd s] at hfa
    rw [Run.outcome_bind_ok ho, Run.after_bind_ok ho, Run.outcome_bind_ok (ho'.trans ho),
      Run.after_bind_ok (ho'.trans ho), ha']
    exact hfa
  | error e =>
    rw [Run.outcome_bind_error ho, Run.after_bind_error ho]
    refine ⟨fun hn => ?_, fun depth bound h => ?_⟩
    · obtain ⟨ho', ha'⟩ := hsame (by rw [ho]; exact fun ⟨d, m, h⟩ => hn ⟨d, m, by rw [Except.error.inj h]⟩)
      rw [Run.outcome_bind_error (ho'.trans ho), Run.after_bind_error (ho'.trans ho), ha']
      exact ⟨rfl, rfl⟩
    · obtain ⟨hdepth, hmax, hlines⟩ := hdeep depth bound (by rw [ho, Except.error.inj h])
      refine ⟨hdepth, hmax, ?_⟩
      -- the second run may go on where the first one was stopped
      cases ho' : x'.outcome s with
      | ok a' =>
        rw [Run.after_bind_ok ho']
        exact hlines.trans (hw a' (x'.after s))
      | error e' =>
        rw [Run.after_bind_error ho']
        exact hlines

/-- A node around a run does the same up to the limit, whether the smaller limit refuses it or not. -/
theorem Lockstep.entering {cx cx' : Context} (hle : cx.maxDepth ≤ cx'.maxDepth) (node : Node) {work work' : Run Value}
    (h : Lockstep cx.maxDepth work work') (hw : work'.Respects WritesOn) :
    Lockstep cx.maxDepth (entering cx node work) (ScriptTree.entering cx' node work') := by
  intro s
  rcases entering_cases cx node work s with ⟨hi, ho, ha⟩ | ⟨hi, hd, ho, ha⟩ | ⟨hi, hd, ho, ha⟩
  · have he : ScriptTree.entering cx' node work' s = .error .interrupted s := entering_of_interrupted hi
    rw [ho, ha, Run.outcome_of_error he, Run.after_of_error he]
    exact ⟨fun _ => ⟨rfl, rfl⟩, fun depth bound hd => absurd ⟨depth, bound, hd⟩ not_tooDeep_interrupted⟩
  · rw [ho, ha]
    refine ⟨fun hn => absurd ⟨_, _, rfl⟩ hn, fun depth bound h => ?_⟩
    cases h
    refine ⟨by rw [Nat.max_eq_left hd], rfl, ?_⟩
    exact (writesOn_stepwise cx').entering node hw s
  · obtain ⟨ho', ha'⟩ := entering_of_entered node work' hi (Nat.lt_of_lt_of_le hd hle)
    obtain ⟨hsame, hdeep⟩ := h (s.inside node)
    rw [ho, ha, ho', ha']
    refine ⟨fun hn => ?_, fun depth bound h => ?_⟩
    · obtain ⟨hwo, hwa⟩ := hsame (mt (tooDeep_mapError_blame_iff node _).mpr hn)
      rw [hwo, hwa]
      exact ⟨rfl, rfl⟩
    · obtain ⟨hdepth, hmax, hlines⟩ := hdeep depth bound ((mapError_blame_eq_iff_of_isLimit node _ (Or.inr ⟨depth, bound, rfl⟩)).mp h)
      refine ⟨?_, hmax, hlines⟩
      have hin : (s.inside node).environment.depth = s.environment.depth + 1 := rfl
      rw [hdepth, hin]
      simp only [Nat.max_def]
      split <;> split <;> omega

/-- Under two limits of which the first is the lower one, everything that evaluation is made of runs in lockstep. -/
theorem lockstep_compositional {cx cx' : Context} (hhost : cx'.host = cx.host) (hle : cx.maxDepth ≤ cx'.maxDepth) :
    Compositional cx cx' fun _ _ x x' => Lockstep cx.maxDepth x x' ∧ x'.Respects WritesOn where
  pure a := ⟨Lockstep.refl _ fun _ => not_tooDeep_ok a, fun s => (writesOn_stepwise cx').refl s⟩
  fault _ f span := ⟨Lockstep.refl _ fun _ => not_tooDeep_fault f span, fun s => (writesOn_stepwise cx').refl s⟩
  bind hd hx hf :=
    ⟨hx.1.bind hd (fun a => (hf a).1) fun a => (hf a).2, (writesOn_stepwise cx').bind hx.2 fun a => (hf a).2⟩
  entering node _ _ hw := ⟨hw.1.entering hle node hw.2, (writesOn_stepwise cx').entering node hw.2⟩
  fresh := ⟨Lockstep.refl _ fun s => not_tooDeep_ok s.nextIdentity, (writesOn_stepwise cx').compositional.fresh⟩
  lookUp name := ⟨Lockstep.refl _ (not_tooDeep_lookUp name), (writesOn_stepwise cx').compositional.lookUp name⟩
  declare d name value kind :=
    ⟨Lockstep.refl _ (not_tooDeep_bind d name value kind), (writesOn_stepwise cx').compositional.declare d name value kind⟩
  call site f arguments := by
    refine ⟨?_, (writesOn_stepwise cx').compositional.call site f arguments⟩
    have hp : f.perform cx' arguments = f.perform cx arguments := by
      unfold Builtin.perform
      rw [hhost]
    have hc : f.callFor cx' site arguments = f.callFor cx site arguments := by
      simp only [Builtin.callFor, Builtin.callFrom, hp]
    rw [hc]
    exact Lockstep.refl _ (not_tooDeep_callFor cx site f arguments)

/-! ## Room for the height of the walk -/

/-- The height of the walk of a node: targets of declarators and properties of members do not count. -/
def Node.height (node : Node) : Nat := (node.parts.attach.map fun part => part.1.height).foldr max 0 + 1
termination_by sizeOf node
decreasing_by exact Node.sizeOf_lt_of_mem_parts part.2

/-- A node is one level higher than the highest of its parts. -/
theorem Node.height_eq (node : Node) : node.height = (node.parts.map Node.height).foldr max 0 + 1 := by
  rw [Node.height]
  simp

/-- Every part of a node is lower than the node. -/
theorem Node.height_lt_of_mem_parts {part node : Node} (h : part ∈ node.parts) : part.height < node.height := by
  rw [node.height_eq]
  exact Nat.lt_succ_of_le (List.le_max_of_le' 0 (List.mem_map_of_mem h) le_rfl)

/-- A run that enters nodes for whose walks the limit leaves room never meets the limit. -/
def Fits {α : Type} (cx : Context) (actions : List Action) (x : Run α) : Prop := ∀ s,
  (∀ node, .visit node ∈ actions → s.environment.depth + node.height ≤ cx.maxDepth) → ¬TooDeep (x.outcome s)

/-- What fits below a limit does not meet it. -/
theorem fits_compositional (cx : Context) : Compositional cx cx fun _ actions x _ => Fits cx actions x where
  pure a _ _ := not_tooDeep_ok a
  fault _ f span _ _ := not_tooDeep_fault f span
  bind := by
    intro α β p q x _ f _ hd hx hf s hroom
    have hxs := hx s fun node h => hroom node (List.mem_append_left q h)
    cases ho : x.outcome s with
    | ok a =>
      rw [Run.outcome_bind_ok ho]
      apply hf a
      rw [show (x.after s).environment.depth = s.environment.depth from hd s]
      exact fun node h => hroom node (List.mem_append_right p h)
    | error e =>
      rw [Run.outcome_bind_error ho]
      rintro ⟨depth, bound, h⟩
      exact hxs ⟨depth, bound, by rw [ho, Except.error.inj h]⟩
  entering := by
    intro node work _ hw s hroom
    have hnode := hroom node (List.mem_singleton_self _)
    rcases entering_cases cx node work s with ⟨-, ho, -⟩ | ⟨-, hd, -, -⟩ | ⟨-, -, ho, -⟩
    · rw [ho]
      exact not_tooDeep_interrupted
    · rw [node.height_eq] at hnode
      omega
    · rw [ho, tooDeep_mapError_blame_iff]
      apply hw (s.inside node)
      intro part hpart
      have hlt := Node.height_lt_of_mem_parts (Node.mem_parts_of_visit hpart)
      show s.environment.depth + 1 + part.height ≤ cx.maxDepth
      omega
  fresh s _ := not_tooDeep_ok s.nextIdentity
  lookUp name s _ := not_tooDeep_lookUp name s
  declare d name value kind s _ := not_tooDeep_bind d name value kind s
  call site f arguments s _ := not_tooDeep_callFor cx site f arguments s

/-! ## The limit is transparent -/

/-- The limit of nesting is transparent: of two runs that differ in it alone, the one under the higher limit gives the same
and leaves the same behind as the one under the lower limit, unless the lower limit stops that one. Then the error names
the first depth beyond both the limit and the start, and what was written until then is a first part of what the other run
writes. A limit that leaves room for the height of the walk stops nothing. -/
theorem nesting_limit_is_transparent (cx : Context) (low high : Nat) (hle : low ≤ high) (node : Node) (s : State) :
    let x := node.evaluate { cx with maxDepth := low }
    let x' := node.evaluate { cx with maxDepth := high }
    (¬TooDeep (x.outcome s) → x'.outcome s = x.outcome s ∧ x'.after s = x.after s) ∧
    (∀ depth bound, x.outcome s = .error (.nestingTooDeep depth bound) →
      depth = max s.environment.depth low + 1 ∧ bound = low ∧
        ∃ written more, (x.after s).lines.toList = s.lines.toList ++ written ∧
          (x'.after s).lines.toList = s.lines.toList ++ written ++ more) ∧
    (s.environment.depth + node.height ≤ low → ¬TooDeep (x.outcome s)) := by
  intro x x'
  have hc : Compositional { cx with maxDepth := low } { cx with maxDepth := high } fun _ _ y y' =>
    Lockstep low y y' ∧ y'.Respects WritesOn := lockstep_compositional rfl hle
  have hlock : Lockstep low x x' ∧ x'.Respects WritesOn := hc.evaluate node
  obtain ⟨hsame, hdeep⟩ := hlock.1 s
  refine ⟨hsame, fun depth bound h => ?_, fun hroom => ?_⟩
  · obtain ⟨hdepth, hbound, more, hmore⟩ := hdeep depth bound h
    obtain ⟨written, hwritten⟩ := (writesOn_stepwise { cx with maxDepth := low }).evaluate node s
    exact ⟨hdepth, hbound, written, more, hwritten.symm, by rw [hwritten, hmore]⟩
  · apply (fits_compositional { cx with maxDepth := low }).evaluate node s
    intro n hn
    rw [List.mem_singleton] at hn
    cases hn
    exact hroom

/-- A script of height four that calls a function before it gets to its greatest depth: the limit three stops it after the
call, the limit four does not. -/
theorem limits_around_height_four :
    let host : Host := fun _ _ _ => ⟨["called"], false, .ok .undefined⟩
    let start := State.empty.afterBound ⟨"f", .callable 0 ⟨"f", none, .host 0⟩, .const⟩
    let null : Node := .literal default .null
    let script : Node := .program default
      [.call default (.identifier default "f") [] false, .expressionStatement default (.expressionStatement default null)]
    let x (limit : Nat) := script.evaluate ⟨limit, host⟩
    (3 ≤ 9 ∧ (x 3).outcome start = .error (.nestingTooDeep 4 3) ∧ ((x 3).after start).lines = #["called"] ∧
        ∃ more, ((x 9).after start).lines.toList = "called" :: more) ∧
      4 ≤ 9 ∧ start.environment.depth + script.height ≤ 4 ∧ (x 9).outcome start = (x 4).outcome start := by
  intro host start null script x
  obtain ⟨-, hdeep, -⟩ := nesting_limit_is_transparent ⟨3, host⟩ 3 9 (by decide) script start
  obtain ⟨hsame, -, hroom⟩ := nesting_limit_is_transparent ⟨4, host⟩ 4 9 (by decide) script start
  have hstopped : (x 3).outcome start = .error (.nestingTooDeep 4 3) := by rfl
  have hlines : ((x 3).after start).lines = #["called"] := by rfl
  have hheight : start.environment.depth + script.height ≤ 4 := by
    simp [script, null, start, State.afterBound, State.record, State.empty, Environment.empty, Node.height_eq, Node.parts]
  obtain ⟨-, -, written, more, hwritten, hmore⟩ := hdeep 4 3 hstopped
  refine ⟨⟨by decide, hstopped, hlines, more, ?_⟩, by decide, hheight, (hsame (hroom hheight)).1⟩
  rw [hlines] at hwritten
  rw [hmore, ← hwritten]
  rfl

end ScriptTree
