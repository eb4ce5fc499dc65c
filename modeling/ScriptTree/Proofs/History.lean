import ScriptTree.Proofs.Composition

/-!
# The table of bindings as the replay of its history

The record of a run keeps every attempt to bind a name, granted or refused. `Replays` says what a table has to do with such
a history: an attempt is refused exactly if the name was bound as a constant before, the names stand in the order in which
they were first granted, and each is bound as it was granted last. `table_replays_history` is the main statement: whatever
is done with an environment, in any order, its table replays its history, and a constant stays what it is.
-/

namespace ScriptTree

/-- An attempt to bind a name, and whether it was granted. -/
structure Attempt where
  binding : Binding
  granted : Bool

/-- The attempt that an event records. -/
def Event.attempt? : Event → Option Attempt
  | .bound b => some ⟨b, true⟩
  | .refused b => some ⟨b, false⟩
  | .calling .. | .entered .. => none

/-- The attempts to bind a name, in the order in which they were made. -/
def State.history (s : State) : List Attempt := s.events.toList.filterMap Event.attempt?

/-- A record adds the attempt that it shows, if it shows one. -/
theorem State.history_record (s : State) (event : Event) :
    (s.record event).history = s.history ++ event.attempt?.toList := by
  unfold State.history State.record
  rw [Array.toList_push, List.filterMap_append]
  cases h : event.attempt? <;> simp [h]

/-- To enter a node is no attempt to bind a name. -/
theorem State.history_inside (s : State) (node : Node) : (s.inside node).history = s.history := by
  unfold State.inside
  rw [State.history_record]
  exact List.append_nil _

/-- The bindings of a history that took effect, in order. -/
def grantedBindings (history : List Attempt) : List Binding := (history.filter Attempt.granted).map Attempt.binding

/-- What took effect of two histories in a row is what took effect of each. -/
theorem grantedBindings_append (before after : List Attempt) :
    grantedBindings (before ++ after) = grantedBindings before ++ grantedBindings after := by
  simp only [grantedBindings, List.filter_append, List.map_append]

/-- An element after a list without repeats stays if it is new. -/
theorem eraseDups_concat (names : List String) (name : String) :
    (names ++ [name]).eraseDups = if name ∈ names then names.eraseDups else names.eraseDups ++ [name] := by
  rw [List.eraseDups_append]
  by_cases h : name ∈ names
  · have he : [name].removeAll names = [] := by simp [List.cons_removeAll, h]
    rw [if_pos h, he, List.eraseDups_nil, List.append_nil]
  · have he : [name].removeAll names = [name] := by simp [List.cons_removeAll, h]
    rw [if_neg h, he]
    rfl

/-- No name is left twice once repeats are erased. -/
theorem nodup_eraseDups (names : List String) : names.eraseDups.Nodup := by
  rw [← List.reverse_reverse names]
  induction names.reverse with
  | nil => exact List.nodup_nil
  | cons name rest ih =>
    rw [List.reverse_cons, eraseDups_concat]
    split
    · exact ih
    · rename_i h
      refine List.nodup_append.mpr ⟨ih, List.pairwise_singleton _ _, fun a ha b hb => ?_⟩
      rw [List.mem_singleton] at hb
      subst hb
      rintro rfl
      exact h (List.mem_eraseDups.mp ha)

/-- Whether an attempt is granted follows from the ones before it: it is refused exactly if one of them has bound the name
as a constant. -/
def Judged (history : List Attempt) : Prop := ∀ before attempt after, history = before ++ attempt :: after →
  (attempt.granted = false ↔ ∃ b ∈ grantedBindings before, b.name = attempt.binding.name ∧ b.kind.isConst = true)

/-- A history is judged if all of it but the last attempt is, and the last attempt is. -/
theorem Judged.snoc {history : List Attempt} (h : Judged history) {attempt : Attempt}
    (hlast : attempt.granted = false ↔
      ∃ b ∈ grantedBindings history, b.name = attempt.binding.name ∧ b.kind.isConst = true) :
    Judged (history ++ [attempt]) := by
  intro before a after hsplit
  rcases List.eq_nil_or_concat after with rfl | ⟨after, last, rfl⟩
  · obtain ⟨rfl, hsingle⟩ := List.append_inj' hsplit rfl
    cases hsingle
    exact hlast
  · rw [List.concat_eq_append, ← List.cons_append, ← List.append_assoc] at hsplit
    obtain ⟨hinit, -⟩ := List.append_inj' hsplit rfl
    exact h before a after hinit

/-- A table replays a history: every attempt was judged by those before it, the names stand in the order of their first
granted attempts, each is bound as in its last granted attempt, and one that was once bound as a constant is bound so. -/
structure Replays (table : Bindings) (history : List Attempt) : Prop where
  judged : Judged history
  names : table.names = ((grantedBindings history).map Binding.name).eraseDups
  latest : ∀ name, table.find? name = (grantedBindings history).reverse.find? fun b => b.name == name
  forever : ∀ b ∈ grantedBindings history, b.kind.isConst = true → table.find? b.name = some b

namespace Replays

variable {table : Bindings} {history : List Attempt}

/-- The table without bindings replays the history without attempts. -/
theorem nil : Replays [] [] where
  judged := by
    intro before attempt after h
    exact absurd h (by simp)
  names := rfl
  latest _ := rfl
  forever := nofun

/-- What a name is bound to was granted to it. -/
theorem granted_of_find? (h : Replays table history) {name : String} {b : Binding} (hb : table.find? name = some b) :
    b ∈ grantedBindings history ∧ b.name = name := by
  rw [h.latest] at hb
  have hname := List.find?_some hb
  exact ⟨List.mem_reverse.mp (List.mem_of_find?_eq_some hb), beq_iff_eq.mp hname⟩

/-- In a table that replays a history the constants are the names that were ever bound as constants. -/
theorem isConst_iff (h : Replays table history) (name : String) :
    table.isConst name = true ↔ ∃ b ∈ grantedBindings history, b.name = name ∧ b.kind.isConst = true := by
  unfold Bindings.isConst
  constructor
  · intro hc
    obtain ⟨b, hb, hk⟩ := (Option.any_eq_true _ _).mp hc
    obtain ⟨hgranted, hname⟩ := h.granted_of_find? hb
    exact ⟨b, hgranted, hname, hk⟩
  · rintro ⟨b, hb, rfl, hk⟩
    rw [h.forever b hb hk, Option.any_some, hk]

/-- The names that are not constants are those that were never bound as such. -/
theorem not_isConst_iff (h : Replays table history) (name : String) :
    table.isConst name = false ↔ ¬∃ b ∈ grantedBindings history, b.name = name ∧ b.kind.isConst = true := by
  rw [← h.isConst_iff, Bool.not_eq_true]

/-- No name stands in such a table twice. -/
theorem nodup (h : Replays table history) : table.names.Nodup := by
  rw [h.names]
  exact nodup_eraseDups _

/-- An attempt that is granted puts its binding into the table. -/
theorem grant (h : Replays table history) (b : Binding) (hc : table.isConst b.name = false) :
    Replays (table.put b) (history ++ [⟨b, true⟩]) := by
  have hg : grantedBindings (history ++ [⟨b, true⟩]) = grantedBindings history ++ [b] := grantedBindings_append _ _
  refine ⟨h.judged.snoc ?_, ?_, fun name => ?_, fun b' hb' hk => ?_⟩
  · exact iff_of_false nofun ((h.not_isConst_iff b.name).mp hc)
  · rw [hg, Bindings.names_put, List.map_append, List.map_singleton, eraseDups_concat, h.names]
    simp only [List.mem_eraseDups]
  · rw [hg, List.reverse_append, List.reverse_singleton, List.singleton_append, List.find?_cons]
    by_cases hn : b.name = name
    · subst hn
      rw [Bindings.find?_put_self]
      simp
    · rw [Bindings.find?_put_of_ne table hn, h.latest, beq_false_of_ne hn]
  · rw [hg, List.mem_append, List.mem_singleton] at hb'
    rcases hb' with hb' | rfl
    · have hne : b.name ≠ b'.name := by
        intro he
        exact (h.not_isConst_iff b.name).mp hc ⟨b', hb', he.symm, hk⟩
      rw [Bindings.find?_put_of_ne table hne]
      exact h.forever b' hb' hk
    · exact Bindings.find?_put_self table b'

/-- An attempt that is refused leaves the table as it is. -/
theorem refuse (h : Replays table history) (b : Binding) (hc : table.isConst b.name = true) :
    Replays table (history ++ [⟨b, false⟩]) := by
  have hg : grantedBindings (history ++ [⟨b, false⟩]) = grantedBindings history := by
    rw [grantedBindings_append]
    exact List.append_nil _
  refine ⟨h.judged.snoc ?_, ?_, ?_, ?_⟩
  · exact iff_of_true rfl ((h.isConst_iff b.name).mp hc)
  · rw [hg]
    exact h.names
  · rw [hg]
    exact h.latest
  · rw [hg]
    exact h.forever

end Replays

/-! ## What a run adds to the history -/

/-- A state comes after another if its history goes on from there and its table replays the history if that one's did. -/
def Continues (s t : State) : Prop :=
  s.history <+: t.history ∧
    (Replays s.environment.bindings s.history → Replays t.environment.bindings t.history)

theorem Continues.refl (s : State) : Continues s s := ⟨List.prefix_refl _, id⟩

theorem Continues.trans {s t u : State} (h : Continues s t) (h' : Continues t u) : Continues s u :=
  ⟨h.1.trans h'.1, h'.2 ∘ h.2⟩

/-- An attempt that is granted is the next one of the history. -/
theorem continues_afterBound {s : State} (b : Binding) (hc : s.environment.bindings.isConst b.name = false) :
    Continues s (s.afterBound b) := by
  have hh : (s.afterBound b).history = s.history ++ [⟨b, true⟩] := State.history_record _ _
  refine ⟨⟨_, hh.symm⟩, fun h => ?_⟩
  rw [hh]
  exact h.grant b hc

/-- An attempt that is refused is the next one of the history. -/
theorem continues_refused {s : State} (b : Binding) (hc : s.environment.bindings.isConst b.name = true) :
    Continues s (s.record (.refused b)) := by
  have hh : (s.record (.refused b)).history = s.history ++ [⟨b, false⟩] := State.history_record _ _
  refine ⟨⟨_, hh.symm⟩, fun h => ?_⟩
  rw [hh]
  exact h.refuse b hc

/-- A run touches the table by the attempts that it records, and by nothing else. -/
theorem continues_stepwise (cx : Context) : Stepwise cx Continues where
  refl := Continues.refl
  trans := Continues.trans
  node := by
    intro s t node _ _ h
    obtain ⟨hpre, hrep⟩ := h
    rw [State.history_inside] at hpre hrep
    exact ⟨hpre, hrep⟩
  fresh s := Continues.refl s
  bound b hc := continues_afterBound b hc
  refused b hc := continues_refused b hc
  call s site f arguments _ := by
    have hh : (s.afterCall site f arguments (f.reply cx.host s.calls arguments)).history = s.history := by
      show (s.record (.calling site f.name arguments.length)).history = s.history
      rw [State.history_record]
      exact List.append_nil _
    exact ⟨⟨[], by rw [hh, List.append_nil]⟩, by rw [hh]; exact id⟩

/-! ## Whatever is done with an environment -/

/-- What can be done with an environment: a name is bound, a tree is evaluated under some context whose interrupt flag
stands one way or the other, a node is entered under some limit, a node is left. -/
inductive Operation where
  | bind (name : String) (value : Value) (kind : DeclarationKind)
  | evaluate (cx : Context) (interrupted : Bool) (node : Node)
  | enter (max : Nat)
  | leave

/-- The state after an operation, which may have failed. -/
def Operation.perform (s : State) : Operation → State
  | .bind name value kind =>
    match State.bind name value kind s with
    | .ok _ t => t
    | .error _ t => t
  | .evaluate cx interrupted node => (node.evaluate cx).after { s with interrupted := interrupted }
  | .enter max =>
    match s.environment.enter max with
    | .ok environment => { s with environment := environment }
    | .error _ => s
  | .leave => s.leave

/-- The state after some operations. -/
def State.performing (s : State) (operations : List Operation) : State := operations.foldl Operation.perform s

/-- Every operation goes on with the history, and keeps the table to it. -/
theorem Operation.perform_continues (s : State) (operation : Operation) : Continues s (operation.perform s) := by
  cases operation with
  | bind name value kind =>
    rw [Operation.perform]
    cases hc : s.environment.bindings.isConst name with
    | false =>
      rw [State.bind_of_free value kind hc]
      exact continues_afterBound ⟨name, value, kind⟩ hc
    | true =>
      rw [State.bind_of_const value kind hc]
      exact continues_refused ⟨name, value, kind⟩ hc
  | evaluate cx interrupted node =>
    exact (continues_stepwise cx).evaluate node { s with interrupted := interrupted }
  | enter max =>
    rw [Operation.perform]
    rcases Nat.lt_or_ge s.environment.depth max with hd | hd
    · rw [Environment.enter_of_lt hd]
      exact Continues.refl s
    · rw [Environment.enter_of_le hd]
      exact Continues.refl s
  | leave => exact Continues.refl s

/-- Operations in a row go on with the history, and keep the table to it. -/
theorem State.performing_continues (s : State) (operations : List Operation) :
    Continues s (s.performing operations) := by
  induction operations generalizing s with
  | nil => exact Continues.refl s
  | cons operation rest ih => exact (operation.perform_continues s).trans (ih (operation.perform s))

/-- In a history that goes on, no name that was bound disappears or moves. -/
theorem Continues.names_prefix {s t : State} (h : Continues s t) (hs : Replays s.environment.bindings s.history) :
    s.environment.bindings.names <+: t.environment.bindings.names := by
  obtain ⟨more, hmore⟩ := h.1
  rw [hs.names, (h.2 hs).names, ← hmore, grantedBindings_append, List.map_append, List.eraseDups_append]
  exact List.prefix_append _ _

/-- In a history that goes on, a constant keeps its value and its kind. -/
theorem Continues.find?_of_const {s t : State} (h : Continues s t) (hs : Replays s.environment.bindings s.history)
    {name : String} {b : Binding} (hb : s.environment.bindings.find? name = some b) (hk : b.kind.isConst = true) :
    t.environment.bindings.find? name = some b := by
  obtain ⟨hgranted, hname⟩ := hs.granted_of_find? hb
  obtain ⟨more, hmore⟩ := h.1
  rw [← hname]
  apply (h.2 hs).forever b _ hk
  rw [← hmore, grantedBindings_append]
  exact List.mem_append_left _ hgranted

section Bind

variable {name : String} {value : Value} {kind : DeclarationKind} {s t : State}

/-- A name that was bound is the next granted attempt. -/
theorem State.bind_ok (h : State.bind name value kind s = .ok () t) :
    t.history = s.history ++ [⟨⟨name, value, kind⟩, true⟩] := by
  cases hc : s.environment.bindings.isConst name with
  | false =>
    rw [State.bind_of_free value kind hc] at h
    cases h
    exact State.history_record _ _
  | true =>
    rw [State.bind_of_const value kind hc] at h
    cases h

/-- To bind a name fails only if the name is a constant. The environment stays as it is, and
the attempt is the next refused one. -/
theorem State.bind_error {e : EnvironmentError} (h : State.bind name value kind s = .error e t) :
    s.environment.bindings.isConst name = true ∧ e = .constReassigned name ∧ t.environment = s.environment ∧
      t.history = s.history ++ [⟨⟨name, value, kind⟩, false⟩] := by
  cases hc : s.environment.bindings.isConst name with
  | false =>
    rw [State.bind_of_free value kind hc] at h
    cases h
  | true =>
    rw [State.bind_of_const value kind hc] at h
    cases h
    exact ⟨rfl, rfl, rfl, State.history_record _ _⟩

end Bind

/-- The state in which a script starts replays its history: the console has been bound, as a variable. -/
theorem initial_replays (lines : Array String) :
    Replays { State.initial with lines := lines }.environment.bindings { State.initial with lines := lines }.history ∧
      { State.initial with lines := lines }.history = [⟨⟨"console", State.console 0 1, .var⟩, true⟩] :=
  ⟨Replays.nil.grant ⟨"console", State.console 0 1, .var⟩ rfl, rfl⟩

/-- The table of bindings is the replay of its history, and a constant is one forever. After any operations the table
replays the attempts that were made since the console was bound; the next attempt is refused exactly if an earlier one has
bound the name as a constant; a refused attempt, in whatever state, leaves the environment as it is; and whatever is done
next, the names keep their places and the constants what they are bound to. -/
theorem table_replays_history (lines : Array String) (operations more : List Operation) :
    let s := { State.initial with lines := lines }.performing operations
    let t := s.performing more
    (∃ rest, s.history = ⟨⟨"console", State.console 0 1, .var⟩, true⟩ :: rest) ∧
    Replays s.environment.bindings s.history ∧
    s.environment.bindings.names.Nodup ∧
    (∀ name value kind, (∃ u, State.bind name value kind s = .error (.constReassigned name) u) ↔
      ∃ b ∈ grantedBindings s.history, b.name = name ∧ b.kind.isConst = true) ∧
    (∀ name value kind u v e, State.bind name value kind u = .error e v →
      e = .constReassigned name ∧ v.environment = u.environment ∧
        v.history = u.history ++ [⟨⟨name, value, kind⟩, false⟩]) ∧
    (∀ name value kind u v, State.bind name value kind u = .ok () v →
      v.history = u.history ++ [⟨⟨name, value, kind⟩, true⟩]) ∧
    s.history <+: t.history ∧
    s.environment.bindings.names <+: t.environment.bindings.names ∧
    ∀ name b, s.environment.bindings.find? name = some b → b.kind.isConst = true →
      t.environment.bindings.find? name = some b := by
  intro s t
  obtain ⟨hinitial, hstart⟩ := initial_replays lines
  have hs : Continues { State.initial with lines := lines } s := State.performing_continues _ operations
  have ht : Continues s t := s.performing_continues more
  have hrep := hs.2 hinitial
  refine ⟨?_, hrep, hrep.nodup, fun name value kind => ?_, fun _ _ _ _ _ _ h => (State.bind_error h).2,
    fun _ _ _ _ _ => State.bind_ok, ht.1, ht.names_prefix hrep, fun _ _ => ht.find?_of_const hrep⟩
  · obtain ⟨rest, hrest⟩ := hs.1
    rw [hstart] at hrest
    exact ⟨rest, hrest.symm⟩
  · rw [← hrep.isConst_iff]
    constructor
    · rintro ⟨u, hu⟩
      exact (State.bind_error hu).1
    · intro hc
      exact ⟨_, State.bind_of_const value kind hc⟩

/-- A constant that a failing script has bound outlives an attempt to bind it as a variable. -/
theorem constant_outlives_rebinding :
    let null : Node := .literal default .null
    let script : Node := .program default
      [.declaration default .const [.mk default (.identifier default "k") (some null)], .unsupported]
    let s := { State.initial with lines := #[] }.performing [.evaluate ⟨9, Host.silent⟩ false script]
    let b : Binding := ⟨"k", .null, .const⟩
    s.environment.bindings.find? "k" = some b ∧ b.kind.isConst = true ∧
      (s.performing [.bind "k" .undefined .var, .leave]).environment.bindings.find? "k" = some b := by
  intro null script s b
  have hb : s.environment.bindings.find? "k" = some b := by rfl
  obtain ⟨-, -, -, -, -, -, -, -, hconst⟩ := table_replays_history #[] [.evaluate ⟨9, Host.silent⟩ false script]
    [.bind "k" .undefined .var, .leave]
  exact ⟨hb, rfl, hconst "k" b hb rfl⟩

end ScriptTree
