import ScriptTree.Proofs.Correspondence
import ScriptTree.Proofs.Supply

/-!
# Identities are only compared

A script can tell identities apart and nothing else about them. `Value.rename` exchanges the identities in a value, which is
a correspondence as long as different identities stay different. So evaluation does not mind (`Renamed.evaluate`) under a
host that does not mind either, as the hosts of canned functions do not (`Host.ofCanned_ignoresIdentities`), and a run whose
supply of fresh identities starts elsewhere is the same run but for the identities that come into being in it
(`evaluate_of_supply`).
-/

namespace ScriptTree

mutual

/-- The value with its identities exchanged. -/
def Value.rename (ρ : Identity → Identity) : Value → Value
  | .regex i r => .regex (ρ i) r
  | .callable i f => .callable (ρ i) f
  | .object i properties => .object (ρ i) (renameProperties ρ properties)
  | v => v

/-- Properties with the identities in their values exchanged. -/
def renameProperties (ρ : Identity → Identity) : List (String × Value) → List (String × Value)
  | [] => []
  | (key, value) :: rest => (key, value.rename ρ) :: renameProperties ρ rest

end

namespace Value

variable {ρ : Identity → Identity}

mutual

/-- A value whose identities are all kept stays as it is. -/
theorem rename_of_fixed (v : Value) (h : ∀ i ∈ v.identities, ρ i = i) : v.rename ρ = v := by
  match v with
  | .regex i r => simp [rename, h i (by simp [identities])]
  | .callable i f => simp [rename, h i (by simp [identities])]
  | .object i properties =>
    have hi := h i (by simp [identities])
    have hproperties := renameProperties_of_fixed properties fun j hj => h j (by simp [identities, hj])
    simp [rename, hi, hproperties]
  | .undefined | .null | .boolean _ | .number _ | .string _ | .bigint _ => rfl

/-- Properties in which only such identities occur stay as they are. -/
theorem renameProperties_of_fixed (properties : List (String × Value))
    (h : ∀ i ∈ identitiesOfProperties properties, ρ i = i) : renameProperties ρ properties = properties := by
  match properties with
  | [] => rfl
  | (key, value) :: rest =>
    have hvalue := rename_of_fixed value fun i hi => h i (by simp [identitiesOfProperties, hi])
    have hrest := renameProperties_of_fixed rest fun i hi => h i (by simp [identitiesOfProperties, hi])
    simp [renameProperties, hvalue, hrest]

end

end Value

/-- The correspondence of identities with those that they are exchanged for; different ones stay different. -/
def Correspondence.ofRenaming (ρ : Identity → Identity) (hρ : ρ.Injective) : Correspondence where
  identities i j := ρ i = j
  bodies := Eq
  oneToOne := ⟨fun _ _ _ hi hj => hρ (hi.trans hj.symm), fun _ _ _ hi hj => hi.symm.trans hj⟩

namespace Value

variable {ρ : Identity → Identity} (hρ : ρ.Injective)

mutual

/-- A value corresponds to itself with its identities exchanged. -/
theorem corresponds_rename (v : Value) : v.Corresponds (.ofRenaming ρ hρ) (v.rename ρ) := by
  match v with
  | .regex i r => exact .regex r rfl
  | .callable i f => exact .callable rfl rfl rfl rfl
  | .object i properties => exact .object rfl (corresponds_renameProperties properties)
  | .undefined | .null | .boolean _ | .number _ | .string _ | .bigint _ => exact .primitive rfl

/-- Properties correspond to themselves with their identities exchanged. -/
theorem corresponds_renameProperties (properties : List (String × Value)) :
    PropertiesCorrespond (.ofRenaming ρ hρ) properties (renameProperties ρ properties) := by
  match properties with
  | [] => exact .nil
  | (key, value) :: rest => exact .cons (corresponds_rename value) (corresponds_renameProperties rest)

end

variable {hρ}

mutual

/-- With its identities exchanged, a value corresponds to nothing else. -/
theorem Corresponds.rename_eq {v v' : Value} (h : v.Corresponds (.ofRenaming ρ hρ) v') : v.rename ρ = v' := by
  cases h with
  | @primitive v hv =>
    cases v with
    | regex | callable | object => cases hv
    | _ => rfl
  | regex r hi => exact congrArg (regex · r) hi
  | @callable i _ f f' hi hname harity hbody =>
    have hf : f = f' := by
      cases f
      cases f'
      exact (Builtin.mk.injEq ..).mpr ⟨hname.symm, harity.symm, hbody⟩
    rw [rename, hi, hf]
  | object hi hproperties => rw [rename, hi, renameProperties_eq hproperties]

/-- Corresponding properties are the same with identities exchanged. -/
theorem renameProperties_eq {properties properties' : List (String × Value)}
    (h : PropertiesCorrespond (.ofRenaming ρ hρ) properties properties') : renameProperties ρ properties = properties' := by
  cases h with
  | nil => rfl
  | cons hv hrest => rw [renameProperties, hv.rename_eq, renameProperties_eq hrest]

end

/-- To correspond by a renaming is to be the same value with its identities exchanged. -/
theorem corresponds_iff (hρ : ρ.Injective) (v v' : Value) : v.Corresponds (.ofRenaming ρ hρ) v' ↔ v.rename ρ = v' := by
  constructor
  · exact Corresponds.rename_eq
  · rintro rfl
    exact corresponds_rename hρ v

end Value

/-! ## States with exchanged identities -/

/-- A call with the identities in its arguments exchanged. -/
def Call.rename (ρ : Identity → Identity) (call : Call) : Call := ⟨call.body, call.arguments.map (Value.rename ρ)⟩

/-- A binding with the identities in its value exchanged. -/
def Binding.rename (ρ : Identity → Identity) (b : Binding) : Binding := ⟨b.name, b.value.rename ρ, b.kind⟩

/-- A host whose replies do the same whatever the identities in the arguments of its calls are, as long as different ones
stay different. -/
def Host.IgnoresIdentities (host : Host) : Prop :=
  ∀ ρ : Identity → Identity, ρ.Injective → ∀ earlier key arguments,
    (host earlier key arguments).SameEffect
      (host (earlier.map (Call.rename ρ)) key (arguments.map (Value.rename ρ)))

/-- A state is another one with its identities exchanged, those that are still to come in their order. -/
structure Renamed (ρ : Identity → Identity) (s s' : State) : Prop where
  bindings : s'.environment.bindings = s.environment.bindings.map (Binding.rename ρ)
  depth : s'.environment.depth = s.environment.depth
  lines : s'.lines = s.lines
  interrupted : s'.interrupted = s.interrupted
  calls : s'.calls = s.calls.map (Call.rename ρ)
  fresh : ∀ n, ρ (s.nextIdentity + n) = s'.nextIdentity + n

namespace Bindings

variable (ρ : Identity → Identity) (table : Bindings)

/-- The binding of a name is found before or after identities are exchanged. -/
theorem find?_rename (name : String) :
    find? (table.map (Binding.rename ρ)) name = (table.find? name).map (Binding.rename ρ) := by
  induction table with
  | nil => rfl
  | cons b rest ih =>
    by_cases h : b.name = name
    · simp [find?, Binding.rename, h]
    · simpa [find?, Binding.rename, h] using ih

end Bindings

section Corresponding

variable {ρ : Identity → Identity} (hρ : ρ.Injective)

theorem Binding.corresponds_iff (b b' : Binding) : b.Corresponds (.ofRenaming ρ hρ) b' ↔ b.rename ρ = b' := by
  constructor
  · rintro ⟨hname, hvalue, hkind⟩
    rw [rename, hvalue.rename_eq, ← hname, ← hkind]
  · rintro rfl
    exact ⟨rfl, b.value.corresponds_rename hρ, rfl⟩

/-- Where corresponding is being exchanged for something, rows correspond if all of the one is exchanged for the other. -/
theorem forall₂_iff_map_eq {α : Type} {rel : α → α → Prop} {exchange : α → α} (h : ∀ a a', rel a a' ↔ exchange a = a')
    (row row' : List α) : List.Forall₂ rel row row' ↔ row.map exchange = row' := by
  obtain rfl : rel = fun a a' => exchange a = a' := funext fun a => funext fun a' => propext (h a a')
  rw [← List.forall₂_map_left_iff (R := Eq), List.forall₂_eq_eq_eq]

theorem Value.all_correspond_iff (values values' : List Value) :
    List.Forall₂ (Value.Corresponds (.ofRenaming ρ hρ)) values values' ↔ values.map (Value.rename ρ) = values' :=
  forall₂_iff_map_eq (Value.corresponds_iff hρ) values values'

theorem Call.corresponds_iff (call call' : Call) :
    call.Corresponds (.ofRenaming ρ hρ) call' ↔ call.rename ρ = call' := by
  constructor
  · rintro ⟨hbody, harguments⟩
    rw [rename, (Value.all_correspond_iff hρ _ _).mp harguments, show call.body = call'.body from hbody]
  · rintro rfl
    exact ⟨rfl, (Value.all_correspond_iff hρ _ _).mpr rfl⟩

theorem Call.all_correspond_iff (calls calls' : List Call) :
    List.Forall₂ (Call.Corresponds (.ofRenaming ρ hρ)) calls calls' ↔ calls.map (Call.rename ρ) = calls' :=
  forall₂_iff_map_eq (Call.corresponds_iff hρ) calls calls'

/-- A state corresponds to the one with its identities exchanged. -/
theorem renamed_iff {s s' : State} : Renamed ρ s s' ↔ s.Corresponds (.ofRenaming ρ hρ) s' := by
  have hbindings := forall₂_iff_map_eq (Binding.corresponds_iff hρ) s.environment.bindings s'.environment.bindings
  have hcalls := Call.all_correspond_iff hρ s.calls s'.calls
  constructor
  · rintro ⟨hb, hdepth, hlines, hinterrupted, hc, hfresh⟩
    exact ⟨hbindings.mpr hb.symm, hdepth, hlines, hinterrupted, hcalls.mpr hc.symm, hfresh⟩
  · rintro ⟨hb, hdepth, hlines, hinterrupted, hc, hfresh⟩
    exact ⟨(hbindings.mp hb).symm, hdepth, hlines, hinterrupted, (hcalls.mp hc).symm, hfresh⟩

end Corresponding

/-- A host that does not mind agrees with itself. -/
theorem Host.IgnoresIdentities.agrees {host : Host} (h : host.IgnoresIdentities) {ρ : Identity → Identity}
    (hρ : ρ.Injective) : (Correspondence.ofRenaming ρ hρ).HostsAgree host host := by
  intro f f' earlier earlier' arguments arguments' hbody hcalls harguments
  have hsame : f.body = f'.body := hbody
  obtain rfl := (Call.all_correspond_iff hρ _ _).mp hcalls
  unfold Builtin.reply
  rw [← hsame]
  cases f.body with
  | consoleLog => exact ⟨by rw [consoleLine_corresponding harguments], rfl, trivial⟩
  | host key =>
    obtain rfl := (Value.all_correspond_iff hρ _ _).mp harguments
    exact h ρ hρ earlier key arguments

/-- Evaluation does not mind that identities are exchanged, under a host that does not mind either. -/
theorem Renamed.evaluate {ρ : Identity → Identity} (hρ : ρ.Injective) {cx : Context} (hhost : cx.host.IgnoresIdentities)
    {s s' : State} (h : Renamed ρ s s') (node : Node) :
    (node.evaluate cx).outcome s' = ((node.evaluate cx).outcome s).map (Value.rename ρ) ∧
      Renamed ρ ((node.evaluate cx).after s) ((node.evaluate cx).after s') := by
  obtain ⟨hmatch, hafter⟩ := (Correspondence.simulation rfl (hhost.agrees hρ)).evaluate node ((renamed_iff hρ).mp h)
  refine ⟨?_, (renamed_iff hρ).mpr hafter⟩
  rcases hmatch.cases with ⟨v, v', ho, ho', hv⟩ | ⟨e, ho, ho'⟩
  · rw [ho, ho', ← hv.rename_eq]
    rfl
  · rw [ho, ho']
    rfl

/-! ## Hosts that ignore identities -/

/-- A host that does nothing looks at nothing. -/
theorem Host.silent_ignoresIdentities : Host.silent.IgnoresIdentities := fun _ _ _ _ _ => ⟨rfl, rfl, trivial⟩

/-- Canned functions inspect their arguments, and inspection does not show identities. -/
theorem Host.ofCanned_ignoresIdentities (functions : Array Canned) : (Host.ofCanned functions).IgnoresIdentities := by
  intro ρ hρ earlier key arguments
  unfold Host.ofCanned
  cases functions[key]? with
  | none => exact Host.silent_ignoresIdentities ρ hρ earlier key arguments
  | some f =>
    have hresult : Matches (fun _ _ => True) f.result f.result := by
      cases f.result with
      | ok v => exact trivial
      | error reason => exact rfl
    have hf : f.SameEffect f := ⟨rfl, rfl, hresult⟩
    exact hf.reply ((Value.all_correspond_iff hρ arguments _).mpr rfl)

/-! ## Another supply of fresh identities -/

/-- Keeps the identities below a supply, and takes those from this supply on to another one, in their order. -/
def renumber (supply supply' i : Identity) : Identity := if i < supply then i else i - supply + supply'

section Renumber

variable {supply supply' : Identity}

/-- Identities that were handed out keep their number. -/
theorem renumber_of_lt {i : Identity} (h : i < supply) : renumber supply supply' i = i := if_pos h

/-- Identities to come are numbered from the other supply on. -/
theorem renumber_add (n : Nat) : renumber supply supply' (supply + n) = supply' + n := by
  have hn : ¬supply + n < supply := Nat.not_lt.mpr (Nat.le_add_right _ _)
  simp [renumber, hn, Nat.add_comm]

/-- If the supplies are equal, nothing is renumbered. -/
theorem renumber_self (i : Identity) : renumber supply supply i = i := by
  unfold renumber Identity at *
  split <;> omega

/-- Renumbering to a later supply keeps identities apart. -/
theorem renumber_injective (h : supply ≤ supply') : (renumber supply supply').Injective := by
  intro i j hij
  unfold renumber Identity at *
  split at hij <;> split at hij <;> omega

end Renumber

/-- What there is in a state stays as it is when its identities do. -/
theorem Renamed.of_fixed {ρ : Identity → Identity} {s : State} {supply' : Identity}
    (hbindings : ∀ b ∈ s.environment.bindings, b.rename ρ = b) (hcalls : ∀ call ∈ s.calls, call.rename ρ = call)
    (hfresh : ∀ n, ρ (s.nextIdentity + n) = supply' + n) : Renamed ρ s { s with nextIdentity := supply' } where
  bindings := ((List.map_congr_left hbindings).trans (List.map_id _)).symm
  depth := rfl
  lines := rfl
  interrupted := rfl
  calls := ((List.map_congr_left hcalls).trans (List.map_id _)).symm
  fresh := hfresh

/-- A binding stays the same if the identities in its value do. -/
theorem Binding.rename_of_fixed {ρ : Identity → Identity} {b : Binding} (h : ∀ i ∈ b.value.identities, ρ i = i) :
    b.rename ρ = b := by
  rw [rename, b.value.rename_of_fixed h]

theorem Call.rename_of_fixed {ρ : Identity → Identity} {call : Call}
    (h : ∀ v ∈ call.arguments, ∀ i ∈ v.identities, ρ i = i) : call.rename ρ = call := by
  rw [rename, List.map_congr_left fun v hv => v.rename_of_fixed (h v hv)]
  exact congrArg (Call.mk _) (List.map_id _)

/-- Under another, later supply of fresh identities a run is the same run, but for the identities that come into being in
it: if no identity that is there was to come, and if the host does not mind. -/
theorem evaluate_of_supply {cx : Context} (node : Node) {s : State} {supply' : Identity}
    (h : s.nextIdentity = supply' ∨ (cx.host.IgnoresIdentities ∧ s.Supplied ∧ s.nextIdentity ≤ supply')) :
    (node.evaluate cx).outcome { s with nextIdentity := supply' } =
        ((node.evaluate cx).outcome s).map (Value.rename (renumber s.nextIdentity supply')) ∧
      Renamed (renumber s.nextIdentity supply') ((node.evaluate cx).after s)
        ((node.evaluate cx).after { s with nextIdentity := supply' }) := by
  rcases h with rfl | ⟨hhost, hs, hle⟩
  · have hid : Value.rename (renumber s.nextIdentity s.nextIdentity) = id :=
      funext fun v => v.rename_of_fixed fun i _ => renumber_self i
    refine ⟨?_, .of_fixed (fun b _ => b.rename_of_fixed fun i _ => renumber_self i)
      (fun call _ => call.rename_of_fixed fun _ _ i _ => renumber_self i) fun n => renumber_self _⟩
    rw [hid]
    cases (node.evaluate cx).outcome s <;> rfl
  · have hstart : Renamed (renumber s.nextIdentity supply') s { s with nextIdentity := supply' } :=
      .of_fixed (fun b hb => b.rename_of_fixed fun i hi => renumber_of_lt (hs.bindings b hb i hi))
        (fun call hcall => call.rename_of_fixed fun v hv i hi => renumber_of_lt (hs.calls call hcall v hv i hi)) renumber_add
    exact hstart.evaluate (renumber_injective hle) hhost node

end ScriptTree
