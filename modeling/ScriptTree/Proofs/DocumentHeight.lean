import ScriptTree.Document.Parse
import ScriptTree.Proofs.Decoding
import ScriptTree.Proofs.JsonReading
import ScriptTree.Proofs.NestingLimit

/-!
# Documents are never too deep

Every level of the walk of a tree costs the document an object of its own, and the statements of a program an array on
top of that: a decoded node is no higher than its JSON value is nested (`Node.height_le_nesting`). The reader bounds the
nesting of documents, so a script that comes from one never meets the limit of nesting that holds by default
(`parsed_script_fits`).
-/

namespace ScriptTree

/-- The walk of a node goes so deep exactly if the walks of its parts stay one short of that. -/
theorem Node.height_le_succ_iff {node : Node} {n : Nat} :
    node.height ≤ n + 1 ↔ ∀ part ∈ node.parts, part.height ≤ n := by
  constructor
  · intro h part hpart
    have := Node.height_lt_of_mem_parts hpart
    omega
  · intro h
    rw [node.height_eq]
    apply Nat.succ_le_succ
    generalize node.parts = parts at h
    induction parts with
    | nil => exact Nat.zero_le n
    | cons part rest ih =>
      rw [List.forall_mem_cons] at h
      exact Nat.max_le.mpr ⟨h.1, ih h.2⟩

/-- The nodes in a decoded field are no higher than a value of some nesting allows: a list costs one level, and a
declarator another one. -/
def Part.Fits (nesting : Nat) : Part → Prop
  | .node child => child.height ≤ nesting
  | .nodes children => 1 ≤ nesting ∧ ∀ child ∈ children, child.height + 1 ≤ nesting
  | .declarators entries => ∀ d ∈ entries, ∀ init ∈ d.init, init.height + 2 ≤ nesting
  | _ => True

/-- What fits a height fits every larger one. -/
theorem Part.Fits.mono {n m : Nat} (hle : n ≤ m) {part : Part} (h : part.Fits n) : part.Fits m := by
  cases part with
  | node child => exact Nat.le_trans h hle
  | nodes children => exact ⟨h.1.trans hle, fun child hm => (h.2 child hm).trans hle⟩
  | declarators entries => exact fun d hd init hinit => (h d hd init hinit).trans hle
  | _ => trivial

/-! ## Putting nodes together -/

section Assemble

variable {parts : Parts} {name : String} {n : Nat}

/-- A node among the parts was decoded from the field of its name. -/
theorem Parts.node_eq_ok {node : Node} (h : parts.node name = .ok node) : parts.lookup name = some (.node node) := by
  unfold Parts.node at h
  split at h
  · cases h
    assumption
  · cases h

/-- A node that may be absent was decoded from the field of its name, if it is there. -/
theorem Parts.node?_eq_some {node : Node} (h : parts.node? name = some node) :
    parts.lookup name = some (.node node) := by
  unfold Parts.node? at h
  split at h
  · cases h
    assumption
  · cases h

theorem Parts.nodes?_eq_some {nodes : List Node} (h : parts.nodes? name = some nodes) :
    parts.lookup name = some (.nodes nodes) := by
  unfold Parts.nodes? at h
  split at h
  · cases h
    assumption
  · cases h

theorem Parts.nodes_eq_ok {nodes : List Node} (h : parts.nodes name = .ok nodes) :
    parts.lookup name = some (.nodes nodes) := by
  unfold Parts.nodes at h
  split at h
  · cases h
    exact Parts.nodes?_eq_some (by assumption)
  · cases h

theorem Parts.declarators_eq_ok {declarators : List Declarator} (h : parts.declarators name = .ok declarators) :
    parts.lookup name = some (.declarators declarators) := by
  unfold Parts.declarators at h
  split at h
  · cases h
    assumption
  · cases h

/-- The parts of a node that is put together fit where its fields do, and those of a program with a level to spare. -/
theorem fits_of_assemble {kind : NodeKind} {build : Span → Node} (h : parts.assemble kind = .ok build)
    (hfits : ∀ name part, parts.lookup name = some part → part.Fits n) (span : Span) :
    (∀ part ∈ (build span).parts, part.height ≤ n) ∧
      (Document.isProgram (build span) = true → (build span).height ≤ n) := by
  cases kind with
  | program =>
    obtain ⟨body, hbody, h⟩ := bind_eq_ok_iff.mp h
    cases h
    obtain ⟨hone, hheight⟩ := hfits _ _ (Parts.nodes_eq_ok hbody)
    have hstatements : ∀ part ∈ body, part.height ≤ n - 1 := by
      intro part hpart
      have := hheight part hpart
      omega
    refine ⟨fun part hpart => (hstatements part hpart).trans (Nat.sub_le _ _), fun _ => ?_⟩
    rw [show n = n - 1 + 1 by omega]
    exact Node.height_le_succ_iff.mpr hstatements
  | expressionStatement =>
    obtain ⟨expression, hexpression, h⟩ := bind_eq_ok_iff.mp h
    cases h
    have hheight : expression.height ≤ n := hfits _ _ (Parts.node_eq_ok hexpression)
    exact ⟨List.forall_mem_singleton.mpr hheight, nofun⟩
  | binary =>
    obtain ⟨left, hleft, h⟩ := bind_eq_ok_iff.mp h
    obtain ⟨operator, -, h⟩ := bind_eq_ok_iff.mp h
    obtain ⟨right, hright, h⟩ := bind_eq_ok_iff.mp h
    cases h
    have hl : left.height ≤ n := hfits _ _ (Parts.node_eq_ok hleft)
    have hr : right.height ≤ n := hfits _ _ (Parts.node_eq_ok hright)
    exact ⟨List.forall_mem_cons.mpr ⟨hl, List.forall_mem_singleton.mpr hr⟩, nofun⟩
  | literal =>
    obtain ⟨value, -, h⟩ := bind_eq_ok_iff.mp h
    cases h
    exact ⟨nofun, nofun⟩
  | call =>
    obtain ⟨callee, hcallee, h⟩ := bind_eq_ok_iff.mp h
    cases h
    have hheight : callee.height ≤ n := hfits _ _ (Parts.node_eq_ok hcallee)
    refine ⟨List.forall_mem_cons.mpr ⟨hheight, ?_⟩, nofun⟩
    cases harguments : parts.nodes? "arguments" with
    | none => exact nofun
    | some arguments =>
      intro part hpart
      exact Nat.le_of_succ_le ((hfits _ _ (Parts.nodes?_eq_some harguments)).2 part hpart)
  | member =>
    obtain ⟨object, hobject, h⟩ := bind_eq_ok_iff.mp h
    obtain ⟨property, -, h⟩ := bind_eq_ok_iff.mp h
    cases h
    have hheight : object.height ≤ n := hfits _ _ (Parts.node_eq_ok hobject)
    exact ⟨List.forall_mem_singleton.mpr hheight, nofun⟩
  | identifier =>
    obtain ⟨name, -, h⟩ := bind_eq_ok_iff.mp h
    cases h
    exact ⟨nofun, nofun⟩
  | declaration =>
    obtain ⟨keyword, -, h⟩ := bind_eq_ok_iff.mp h
    obtain ⟨declarators, hdeclarators, h⟩ := bind_eq_ok_iff.mp h
    cases h
    refine ⟨?_, nofun⟩
    intro part hpart
    obtain ⟨d, hd, hinit⟩ := List.mem_filterMap.mp hpart
    have hheight : part.height + 2 ≤ n := hfits _ _ (Parts.declarators_eq_ok hdeclarators) d hd part hinit
    omega
  | declarator =>
    obtain ⟨declarator, -, h⟩ := bind_eq_ok_iff.mp h
    cases h
    exact ⟨nofun, nofun⟩

end Assemble

/-! ## Decoding fields -/

/-- Each of the nodes decoded from an array was decoded from an item. -/
theorem mem_of_decodeNodes {items : List Json} {nodes : List Node} (h : decodeNodes items = .ok nodes) {node : Node}
    (hm : node ∈ nodes) : ∃ item ∈ items, Node.ofJson item = .ok node := by
  induction items generalizing nodes with
  | nil =>
    rw [decodeNodes] at h
    cases h
    exact absurd hm List.not_mem_nil
  | cons item rest ih =>
    rw [decodeNodes] at h
    obtain ⟨first, hfirst, h⟩ := bind_eq_ok_iff.mp h
    obtain ⟨more, hmore, h⟩ := bind_eq_ok_iff.mp h
    cases h
    rcases List.mem_cons.mp hm with rfl | hm
    · exact ⟨item, List.mem_cons_self, hfirst⟩
    · obtain ⟨item', hitem', hnode⟩ := ih hmore hm
      exact ⟨item', List.mem_cons_of_mem item hitem', hnode⟩

/-- Each of the declarators decoded from an array was decoded from an item. -/
theorem mem_of_decodeDeclarators {items : List Json} {ds : List Declarator} (h : decodeDeclarators items = .ok ds)
    {d : Declarator} (hm : d ∈ ds) : ∃ item ∈ items, Declarator.ofJson item = .ok d := by
  induction items generalizing ds with
  | nil =>
    rw [decodeDeclarators] at h
    cases h
    exact absurd hm List.not_mem_nil
  | cons item rest ih =>
    rw [decodeDeclarators] at h
    obtain ⟨first, hfirst, h⟩ := bind_eq_ok_iff.mp h
    obtain ⟨more, hmore, h⟩ := bind_eq_ok_iff.mp h
    cases h
    rcases List.mem_cons.mp hm with rfl | hm
    · exact ⟨item, List.mem_cons_self, hfirst⟩
    · obtain ⟨item', hitem', hd⟩ := ih hmore hm
      exact ⟨item', List.mem_cons_of_mem item hitem', hd⟩

/-- A field without nodes in it fits anywhere. -/
theorem fits_of_decodeScalar {shape : ScalarShape} {value : Json} {part : Part}
    (h : decodeScalar shape value = .ok part) (n : Nat) : part.Fits n := by
  unfold decodeScalar at h
  split at h
  case h_2 | h_7 =>
    split at h
    · cases h
      trivial
    · obtain ⟨_, -, rfl⟩ := map_eq_ok_iff.mp h
      trivial
  case h_3 =>
    split at h
    · cases h
      trivial
    · cases h
  case h_8 =>
    cases h
    trivial
  all_goals
    obtain ⟨_, -, rfl⟩ := map_eq_ok_iff.mp h
    trivial

/-- The initial value of a declarator stands in an object of its own. -/
theorem init_of_decodeDeclarator {value : Json} {d : Declarator} (h : Declarator.ofJson value = .ok d) {init : Node}
    (hinit : init ∈ d.init) : ∃ v, v.nesting + 1 ≤ value.nesting ∧ Node.ofJson v = .ok init := by
  cases value with
  | object members =>
    obtain ⟨parts, build, span, hparts, hbuild, -, rfl⟩ := Declarator.ofJson_object_eq_ok_iff.mp h
    obtain ⟨target, -, hbuild⟩ := bind_eq_ok_iff.mp hbuild
    cases hbuild
    obtain ⟨v, read, hm, hreader, hread⟩ := read_of_lookup hparts (Parts.node?_eq_some hinit)
    obtain rfl : decodePart .optionalNode = read := Option.some.inj hreader
    refine ⟨v, Nat.succ_le_succ (Json.nesting_le_nestingOfMembers hm), ?_⟩
    by_cases hnull : v.isNull = true
    · rw [decodePart, if_pos hnull] at hread
      cases hread
    · rw [decodePart, if_neg hnull] at hread
      obtain ⟨node, hnode, hpart⟩ := map_eq_ok_iff.mp hread
      cases hpart
      exact hnode
  | _ => cases h

/-- A decoded field fits where its value is nested, if the nodes in it do. -/
theorem fits_of_decodePart {shape : Shape} {value : Json} {part : Part} (h : decodePart shape value = .ok part)
    (hnodes : ∀ v : Json, v.nesting ≤ value.nesting → ∀ node, Node.ofJson v = .ok node → node.height ≤ v.nesting) :
    part.Fits value.nesting := by
  cases shape with
  | node =>
    obtain ⟨node, hnode, rfl⟩ := map_eq_ok_iff.mp h
    exact hnodes value (Nat.le_refl _) node hnode
  | optionalNode =>
    unfold decodePart at h
    by_cases hnull : value.isNull = true
    · rw [if_pos hnull] at h
      cases h
      trivial
    · rw [if_neg hnull] at h
      obtain ⟨node, hnode, rfl⟩ := map_eq_ok_iff.mp h
      exact hnodes value (Nat.le_refl _) node hnode
  | nodes =>
    cases value with
    | array items =>
      obtain ⟨nodes, hitems, rfl⟩ := map_eq_ok_iff.mp h
      refine ⟨Nat.succ_pos _, ?_⟩
      intro node hm
      obtain ⟨item, hitem, hnode⟩ := mem_of_decodeNodes hitems hm
      have hle := Json.nesting_le_nestingOfItems hitem
      have := hnodes item (hle.trans (Nat.le_succ _)) node hnode
      show node.height + 1 ≤ Json.nestingOfItems items + 1
      omega
    | _ => cases h
  | declarators =>
    cases value with
    | array items =>
      obtain ⟨ds, hitems, rfl⟩ := map_eq_ok_iff.mp h
      intro d hd init hinit
      obtain ⟨item, hitem, hdecoded⟩ := mem_of_decodeDeclarators hitems hd
      obtain ⟨v, hv, hnode⟩ := init_of_decodeDeclarator hdecoded hinit
      have hle := Json.nesting_le_nestingOfItems hitem
      have hnesting : (Json.array items).nesting = Json.nestingOfItems items + 1 := rfl
      have := hnodes v (by omega) init hnode
      omega
    | _ => cases h
  | scalar shape => exact fits_of_decodeScalar h _

/-! ## Decoding nodes -/

/-- Fields are read by their shapes and in no other way. -/
theorem Schema.reader?_eq_some {schema : Schema} {name : String} {read : Json → Except ShapeError Part}
    (h : schema.reader? name = some read) : ∃ shape, read = decodePart shape := by
  obtain ⟨shape, -, hread⟩ := Option.map_eq_some_iff.mp h
  exact ⟨shape, hread.symm⟩

/-- A node whose fields stand in a row has no parts. -/
theorem parts_of_decodeRow {items : List Json} {node : Node} (h : decodeRow items = .ok node) :
    node.parts = [] ∧ Document.isProgram node = false := by
  cases items with
  | nil => cases h
  | cons type items =>
    obtain ⟨kind?, -, h⟩ := bind_eq_ok_iff.mp h
    match kind?, h with
    | none, h =>
      obtain ⟨_, -, h⟩ := bind_eq_ok_iff.mp h
      cases h
      exact ⟨rfl, rfl⟩
    | some .literal, h =>
      obtain ⟨parts, -, h⟩ := bind_eq_ok_iff.mp h
      obtain ⟨_, -, h⟩ := bind_eq_ok_iff.mp h
      obtain ⟨build, hbuild, h⟩ := bind_eq_ok_iff.mp h
      cases h
      obtain ⟨value, -, hbuild⟩ := bind_eq_ok_iff.mp hbuild
      cases hbuild
      exact ⟨rfl, rfl⟩

/-- A decoded node is no higher than its value is nested, and a program not even as high. -/
theorem Node.height_le_nesting {value : Json} {node : Node} (h : Node.ofJson value = .ok node) :
    node.height ≤ value.nesting ∧ (Document.isProgram node = true → node.height + 1 ≤ value.nesting) := by
  generalize hn : value.nesting = n
  induction n using Nat.strong_induction_on generalizing value node with
  | _ n ih =>
    cases value with
    | object members =>
      have hnesting : n = Json.nestingOfMembers members + 1 := hn.symm
      rw [hnesting]
      cases Node.ofJson_object_eq_ok_iff.mp h with
      | unsupported =>
        exact ⟨Node.height_le_succ_iff.mpr nofun, nofun⟩
      | @typed kind parts build span hkind hparts hbuild hspan =>
        have hfits : ∀ name part, parts.lookup name = some part → part.Fits (Json.nestingOfMembers members) := by
          intro name part hlookup
          obtain ⟨v, read, hm, hreader, hread⟩ := read_of_lookup hparts hlookup
          obtain ⟨shape, rfl⟩ := Schema.reader?_eq_some hreader
          have hle := Json.nesting_le_nestingOfMembers hm
          refine (fits_of_decodePart hread ?_).mono hle
          intro w hw node hnode
          exact (ih w.nesting (by omega) hnode rfl).1
        obtain ⟨hheight, hprogram⟩ := fits_of_assemble hbuild hfits span
        exact ⟨Node.height_le_succ_iff.mpr hheight, fun hp => Nat.succ_le_succ (hprogram hp)⟩
    | array items =>
      rw [Node.ofJson] at h
      obtain ⟨hparts, hprogram⟩ := parts_of_decodeRow h
      rw [← hn]
      refine ⟨Node.height_le_succ_iff.mpr (by simp [hparts]), fun hp => ?_⟩
      rw [hprogram] at hp
      cases hp
    | _ => cases h

/-! ## Documents -/

/-- A script that is parsed is a program that was decoded from what the reader gave. -/
theorem Document.parse_eq_ok {name source : String} {node : Node} (h : Document.parse name source = .ok node) :
    ∃ value rest, Json.ofTokens? Document.nestingLimit (Json.Token.scan source) = some (value, rest) ∧
      Node.ofJson value = .ok node ∧ Document.isProgram node = true := by
  unfold Document.parse at h
  cases hread : Json.ofTokens? Document.nestingLimit (Json.Token.scan source) with
  | none =>
    rw [hread] at h
    cases h
  | some result =>
    obtain ⟨value, rest⟩ := result
    rw [hread] at h
    by_cases hroot : (!Document.isRoot value) = true
    · simp [hroot] at h
    cases hnode : Node.ofJson value with
    | error e => simp [hroot, hnode] at h
    | ok decoded =>
      by_cases hrest : (!rest.isEmpty) = true
      · simp [hroot, hnode, hrest] at h
      by_cases hprogram : Document.isProgram decoded = true
      · simp [hroot, hnode, hrest, hprogram] at h
        subst h
        exact ⟨value, rest, rfl, hnode, hprogram⟩
      · simp [hroot, hnode, hrest, hprogram] at h

/-- A script that comes from a document is never too deep to run. From outside every node no limit of 126 or more stops
it, whatever it does, and so the limit that holds by default does not. -/
theorem parsed_script_fits {name source : String} {node : Node} (h : Document.parse name source = .ok node) :
    126 ≤ defaultMaxDepth ∧
      ∀ (cx : Context) (s : State), 126 ≤ cx.maxDepth → s.environment.depth = 0 →
        ¬TooDeep ((node.evaluate cx).outcome s) := by
  obtain ⟨value, rest, hread, hnode, hprogram⟩ := Document.parse_eq_ok h
  have hnesting : value.nesting ≤ 127 := Json.nesting_le_of_ofTokens? hread
  have hheight := (Node.height_le_nesting hnode).2 hprogram
  refine ⟨by decide, fun cx s hmax hdepth => ?_⟩
  apply (fits_compositional cx).evaluate node s
  intro visited hm
  cases List.mem_singleton.mp hm
  omega

/-- A document whose program evaluates an identifier: it runs into a fault and not into the limit, even where nothing
but 126 levels are allowed. -/
theorem parsed_identifier_fits :
    let source := "\x7b\"type\":\"Program\",\"body\":[\x7b\"type\":\"Identifier\",\"name\":\"x\"\x7d]\x7d"
    let node : Node := .program default [.identifier default "x"]
    Document.parse Document.defaultName source = .ok node ∧ State.empty.environment.depth = 0 ∧
      ¬TooDeep ((node.evaluate ⟨126, Host.silent⟩).outcome State.empty) := by
  intro source node
  let value : Json := .object [("type", .string "Program"),
    ("body", .array [.object [("type", .string "Identifier"), ("name", .string "x")]])]
  have hread : Json.ofTokens? Document.nestingLimit (Json.Token.scan source) = some (value, []) := by
    simp only [source, value]
    rfl
  have hnode : Node.ofJson value = .ok node := by rfl
  have hparse : Document.parse Document.defaultName source = .ok node := by
    rw [Document.parse, hread]
    simp only [hnode]
    rfl
  exact ⟨hparse, rfl, (parsed_script_fits hparse).2 ⟨126, Host.silent⟩ State.empty (Nat.le_refl _) rfl⟩

end ScriptTree
