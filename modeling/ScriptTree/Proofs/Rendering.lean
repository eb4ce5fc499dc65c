import ScriptTree.Proofs.Decoding
import ScriptTree.Proofs.IntegerTexts
import ScriptTree.Proofs.JsonReading
import ScriptTree.Proofs.RoundTrip

/-!
# Trees and their JSON

`Node.Renders` says which JSON values a syntax tree is rendered as: a typed node is an object with its type, the offsets of
its span and its fields, in any order; what JSON has no value for goes into a field of its own. Decoding undoes rendering
(`Node.ofJson_of_renders`), and so does parsing any text that spells a rendering (`parsing_undoes_rendering`).
-/

namespace ScriptTree

/-- Whether a number is neither infinite nor NaN. -/
def Double.isFinite : Double → Bool
  | .finite .. => true
  | _ => false

/-- The members of a typed node: its type, the offsets of its span, its fields. -/
def typedMembers (kind : NodeKind) (span : Span) (fields : List (String × Json)) : List (String × Json) :=
  ("type", .string kind.name) :: ("start", .integer span.start) :: ("end", .integer span.stop) :: fields

/-- The fields that a literal is rendered as. A number is written in any way that reads as it; infinity is a source text
beyond every double. -/
inductive LiteralValue.Renders : LiteralValue → List (String × Json) → Prop
  | string (s : String) : Renders (.string s) [("value", .string s)]
  | boolean (b : Bool) : Renders (.boolean b) [("value", .bool b)]
  | null : Renders .null [("value", .null)]
  | real {x : Double} (h : x.isFinite = true) : Renders (.number x) [("value", .real x)]
  | integer (n : Int) : Renders (.number (.ofInt n)) [("value", .integer n)]
  | overflow : Renders (.number (.infinite false)) [("value", .null), ("raw", .string "1e400")]
  | bigint (b : BigInt) : Renders (.bigint b) [("bigint", .string b.toText)]
  | regex (r : Regex) {members : List (String × Json)}
      (h : members.Perm [("pattern", .string r.pattern), ("flags", .string r.flags)]) :
      Renders (.regex r) [("regex", .object members)]

mutual

/-- The values that a node is rendered as. An unsupported node is an object of an unknown type. -/
inductive Node.Renders : Node → Json → Prop
  | program {span : Span} {body : List Node} {items : List Json} {members : List (String × Json)}
      (hbody : RendersAll body items) (h : members.Perm (typedMembers .program span [("body", .array items)])) :
      Node.Renders (.program span body) (.object members)
  | expressionStatement {span : Span} {expression : Node} {value : Json} {members : List (String × Json)}
      (hexpression : Node.Renders expression value)
      (h : members.Perm (typedMembers .expressionStatement span [("expression", value)])) :
      Node.Renders (.expressionStatement span expression) (.object members)
  | binary {span : Span} {left right : Node} {operator : BinaryOperator} {l r : Json} {members : List (String × Json)}
      (hleft : Node.Renders left l) (hright : Node.Renders right r)
      (h : members.Perm
        (typedMembers .binary span [("left", l), ("operator", .string operator.token), ("right", r)])) :
      Node.Renders (.binary span left operator right) (.object members)
  | literal {span : Span} {value : LiteralValue} {fields members : List (String × Json)} (hvalue : value.Renders fields)
      (h : members.Perm (typedMembers .literal span fields)) : Node.Renders (.literal span value) (.object members)
  | call {span : Span} {callee : Node} {arguments : List Node} {optional : Bool} {value : Json} {items : List Json}
      {members : List (String × Json)} (hcallee : Node.Renders callee value) (harguments : RendersAll arguments items)
      (h : members.Perm
        (typedMembers .call span [("callee", value), ("arguments", .array items), ("optional", .bool optional)])) :
      Node.Renders (.call span callee arguments optional) (.object members)
  | member {span : Span} {object property : Node} {computed optional : Bool} {value key : Json}
      {members : List (String × Json)} (hobject : Node.Renders object value) (hproperty : Node.Renders property key)
      (h : members.Perm
        (typedMembers .member span
          [("object", value), ("property", key), ("computed", .bool computed), ("optional", .bool optional)])) :
      Node.Renders (.member span object property computed optional) (.object members)
  | identifier {span : Span} {name : String} {members : List (String × Json)}
      (h : members.Perm (typedMembers .identifier span [("name", .string name)])) :
      Node.Renders (.identifier span name) (.object members)
  | declaration {span : Span} {kind : DeclarationKind} {declarators : List Declarator} {items : List Json}
      {members : List (String × Json)} (hdeclarators : DeclaratorsRender declarators items)
      (h : members.Perm
        (typedMembers .declaration span [("kind", .string kind.keyword), ("declarations", .array items)])) :
      Node.Renders (.declaration span kind declarators) (.object members)
  | declarator {d : Declarator} {value : Json} (h : Declarator.Renders d value) : Node.Renders (.declarator d) value
  | unsupported {members : List (String × Json)} {name : String}
      (htype : (members.filter fun member => member.1 = "type") = [("type", .string name)])
      (hname : NodeKind.ofName? name = none) : Node.Renders .unsupported (.object members)

/-- Nodes are rendered one by one. -/
inductive RendersAll : List Node → List Json → Prop
  | nil : RendersAll [] []
  | cons {node : Node} {value : Json} {nodes : List Node} {values : List Json} (h : Node.Renders node value)
      (hrest : RendersAll nodes values) : RendersAll (node :: nodes) (value :: values)

/-- The values that a declarator is rendered as. -/
inductive Declarator.Renders : Declarator → Json → Prop
  | mk {span : Span} {target : Node} {init : Option Node} {t i : Json} {members : List (String × Json)}
      (htarget : Node.Renders target t) (hinit : InitRenders init i)
      (h : members.Perm (typedMembers .declarator span [("id", t), ("init", i)])) :
      Declarator.Renders (.mk span target init) (.object members)

/-- An initial value that is absent is null. -/
inductive InitRenders : Option Node → Json → Prop
  | none : InitRenders none .null
  | some {init : Node} {value : Json} (h : Node.Renders init value) : InitRenders (some init) value

/-- Declarators are rendered one by one. -/
inductive DeclaratorsRender : List Declarator → List Json → Prop
  | nil : DeclaratorsRender [] []
  | cons {d : Declarator} {value : Json} {ds : List Declarator} {values : List Json} (h : Declarator.Renders d value)
      (hrest : DeclaratorsRender ds values) : DeclaratorsRender (d :: ds) (value :: values)

end

/-! ## Literals -/

namespace Double

/-- A literal beyond the range of doubles is read as infinity. -/
theorem ofLiteral?_beyond_range : ofLiteral? "1e400" = some (.infinite false) := by decide +kernel

end Double

/-- A BigInt is read back from its text as a literal. -/
theorem BigInt.ofLiteral?_toText (b : BigInt) : BigInt.ofLiteral? b.toText = some b := by
  obtain ⟨d, hread⟩ := b.read?_toText
  have hchars := Decimal.isNumeralChar_of_read? hread
  have hplain : b.toText.toList.filter (· ≠ '_') = b.toText.toList := by
    rw [List.filter_eq_self]
    intro c hc
    refine decide_eq_true ?_
    rintro rfl
    cases hchars '_' hc
  simp only [ofLiteral?, hplain, Decimal.split?_of_numeral hchars]
  rw [parse?_eq (by decide), splitSign_toText, Radix.digits?_ten Nat.toDigits_ne_nil b.isDigit_of_mem_digits,
    Option.map_some, Radix.value_ten, Nat.ofDigitChars_ten_toDigits, signed_natAbs]
  exact ofInt?_eq_some_iff.mpr rfl

/-! ## Typed nodes -/

section Typed

variable {kind : NodeKind} {span : Span} {fields members : List (String × Json)} {parts : Parts} {build : Span → Node}

/-- The names that every typed node gives to its type and its offsets. -/
def headNames : List String := ["type", "start", "end"]

/-- A typed node gives its type once. -/
theorem filter_type_of_perm (h : members.Perm (typedMembers kind span fields))
    (hnames : ∀ field ∈ fields, field.1 ∉ headNames) :
    (members.filter fun member => member.1 = "type") = [("type", .string kind.name)] := by
  have hfields : (fields.filter fun field => field.1 = "type") = [] := by
    rw [List.filter_eq_nil_iff]
    intro field hm htype
    exact hnames field hm (by simp [headNames, of_decide_eq_true htype])
  have htyped : ((typedMembers kind span fields).filter fun member => member.1 = "type") =
      [("type", .string kind.name)] := by
    simp [typedMembers, hfields]
  have hone := h.filter fun member => member.1 = "type"
  rwa [htyped, List.perm_singleton] at hone

/-- Typed members have the kind that was put in front of the fields. -/
theorem kindOf_typedMembers (hnames : ∀ field ∈ fields, field.1 ∉ headNames) :
    kindOf (typedMembers kind span fields) = .ok (some kind) := by
  refine kindOf_eq_ok_iff.mpr ⟨.string kind.name, filter_type_of_perm (.refl _) hnames, ?_⟩
  simp only [kindOfType, NodeKind.ofName?_name]

/-- Typed members have the span that was put in front of the fields. -/
theorem decodeSpan_typedMembers (hnames : ∀ field ∈ fields, field.1 ∉ headNames) :
    decodeSpan (typedMembers kind span fields) = .ok span := by
  have hoffsets : decodeFields (fun key => if key ∈ ["start", "end"] then some decodeOffset else none) []
      (typedMembers kind span fields) = .ok [("start", span.start), ("end", span.stop)] := by
    have hplain : ∀ name value, (name, value) ∈ fields → ¬name = "start" ∧ ¬name = "end" := by
      intro name value hm
      have := hnames (name, value) hm
      simp only [headNames, List.mem_cons, not_or] at this
      exact ⟨this.2.1, this.2.2.1⟩
    refine decodeFields_eq_ok_iff.mpr ⟨?_, by simp, by simp⟩
    simpa [readings, typedMembers, decodeOffset, asRead] using hplain
  exact bind_eq_ok_iff.mpr ⟨_, hoffsets, rfl⟩

/-- A typed node is decoded if its fields can be read and make it up. -/
theorem Node.ofJson_typedMembers (h : members.Perm (typedMembers kind span fields))
    (hnames : ∀ field ∈ fields, field.1 ∉ headNames)
    (hparts : decodeFields kind.schema.reader? [] (typedMembers kind span fields) = .ok parts)
    (hbuild : parts.assemble kind = .ok build) (hspan : kind = .literal → parts.span = span) :
    Node.ofJson (.object members) = .ok (build span) := by
  refine Node.ofJson_of_perm h (Node.ofJson_object_eq_ok_iff.mpr ?_)
  refine .typed (kindOf_typedMembers hnames) hparts hbuild ?_
  unfold decodeSpanOf
  by_cases hk : kind = .literal
  · rw [if_pos hk, hspan hk]
  · rw [if_neg hk]
    exact decodeSpan_typedMembers hnames

/-- Fields that a schema has and that are decoded one by one to parts. -/
inductive Reads (schema : Schema) : List (String × Json) → Parts → Prop
  | nil : Reads schema [] []
  | cons {name : String} {value : Json} {shape : Shape} {part : Part} {fields : List (String × Json)} {parts : Parts}
      (hshape : schema.lookup name = some shape) (hpart : decodePart shape value = .ok part)
      (hrest : Reads schema fields parts) : Reads schema ((name, value) :: fields) ((name, part) :: parts)

namespace Reads

variable {schema : Schema}

/-- What is read of the fields of a node is its parts, in order. -/
theorem readings_eq (h : Reads schema fields parts) : readings schema.reader? fields = parts.map asRead := by
  induction h with
  | nil => rfl
  | @cons name value shape part fields parts hshape hpart hrest ih =>
    have hreader : schema.reader? name = some (decodePart shape) := by
      rw [Schema.reader?, hshape]
      rfl
    simp only [readings] at ih
    simp [readings, hreader, hpart, ih, asRead]

/-- The fields of a schema that knows neither type nor offsets are named otherwise. -/
theorem not_mem_headNames (h : Reads schema fields parts) (hhead : ∀ name ∈ headNames, schema.lookup name = none) :
    ∀ field ∈ fields, field.1 ∉ headNames := by
  induction h with
  | nil => exact nofun
  | @cons name value shape part fields parts hshape hpart hrest ih =>
    rw [List.forall_mem_cons]
    refine ⟨fun hm => ?_, ih⟩
    rw [hhead name hm] at hshape
    cases hshape

/-- The parts of a typed node whose schema knows neither type nor offsets. -/
theorem decodeFields_typedMembers (h : Reads schema fields parts)
    (hhead : ∀ name ∈ headNames, schema.lookup name = none) (hnodup : (parts.map Prod.fst).Nodup) :
    decodeFields schema.reader? [] (typedMembers kind span fields) = .ok parts := by
  have hnone : ∀ name ∈ headNames, schema.reader? name = none := by
    intro name hm
    rw [Schema.reader?, hhead name hm]
    rfl
  have hread : readings schema.reader? (typedMembers kind span fields) = readings schema.reader? fields := by
    simp [readings, typedMembers, hnone "type" (by simp [headNames]), hnone "start" (by simp [headNames]),
      hnone "end" (by simp [headNames])]
  exact decodeFields_eq_ok_iff.mpr ⟨hread.trans h.readings_eq, hnodup, fun _ _ => List.not_mem_nil⟩

/-- A typed node that is no literal is decoded if its fields, decoded one by one, make it up. -/
theorem ofJson (hreads : Reads kind.schema fields parts) (h : members.Perm (typedMembers kind span fields))
    (hnodup : (parts.map Prod.fst).Nodup) (hkind : kind ≠ .literal) (hbuild : parts.assemble kind = .ok build) :
    Node.ofJson (.object members) = .ok (build span) := by
  have hhead : ∀ name ∈ headNames, kind.schema.lookup name = none := by
    cases kind with
    | literal => exact absurd rfl hkind
    | _ => decide
  exact Node.ofJson_typedMembers h (hreads.not_mem_headNames hhead) (hreads.decodeFields_typedMembers hhead hnodup)
    hbuild fun hliteral => absurd hliteral hkind

end Reads

end Typed

/-! ## Decoding undoes rendering -/

/-- The fields of a literal are neither its type nor its offsets. -/
theorem LiteralValue.Renders.not_mem_headNames {value : LiteralValue} {fields : List (String × Json)}
    (h : value.Renders fields) : ∀ field ∈ fields, field.1 ∉ headNames := by
  cases h <;> simp [headNames]

/-- The fields of a literal and the offsets of its span decode to parts that make it up. -/
theorem LiteralValue.Renders.parts {value : LiteralValue} {fields : List (String × Json)} (h : value.Renders fields)
    (span : Span) :
    ∃ parts : Parts, decodeFields Schema.literal.reader? [] (typedMembers .literal span fields) = .ok parts ∧
      parts.assemble .literal = .ok (fun span => .literal span value) ∧ parts.span = span := by
  cases h with
  | string s => exact ⟨_, rfl, rfl, rfl⟩
  | boolean b => exact ⟨_, rfl, rfl, rfl⟩
  | null => exact ⟨_, rfl, rfl, rfl⟩
  | real hx => exact ⟨_, rfl, rfl, rfl⟩
  | integer n => exact ⟨_, rfl, rfl, rfl⟩
  | overflow =>
    refine ⟨_, rfl, ?_, rfl⟩
    have hvalue : LiteralFields.literal ⟨.null, some "1e400", none, none⟩ = .ok (.number (.infinite false)) := by
      simp [LiteralFields.literal, LiteralFields.plainValue, Double.ofLiteral?_beyond_range]
    exact bind_eq_ok_iff.mpr ⟨_, hvalue, rfl⟩
  | bigint b =>
    refine ⟨_, rfl, ?_, rfl⟩
    have hvalue : LiteralFields.literal ⟨.null, none, none, some b.toText⟩ = .ok (.bigint b) := by
      simp [LiteralFields.literal, b.ofLiteral?_toText]
    exact bind_eq_ok_iff.mpr ⟨_, hvalue, rfl⟩
  | @regex r members hr =>
    have hregex : decodePart (.scalar .optionalRegex) (.object members) = .ok (.regex r) := by
      rw [decodePart, decodeScalar, if_neg (by simp [Json.isNull]), decodeRegex_of_perm hr rfl]
      rfl
    have hread : readings Schema.literal.reader? (typedMembers .literal span [("regex", .object members)]) =
        [("start", .ok (.offset span.start)), ("end", .ok (.offset span.stop)),
          ("regex", decodePart (.scalar .optionalRegex) (.object members))] := rfl
    refine ⟨[("start", .offset span.start), ("end", .offset span.stop), ("regex", .regex r)], ?_, rfl, rfl⟩
    refine decodeFields_eq_ok_iff.mpr ⟨?_, by simp, by simp⟩
    rw [hread, hregex]
    rfl

/-- A literal is decoded from every rendering of it. -/
theorem LiteralValue.Renders.ofJson {value : LiteralValue} {span : Span} {fields members : List (String × Json)}
    (hvalue : value.Renders fields) (h : members.Perm (typedMembers .literal span fields)) :
    Node.ofJson (.object members) = .ok (.literal span value) := by
  obtain ⟨parts, hparts, hbuild, hspan⟩ := hvalue.parts span
  exact Node.ofJson_typedMembers h hvalue.not_mem_headNames hparts hbuild fun _ => hspan

/-- An operator is decoded from its token. -/
theorem decodePart_operator (operator : BinaryOperator) :
    decodePart (.scalar .operator) (.string operator.token) = .ok (.operator operator) := by
  simp [decodePart, decodeScalar, decodeOperator, decodeWord, meaningOf, BinaryOperator.ofToken?_token, Except.map]

theorem decodePart_keyword (kind : DeclarationKind) :
    decodePart (.scalar .keyword) (.string kind.keyword) = .ok (.keyword kind) := by
  simp [decodePart, decodeScalar, decodeKeyword, decodeWord, meaningOf, DeclarationKind.ofKeyword?_keyword, Except.map]

/-- A part that is a node is decoded as the node is. -/
theorem decodePart_node {value : Json} {node : Node} (h : Node.ofJson value = .ok node) :
    decodePart .node value = .ok (.node node) :=
  map_eq_ok_iff.mpr ⟨node, h, rfl⟩

theorem decodePart_nodes {items : List Json} {nodes : List Node} (h : decodeNodes items = .ok nodes) :
    decodePart .nodes (.array items) = .ok (.nodes nodes) :=
  map_eq_ok_iff.mpr ⟨nodes, h, rfl⟩

theorem decodePart_declarators {items : List Json} {ds : List Declarator} (h : decodeDeclarators items = .ok ds) :
    decodePart .declarators (.array items) = .ok (.declarators ds) :=
  map_eq_ok_iff.mpr ⟨ds, h, rfl⟩

/-- Every node is rendered as an object. -/
theorem Node.Renders.eq_object {node : Node} {value : Json} (h : node.Renders value) :
    ∃ members, value = .object members := by
  cases h with
  | declarator h =>
    cases h
    exact ⟨_, rfl⟩
  | _ => exact ⟨_, rfl⟩

/-- What an initial value is decoded to. -/
def initPart : Option Node → Part
  | none => .absent
  | some init => .node init

mutual

/-- A rendered node is decoded to itself. -/
theorem Node.ofJson_of_renders {node : Node} {value : Json} (h : node.Renders value) : Node.ofJson value = .ok node := by
  match h with
  | .program hbody h =>
    have hitems := decodePart_nodes (decodeNodes_of_renders hbody)
    exact Reads.ofJson (.cons rfl hitems .nil) h (by simp) nofun rfl
  | .expressionStatement hexpression h =>
    have hvalue := decodePart_node (Node.ofJson_of_renders hexpression)
    exact Reads.ofJson (.cons rfl hvalue .nil) h (by simp) nofun rfl
  | .binary hleft hright h =>
    have hl := decodePart_node (Node.ofJson_of_renders hleft)
    have hr := decodePart_node (Node.ofJson_of_renders hright)
    exact Reads.ofJson (.cons rfl hl (.cons rfl (decodePart_operator _) (.cons rfl hr .nil))) h (by simp) nofun rfl
  | .literal hvalue h => exact hvalue.ofJson h
  | .call hcallee harguments h =>
    have hvalue := decodePart_node (Node.ofJson_of_renders hcallee)
    have hitems := decodePart_nodes (decodeNodes_of_renders harguments)
    exact Reads.ofJson (.cons rfl hvalue (.cons rfl hitems (.cons rfl rfl .nil))) h (by simp) nofun rfl
  | .member hobject hproperty h =>
    have hvalue := decodePart_node (Node.ofJson_of_renders hobject)
    have hkey := decodePart_node (Node.ofJson_of_renders hproperty)
    exact Reads.ofJson (.cons rfl hvalue (.cons rfl hkey (.cons rfl rfl (.cons rfl rfl .nil)))) h (by simp) nofun rfl
  | .identifier h => exact Reads.ofJson (.cons rfl rfl .nil) h (by simp) nofun rfl
  | .declaration hdeclarators h =>
    have hitems := decodePart_declarators (decodeDeclarators_of_render hdeclarators)
    exact Reads.ofJson (.cons rfl (decodePart_keyword _) (.cons rfl hitems .nil)) h (by simp) nofun rfl
  | .declarator h => exact (Declarator.ofJson_of_renders h).2
  | .unsupported htype hname =>
    have hkind : kindOf _ = .ok none := kindOf_eq_ok_iff.mpr ⟨_, htype, congrArg Except.ok hname⟩
    exact Node.ofJson_object_eq_ok_iff.mpr (.unsupported hkind)

/-- Nodes in a row are decoded from every rendering of them. -/
theorem decodeNodes_of_renders {nodes : List Node} {values : List Json} (h : RendersAll nodes values) :
    decodeNodes values = .ok nodes := by
  match h with
  | .nil => rw [decodeNodes]
  | .cons hnode hrest =>
    rw [decodeNodes, Node.ofJson_of_renders hnode, decodeNodes_of_renders hrest]
    rfl

/-- A rendered declarator is decoded to itself, and to itself as a node. -/
theorem Declarator.ofJson_of_renders {d : Declarator} {value : Json} (h : d.Renders value) :
    Declarator.ofJson value = .ok d ∧ Node.ofJson value = .ok (.declarator d) := by
  match h with
  | @Declarator.Renders.mk span target init t i members htarget hinit h =>
    have ht := decodePart_node (Node.ofJson_of_renders htarget)
    have hi := decodePart_of_initRenders hinit
    have hreads : Reads Schema.declarator [("id", t), ("init", i)] [("id", .node target), ("init", initPart init)] :=
      .cons rfl ht (.cons rfl hi .nil)
    have hhead : ∀ name ∈ headNames, Schema.declarator.lookup name = none := by decide
    have hbuild : Parts.declarator [("id", .node target), ("init", initPart init)] =
        .ok fun span => .mk span target init := by
      cases init <;> rfl
    constructor
    · refine Declarator.ofJson_of_perm h (Declarator.ofJson_object_eq_ok_iff.mpr ?_)
      exact ⟨_, _, span, hreads.decodeFields_typedMembers hhead (by simp), hbuild,
        decodeSpan_typedMembers (hreads.not_mem_headNames hhead), rfl⟩
    · have hfields : Reads NodeKind.declarator.schema _ _ := hreads
      exact hfields.ofJson h (by simp) nofun (bind_eq_ok_iff.mpr ⟨_, hbuild, rfl⟩)

/-- An initial value is decoded from every rendering of it, an absent one from null. -/
theorem decodePart_of_initRenders {init : Option Node} {value : Json} (h : InitRenders init value) :
    decodePart .optionalNode value = .ok (initPart init) := by
  match h with
  | .none => rfl
  | .some hnode =>
    obtain ⟨members, rfl⟩ := hnode.eq_object
    exact decodePart_node (Node.ofJson_of_renders hnode)

/-- Declarators in a row are decoded from every rendering of them. -/
theorem decodeDeclarators_of_render {ds : List Declarator} {values : List Json} (h : DeclaratorsRender ds values) :
    decodeDeclarators values = .ok ds := by
  match h with
  | .nil => rw [decodeDeclarators]
  | .cons hd hrest =>
    rw [decodeDeclarators, (Declarator.ofJson_of_renders hd).1, decodeDeclarators_of_render hrest]
    rfl

end

/-! ## Every tree is rendered -/

mutual

/-- The literals in a node, wherever they stand. -/
def Node.literals : Node → List LiteralValue
  | .program _ body => literalsOfNodes body
  | .expressionStatement _ expression => expression.literals
  | .binary _ left _ right => left.literals ++ right.literals
  | .literal _ value => [value]
  | .call _ callee arguments _ => callee.literals ++ literalsOfNodes arguments
  | .member _ object property _ _ => object.literals ++ property.literals
  | .identifier .. => []
  | .declaration _ _ declarators => literalsOfDeclarators declarators
  | .declarator d => d.literals
  | .unsupported => []

/-- The literals in some nodes. -/
def literalsOfNodes : List Node → List LiteralValue
  | [] => []
  | node :: rest => node.literals ++ literalsOfNodes rest

/-- The literals in a declarator. -/
def Declarator.literals : Declarator → List LiteralValue
  | .mk _ target none => target.literals
  | .mk _ target (some init) => target.literals ++ init.literals

/-- The literals in some declarators. -/
def literalsOfDeclarators : List Declarator → List LiteralValue
  | [] => []
  | d :: rest => d.literals ++ literalsOfDeclarators rest

end

/-- JSON has a way to write a literal: it is no number, a finite one, or infinity. -/
def LiteralValue.isWritable : LiteralValue → Bool
  | .number x => x.isFinite || x == .infinite false
  | _ => true

/-- Every literal that can be written has a rendering. -/
theorem LiteralValue.exists_renders {value : LiteralValue} (h : value.isWritable = true) :
    ∃ fields, value.Renders fields := by
  cases value with
  | string s => exact ⟨_, .string s⟩
  | boolean b => exact ⟨_, .boolean b⟩
  | null => exact ⟨_, .null⟩
  | bigint b => exact ⟨_, .bigint b⟩
  | regex r => exact ⟨_, .regex r (.refl _)⟩
  | number x =>
    rcases Bool.or_eq_true_iff.mp h with hfinite | hinfinite
    · exact ⟨_, .real hfinite⟩
    · rw [beq_iff_eq] at hinfinite
      subst hinfinite
      exact ⟨_, .overflow⟩

mutual

/-- A tree whose literals can be written has a rendering. -/
theorem Node.exists_renders (node : Node) (h : ∀ value ∈ node.literals, value.isWritable = true) :
    ∃ value, node.Renders value := by
  match node with
  | .program span body =>
    rw [Node.literals] at h
    obtain ⟨items, hitems⟩ := exists_rendersAll body h
    exact ⟨_, .program hitems (.refl _)⟩
  | .expressionStatement span expression =>
    rw [Node.literals] at h
    obtain ⟨value, hvalue⟩ := expression.exists_renders h
    exact ⟨_, .expressionStatement hvalue (.refl _)⟩
  | .binary span left operator right =>
    rw [Node.literals, List.forall_mem_append] at h
    obtain ⟨l, hl⟩ := left.exists_renders h.1
    obtain ⟨r, hr⟩ := right.exists_renders h.2
    exact ⟨_, .binary hl hr (.refl _)⟩
  | .literal span value =>
    rw [Node.literals, List.forall_mem_singleton] at h
    obtain ⟨fields, hfields⟩ := value.exists_renders h
    exact ⟨_, .literal hfields (.refl _)⟩
  | .call span callee arguments optional =>
    rw [Node.literals, List.forall_mem_append] at h
    obtain ⟨value, hvalue⟩ := callee.exists_renders h.1
    obtain ⟨items, hitems⟩ := exists_rendersAll arguments h.2
    exact ⟨_, .call hvalue hitems (.refl _)⟩
  | .member span object property computed optional =>
    rw [Node.literals, List.forall_mem_append] at h
    obtain ⟨value, hvalue⟩ := object.exists_renders h.1
    obtain ⟨key, hkey⟩ := property.exists_renders h.2
    exact ⟨_, .member hvalue hkey (.refl _)⟩
  | .identifier span name => exact ⟨_, .identifier (.refl _)⟩
  | .declaration span kind declarators =>
    rw [Node.literals] at h
    obtain ⟨items, hitems⟩ := exists_declaratorsRender declarators h
    exact ⟨_, .declaration hitems (.refl _)⟩
  | .declarator d =>
    rw [Node.literals] at h
    obtain ⟨value, hvalue⟩ := d.exists_renders h
    exact ⟨_, .declarator hvalue⟩
  | .unsupported => exact ⟨.object [("type", .string "")], .unsupported rfl (by decide)⟩

theorem exists_rendersAll (nodes : List Node) (h : ∀ value ∈ literalsOfNodes nodes, value.isWritable = true) :
    ∃ values, RendersAll nodes values := by
  match nodes with
  | [] => exact ⟨_, .nil⟩
  | node :: rest =>
    rw [literalsOfNodes, List.forall_mem_append] at h
    obtain ⟨value, hvalue⟩ := node.exists_renders h.1
    obtain ⟨values, hvalues⟩ := exists_rendersAll rest h.2
    exact ⟨_, .cons hvalue hvalues⟩

/-- A declarator has a rendering. -/
theorem Declarator.exists_renders (d : Declarator) (h : ∀ value ∈ d.literals, value.isWritable = true) :
    ∃ value, d.Renders value := by
  match d with
  | .mk span target none =>
    rw [Declarator.literals] at h
    obtain ⟨t, ht⟩ := target.exists_renders h
    exact ⟨_, .mk ht .none (.refl _)⟩
  | .mk span target (some init) =>
    rw [Declarator.literals, List.forall_mem_append] at h
    obtain ⟨t, ht⟩ := target.exists_renders h.1
    obtain ⟨i, hi⟩ := init.exists_renders h.2
    exact ⟨_, .mk ht (.some hi) (.refl _)⟩

theorem exists_declaratorsRender (ds : List Declarator)
    (h : ∀ value ∈ literalsOfDeclarators ds, value.isWritable = true) : ∃ values, DeclaratorsRender ds values := by
  match ds with
  | [] => exact ⟨_, .nil⟩
  | d :: rest =>
    rw [literalsOfDeclarators, List.forall_mem_append] at h
    obtain ⟨value, hvalue⟩ := d.exists_renders h.1
    obtain ⟨values, hvalues⟩ := exists_declaratorsRender rest h.2
    exact ⟨_, .cons hvalue hvalues⟩

end

/-! ## Texts -/

/-- A rendered node can be the root of a document. -/
theorem Node.Renders.isRoot {node : Node} {value : Json} (h : node.Renders value) : Document.isRoot value = true := by
  cases h with
  | program _ h => exact Document.isRoot_object_iff.mpr ⟨_, filter_type_of_perm h (by simp [headNames])⟩
  | expressionStatement _ h => exact Document.isRoot_object_iff.mpr ⟨_, filter_type_of_perm h (by simp [headNames])⟩
  | binary _ _ h => exact Document.isRoot_object_iff.mpr ⟨_, filter_type_of_perm h (by simp [headNames])⟩
  | literal hvalue h => exact Document.isRoot_object_iff.mpr ⟨_, filter_type_of_perm h hvalue.not_mem_headNames⟩
  | call _ _ h => exact Document.isRoot_object_iff.mpr ⟨_, filter_type_of_perm h (by simp [headNames])⟩
  | member _ _ h => exact Document.isRoot_object_iff.mpr ⟨_, filter_type_of_perm h (by simp [headNames])⟩
  | identifier h => exact Document.isRoot_object_iff.mpr ⟨_, filter_type_of_perm h (by simp [headNames])⟩
  | declaration _ h => exact Document.isRoot_object_iff.mpr ⟨_, filter_type_of_perm h (by simp [headNames])⟩
  | declarator h =>
    cases h with
    | mk _ _ h => exact Document.isRoot_object_iff.mpr ⟨_, filter_type_of_perm h (by simp [headNames])⟩
  | unsupported htype _ => exact Document.isRoot_object_iff.mpr ⟨_, htype⟩

/-- A text of a rendering is parsed to what was rendered, if that is a program, and refused otherwise. -/
theorem parse_of_renders {node : Node} {value : Json} (hvalue : node.Renders value) (name : String) {source : String}
    (hsource : Json.ofText? Document.nestingLimit source = some value) :
    Document.parse name source =
      if Document.isProgram node then .ok node else .error (.notProgram node.kindName) := by
  rw [Json.ofText?_eq_some_iff] at hsource
  simp [Document.parse, hsource, hvalue.isRoot, Node.ofJson_of_renders hvalue]

/-- Parsing undoes rendering. A tree whose numbers are finite or infinity has a rendering. A text that spells a rendering
nested within the limit of documents is read as it. And whatever text is read as a rendering, a program is parsed to just
that tree, while a tree with another root is refused by the name of the kind of its root and without a place. -/
theorem parsing_undoes_rendering (node : Node) (h : ∀ value ∈ node.literals, value.isWritable = true) :
    (∃ value, node.Renders value) ∧
      ∀ value, node.Renders value →
        (value.nesting ≤ Document.nestingLimit → ∀ source, Json.Token.scan source = value.tokens →
          Json.ofText? Document.nestingLimit source = some value) ∧
        ∀ name source, Json.ofText? Document.nestingLimit source = some value →
          (Document.isProgram node = true → Document.parse name source = .ok node) ∧
          (Document.isProgram node = false →
            ∃ error, Document.parse name source = .error error ∧
              error.message = "Parse error: expected a Program root, found " ++ node.kindName) := by
  refine ⟨node.exists_renders h, ?_⟩
  intro value hvalue
  refine ⟨fun hnesting source => Json.ofText?_of_tokens hnesting, ?_⟩
  intro name source hsource
  rw [parse_of_renders hvalue name hsource]
  constructor
  · intro hprogram
    rw [if_pos hprogram]
  · intro hprogram
    rw [if_neg (by simp [hprogram])]
    exact ⟨_, rfl, rfl⟩

/-- The script `1e400`, whose number is beyond every double. -/
theorem infinite_script_parses :
    let node : Node := .program ⟨0, 5⟩ [.literal ⟨0, 5⟩ (.number (.infinite false))]
    let literal : Json := .object (typedMembers .literal ⟨0, 5⟩ [("value", .null), ("raw", .string "1e400")])
    let value : Json := .object (typedMembers .program ⟨0, 5⟩ [("body", .array [literal])])
    let source := "\x7b\"type\":\"Program\",\"start\":0,\"end\":5,\"body\":[" ++
      "\x7b\"type\":\"Literal\",\"start\":0,\"end\":5,\"value\":null,\"raw\":\"1e400\"\x7d]\x7d"
    (∀ value ∈ node.literals, value.isWritable = true) ∧ node.Renders value ∧ value.nesting ≤ Document.nestingLimit ∧
      Json.Token.scan source = value.tokens ∧ Document.parse Document.defaultName source = .ok node := by
  intro node literal value source
  have hwritable : ∀ value ∈ node.literals, value.isWritable = true := by
    intro value hvalue
    obtain rfl : value = .number (.infinite false) := List.mem_singleton.mp hvalue
    rfl
  have hrenders : node.Renders value := .program (.cons (.literal .overflow (.refl _)) .nil) (.refl _)
  have hnesting : value.nesting ≤ Document.nestingLimit := by decide
  have hscan : Json.Token.scan source = value.tokens := by
    simp only [source, value, literal]
    set_option maxRecDepth 4096 in
    rfl
  obtain ⟨hspelled, hparsed⟩ := (parsing_undoes_rendering node hwritable).2 value hrenders
  exact ⟨hwritable, hrenders, hnesting, hscan, (hparsed Document.defaultName source (hspelled hnesting source hscan)).1 rfl⟩

end ScriptTree
