import ScriptTree.Proofs.Decoding
import ScriptTree.Proofs.JsonReading

/-!
# Documents that say the same

The members of an object may stand in any order, and an object that is a node, a declarator or a regular expression may
have members that nobody looks at. `Json.Reworded` says that a value comes from another one by changes of these two kinds,
at any depth of it; what is foreign to an object depends on the `Place` where it stands. `reworded_documents_parse_alike` is
the main statement: reworded documents are the same script, or are both refused.
-/

namespace ScriptTree

/-! ## Places -/

/-- What the value at a place of a document is to be. A plain value has no node, declarator or regular expression in it. -/
inductive Place where
  | node
  | nodes
  | declarator
  | declarators
  | regex
  | plain

/-- The place that a field of a shape is. -/
def Shape.place : Shape → Place
  | .node | .optionalNode => .node
  | .nodes => .nodes
  | .declarators => .declarators
  | .scalar .optionalRegex => .regex
  | .scalar _ => .plain

/-- The place that a field of an object with a span is. -/
def Schema.place? (schema : Schema) (key : String) : Option Place :=
  match schema.lookup key with
  | some shape => some shape.place
  | none => if key ∈ ["start", "end"] then some .plain else none

namespace Place

/-- The place that a member of an object is, by its key; none if the key is foreign to the object. A node without a known
type has no field but its type, and a declarator has none for a type. -/
def member? (members : List (String × Json)) (key : String) : Place → Option Place
  | .node =>
    if key = "type" then some .plain
    else
      match kindOf members with
      | .ok (some kind) => kind.schema.place? key
      | _ => none
  | .declarator => Schema.declarator.place? key
  | .regex => if key ∈ regexFields then some .plain else none
  | .nodes | .declarators | .plain => some .plain

/-- The place that an item of an array is. A node may be an array only as a literal whose fields follow its type. -/
def item (index : Nat) : Place → Place
  | .nodes => .node
  | .declarators => .declarator
  | .node =>
    match index with
    | 0 => .plain
    | index + 1 => (Schema.literal[index]?).elim .plain fun field => field.2.place
  | .declarator | .regex | .plain => .plain

end Place

/-- A value that stands at a place says the same as another one: members of objects have changed their order, or members
that are foreign to their object have come or gone, anywhere in it. -/
inductive Json.Reworded : Place → Json → Json → Prop
  | refl {place : Place} (value : Json) : Reworded place value value
  | symm {place : Place} {value value' : Json} (h : Reworded place value value') : Reworded place value' value
  | trans {place : Place} {value value' value'' : Json} (h : Reworded place value value')
      (h' : Reworded place value' value'') : Reworded place value value''
  | order {place : Place} {members members' : List (String × Json)} (h : members'.Perm members) :
      Reworded place (.object members) (.object members')
  | foreign {place : Place} {members : List (String × Json)} {key : String} (value : Json)
      (h : place.member? members key = none) : Reworded place (.object members) (.object ((key, value) :: members))
  | member {place inner : Place} {before after : List (String × Json)} {key : String} {value value' : Json}
      (hkey : place.member? (before ++ (key, value) :: after) key = some inner) (h : Reworded inner value value') :
      Reworded place (.object (before ++ (key, value) :: after)) (.object (before ++ (key, value') :: after))
  | item {place : Place} {before after : List Json} {value value' : Json}
      (h : Reworded (place.item before.length) value value') :
      Reworded place (.array (before ++ value :: after)) (.array (before ++ value' :: after))

/-! ## Plain values -/

namespace Json

/-- What the decoder of a field without nodes sees of a value: all of it unless it is an array or an object, and of these
whether it is an object with fewer than two members. -/
def outline : Json → Json
  | .array _ => .array []
  | .object [] => .object []
  | .object [(key, value)] => .object [(key, value.outline)]
  | .object (_ :: _ :: _) => .object [("", .null), ("", .null)]
  | value => value

variable {value value' : Json}

/-- Two objects with the same outline have the same one member, unless they have none or several. -/
theorem outline_singleton {key : String} {members : List (String × Json)}
    (h : (Json.object [(key, value)]).outline = (Json.object members).outline) :
    ∃ value', members = [(key, value')] ∧ value.outline = value'.outline := by
  match members with
  | [] => simp [outline] at h
  | [(key', value')] =>
    simp only [outline, object.injEq, List.cons.injEq, Prod.mk.injEq, and_true] at h
    exact ⟨value', by rw [h.1], h.2⟩
  | _ :: _ :: _ => simp [outline] at h

/-- Of an object with two members or more the outline shows no more than that. -/
theorem outline_of_two_le {members : List (String × Json)} (h : 2 ≤ members.length) :
    (Json.object members).outline = .object [("", .null), ("", .null)] := by
  match members with
  | _ :: _ :: _ => rfl

/-- A value with the outline of one that is no array or object is that one. -/
theorem eq_of_outline (h : value.outline = value'.outline) (harray : ∀ items, value ≠ .array items)
    (hobject : ∀ members, value ≠ .object members) : value' = value := by
  have hvalue : value.outline = value := by
    cases value with
    | array items => exact absurd rfl (harray items)
    | object members => exact absurd rfl (hobject members)
    | _ => rfl
  rw [hvalue] at h
  cases value' with
  | array items => exact absurd h (harray [])
  | object members =>
    match members with
    | [] => exact absurd h (hobject _)
    | [_] => exact absurd h (hobject _)
    | _ :: _ :: _ => exact absurd h (hobject _)
  | _ => exact h.symm

/-- A value that is empty where a word stands for something by itself. -/
def isBlank : Json → Bool
  | .null | .object [] => true
  | _ => false

/-- The outline shows whether a value is blank. -/
theorem isBlank_outline (value : Json) : value.outline.isBlank = value.isBlank := by
  match value with
  | .object [] => rfl
  | .object [_] => rfl
  | .object (_ :: _ :: _) => rfl
  | .null | .bool _ | .integer _ | .real _ | .string _ | .array _ => rfl

end Json

section Scalars

variable {value value' : Json}

/-- The kind that a type names goes by the outline. -/
theorem kindOfType_of_outline (h : value.outline = value'.outline) {kind? : Option NodeKind}
    (hkind : kindOfType value = .ok kind?) : kindOfType value' = .ok kind? := by
  cases value with
  | string | integer =>
    rw [Json.eq_of_outline h nofun nofun]
    exact hkind
  | _ => cases hkind

/-- Texts go by the outline. -/
theorem decodeText_of_outline (h : value.outline = value'.outline) {text : String}
    (htext : decodeText value = .ok text) : decodeText value' = .ok text := by
  cases value with
  | string =>
    rw [Json.eq_of_outline h nofun nofun]
    exact htext
  | _ => cases htext

/-- Offsets go by the outline. -/
theorem decodeOffset_of_outline (h : value.outline = value'.outline) {offset : Nat}
    (hoffset : decodeOffset value = .ok offset) : decodeOffset value' = .ok offset := by
  cases value with
  | integer =>
    rw [Json.eq_of_outline h nofun nofun]
    exact hoffset
  | _ => cases hoffset

/-- A word that is the only key of an object stands for something if what it is the key of is blank. -/
theorem decodeWord_singleton_eq_ok_iff {α : Type} {meaning? : String → Option α} {known : List String} {word : String}
    {x : α} :
    decodeWord meaning? known (.object [(word, value)]) = .ok x ↔
      meaningOf meaning? known word = .ok x ∧ value.isBlank = true := by
  rw [decodeWord, bind_eq_ok_iff]
  constructor
  · rintro ⟨y, hmeaning, h⟩
    split at h
    · cases h
      exact ⟨hmeaning, rfl⟩
    · cases h
      exact ⟨hmeaning, rfl⟩
    · cases h
  · rintro ⟨hmeaning, hblank⟩
    refine ⟨x, hmeaning, ?_⟩
    unfold Json.isBlank at hblank
    split at hblank
    · rfl
    · rfl
    · cases hblank

/-- Words of a fixed meaning go by the outline. -/
theorem decodeWord_of_outline {α : Type} {meaning? : String → Option α} {known : List String} {x : α}
    (h : value.outline = value'.outline) (hword : decodeWord meaning? known value = .ok x) :
    decodeWord meaning? known value' = .ok x := by
  match value with
  | .string word =>
    rw [Json.eq_of_outline h nofun nofun]
    exact hword
  | .object [(word, content)] =>
    have hobject : ∃ members, value' = .object members := by
      cases value' with
      | object members => exact ⟨members, rfl⟩
      | _ => cases h
    obtain ⟨members, rfl⟩ := hobject
    obtain ⟨content', rfl, hcontent⟩ := Json.outline_singleton h
    rw [decodeWord_singleton_eq_ok_iff] at hword ⊢
    rwa [← Json.isBlank_outline, ← hcontent, Json.isBlank_outline]
  | .object [] | .object (_ :: _ :: _) | .null | .bool _ | .integer _ | .real _ | .array _ => cases hword

/-- A plain field is decoded by its outline. -/
theorem decodeScalar_of_outline {shape : ScalarShape} (hplain : (Shape.scalar shape).place = .plain)
    (hany : shape ≠ .anything) (h : value.outline = value'.outline) {part : Part}
    (hpart : decodeScalar shape value = .ok part) : decodeScalar shape value' = .ok part := by
  cases shape with
  | text =>
    obtain ⟨text, htext, rfl⟩ := map_eq_ok_iff.mp hpart
    exact map_eq_ok_iff.mpr ⟨text, decodeText_of_outline h htext, rfl⟩
  | optionalText =>
    cases value with
    | null | string =>
      rw [Json.eq_of_outline h nofun nofun]
      exact hpart
    | _ => cases hpart
  | flag =>
    cases value with
    | bool =>
      rw [Json.eq_of_outline h nofun nofun]
      exact hpart
    | _ => cases hpart
  | offset =>
    obtain ⟨offset, hoffset, rfl⟩ := map_eq_ok_iff.mp hpart
    exact map_eq_ok_iff.mpr ⟨offset, decodeOffset_of_outline h hoffset, rfl⟩
  | operator =>
    obtain ⟨operator, hword, rfl⟩ := map_eq_ok_iff.mp hpart
    exact map_eq_ok_iff.mpr ⟨operator, decodeWord_of_outline h hword, rfl⟩
  | keyword =>
    obtain ⟨kind, hword, rfl⟩ := map_eq_ok_iff.mp hpart
    exact map_eq_ok_iff.mpr ⟨kind, decodeWord_of_outline h hword, rfl⟩
  | optionalRegex => cases hplain
  | anything => exact absurd rfl hany

/-- The value of a literal that is given as a JSON value is given by its outline. -/
theorem LiteralFields.literal_of_outline {raw bigint : Option String} {regex : Option Regex}
    (h : value.outline = value'.outline) {literal : LiteralValue}
    (hliteral : LiteralFields.literal ⟨value, raw, regex, bigint⟩ = .ok literal) :
    LiteralFields.literal ⟨value', raw, regex, bigint⟩ = .ok literal := by
  have hplain : ∀ literal, LiteralFields.plainValue ⟨value, raw, regex, bigint⟩ = .ok literal →
      LiteralFields.plainValue ⟨value', raw, regex, bigint⟩ = .ok literal := by
    intro literal hvalue
    cases value with
    | array | object => cases hvalue
    | _ =>
      rw [Json.eq_of_outline h nofun nofun]
      exact hvalue
  cases bigint with
  | some digits => exact hliteral
  | none =>
    cases regex with
    | some r => exact hliteral
    | none => exact hplain literal hliteral

end Scalars

/-! ## What is read at a place -/

/-- Whatever a value is decoded to at a place, the other value is decoded to as well. -/
def Place.Keeps : Place → Json → Json → Prop
  | .node, value, value' => ∀ node, Node.ofJson value = .ok node → Node.ofJson value' = .ok node
  | .nodes, value, value' => ∀ part, decodePart .nodes value = .ok part → decodePart .nodes value' = .ok part
  | .declarator, value, value' => ∀ d, Declarator.ofJson value = .ok d → Declarator.ofJson value' = .ok d
  | .declarators, value, value' =>
    ∀ part, decodePart .declarators value = .ok part → decodePart .declarators value' = .ok part
  | .regex, value, value' => ∀ r, decodeRegex value = .ok r → decodeRegex value' = .ok r
  | .plain, value, value' => value.outline = value'.outline

section Keeps

variable {value value' value'' : Json}

theorem Place.Keeps.refl (place : Place) (value : Json) : place.Keeps value value := by
  cases place with
  | plain => exact rfl
  | _ => exact fun _ h => h

theorem Place.Keeps.trans {place : Place} (h : place.Keeps value value') (h' : place.Keeps value' value'') :
    place.Keeps value value'' := by
  cases place with
  | plain => exact Eq.trans h h'
  | _ => exact fun x hx => h' x (h x hx)

/-- A field is decoded by what is kept at its place; only a literal's value is passed on as it is. -/
theorem decodePart_of_keeps {shape : Shape} (hany : shape ≠ .scalar .anything) (hnull : value'.isNull = value.isNull)
    (h : shape.place.Keeps value value') {part : Part} (hpart : decodePart shape value = .ok part) :
    decodePart shape value' = .ok part := by
  cases shape with
  | node =>
    obtain ⟨node, hnode, rfl⟩ := map_eq_ok_iff.mp hpart
    exact map_eq_ok_iff.mpr ⟨node, h node hnode, rfl⟩
  | optionalNode =>
    rw [decodePart] at hpart ⊢
    rw [hnull]
    split at hpart
    · rwa [if_pos ‹_›]
    · rw [if_neg ‹_›]
      obtain ⟨node, hnode, rfl⟩ := map_eq_ok_iff.mp hpart
      exact map_eq_ok_iff.mpr ⟨node, h node hnode, rfl⟩
  | nodes => exact h part hpart
  | declarators => exact h part hpart
  | scalar shape =>
    by_cases hregex : shape = .optionalRegex
    · subst hregex
      rw [decodePart, decodeScalar] at hpart ⊢
      rw [hnull]
      split at hpart
      · rwa [if_pos ‹_›]
      · rw [if_neg ‹_›]
        obtain ⟨r, hr, rfl⟩ := map_eq_ok_iff.mp hpart
        exact map_eq_ok_iff.mpr ⟨r, h r hr, rfl⟩
    · have hplain : (Shape.scalar shape).place = .plain := by
        cases shape with
        | optionalRegex => exact absurd rfl hregex
        | _ => rfl
      rw [hplain] at h
      exact decodeScalar_of_outline hplain (fun hs => hany (congrArg Shape.scalar hs)) h hpart

end Keeps

/-! ## One member in the place of another -/

section Member

variable {before after : List (String × Json)} {key : String} {value value' : Json}

/-- A type that is given once is still given once where a member is replaced: by the same value, or by the new one. -/
theorem filter_type_of_member {type : Json} (value' : Json)
    (h : ((before ++ (key, value) :: after).filter fun member => member.1 = "type") = [("type", type)]) :
    ∃ type', ((before ++ (key, value') :: after).filter fun member => member.1 = "type") = [("type", type')] ∧
      (type' = type ∨ key = "type" ∧ type = value ∧ type' = value') := by
  by_cases hkey : key = "type"
  · subst hkey
    rw [List.filter_append, List.filter_cons_of_pos (by simp), List.append_eq_singleton_iff] at h
    rcases h with ⟨hbefore, hafter⟩ | ⟨-, hafter⟩
    · obtain ⟨hfound, hrest⟩ := List.cons.inj hafter
      refine ⟨value', ?_, Or.inr ⟨rfl, (Prod.mk.inj hfound).2.symm, rfl⟩⟩
      rw [List.filter_append, List.filter_cons_of_pos (by simp), hbefore, hrest]
      rfl
    · cases hafter
  · refine ⟨type, ?_, Or.inl rfl⟩
    rw [← h, List.filter_append, List.filter_append, List.filter_cons_of_neg (by simpa using hkey),
      List.filter_cons_of_neg (by simpa using hkey)]

/-- Rewording a member keeps the kind of a node, if the type keeps its outline. -/
theorem kindOf_of_member (htype : key = "type" → value.outline = value'.outline) {kind? : Option NodeKind}
    (h : kindOf (before ++ (key, value) :: after) = .ok kind?) : kindOf (before ++ (key, value') :: after) = .ok kind? := by
  obtain ⟨type, hfilter, hkind⟩ := kindOf_eq_ok_iff.mp h
  obtain ⟨type', hfilter', rfl | ⟨hkey, rfl, rfl⟩⟩ := filter_type_of_member value' hfilter
  · exact kindOf_eq_ok_iff.mpr ⟨type', hfilter', hkind⟩
  · exact kindOf_eq_ok_iff.mpr ⟨type', hfilter', kindOfType_of_outline (htype hkey) hkind⟩

/-- Rewording a member keeps the span of a node, if the offsets keep their outlines. -/
theorem decodeSpan_of_member (hoffset : key ∈ ["start", "end"] → value.outline = value'.outline) {span : Span}
    (h : decodeSpan (before ++ (key, value) :: after) = .ok span) :
    decodeSpan (before ++ (key, value') :: after) = .ok span := by
  obtain ⟨offsets, hoffsets, hspan⟩ := bind_eq_ok_iff.mp h
  refine bind_eq_ok_iff.mpr ⟨offsets, decodeFields_of_read ?_ hoffsets, hspan⟩
  intro read hread offset hvalue
  split at hread
  · cases hread
    exact decodeOffset_of_outline (hoffset ‹_›) hvalue
  · cases hread

/-- Only a literal has a field that is passed on as it is. -/
theorem eq_literal_of_anything {kind : NodeKind} (h : kind.schema.lookup key = some (.scalar .anything)) :
    kind = .literal ∧ key = "value" := by
  obtain ⟨before, after, hsplit, -⟩ := List.lookup_eq_some_iff.mp h
  have hm : (key, Shape.scalar .anything) ∈ kind.schema := by simp [hsplit]
  cases kind with
  | literal => exact ⟨rfl, by simpa [NodeKind.schema, Schema.literal] using hm⟩
  | _ => simp [NodeKind.schema, Schema.declarator] at hm

namespace Parts

variable {first last : Parts}

/-- A literal whose value has another wording is the same literal. -/
theorem assemble_literal_of_value (houtline : value.outline = value'.outline)
    (hnodup : ((first ++ ("value", Part.anything value) :: last).map Prod.fst).Nodup) {build : Span → Node}
    (h : assemble (first ++ ("value", .anything value) :: last) .literal = .ok build) :
    assemble (first ++ ("value", .anything value') :: last) .literal = .ok build := by
  have hvalue (value : Json) (hn : ((first ++ ("value", Part.anything value) :: last).map Prod.fst).Nodup) :
      (first ++ ("value", Part.anything value) :: last).lookup "value" = some (.anything value) :=
    (lookup_eq_some_iff_mem hn).mpr (by simp)
  have hother (name : String) (hname : name ≠ "value") :
      (first ++ ("value", Part.anything value') :: last).lookup name =
        (first ++ ("value", Part.anything value) :: last).lookup name := lookup_replace hname _ _
  obtain ⟨literal, hliteral, hbuild⟩ := bind_eq_ok_iff.mp h
  refine bind_eq_ok_iff.mpr ⟨literal, ?_, hbuild⟩
  simp only [anything, text?, regex?, hvalue value hnodup, hvalue value' (by simpa using hnodup),
    hother "raw" (by decide), hother "regex" (by decide), hother "bigint" (by decide)] at hliteral ⊢
  exact LiteralFields.literal_of_outline houtline hliteral

/-- The value of a literal is no part of its span. -/
theorem span_of_value : span (first ++ ("value", .anything value') :: last) =
    span (first ++ ("value", .anything value) :: last) := by
  have hother (name : String) (hname : name ≠ "value") :
      (first ++ ("value", Part.anything value') :: last).lookup name =
        (first ++ ("value", Part.anything value) :: last).lookup name := lookup_replace hname _ _
  simp only [span, offset, hother "start" (by decide), hother "end" (by decide)]

end Parts

/-- Where a member of some fields is replaced by one that keeps what its place asks for, they make up the same node. -/
theorem assemble_of_member {kind : NodeKind}
    (hkeeps : ∀ shape, kind.schema.lookup key = some shape → shape.place.Keeps value value')
    (hnull : value'.isNull = value.isNull) {parts : Parts} {build : Span → Node}
    (hparts : decodeFields kind.schema.reader? [] (before ++ (key, value) :: after) = .ok parts)
    (hbuild : parts.assemble kind = .ok build) :
    ∃ parts', decodeFields kind.schema.reader? [] (before ++ (key, value') :: after) = .ok parts' ∧
      Parts.assemble parts' kind = .ok build ∧ Parts.span parts' = Parts.span parts := by
  by_cases hany : kind.schema.lookup key = some (.scalar .anything)
  · obtain ⟨rfl, rfl⟩ := eq_literal_of_anything hany
    have hread : NodeKind.literal.schema.reader? "value" = some (decodePart (.scalar .anything)) := rfl
    have hnodup := (decodeFields_eq_ok_iff.mp hparts).2.1
    obtain ⟨first, part, last, rfl, hvalue, hreplace⟩ := decodeFields_of_member hread hparts
    cases hvalue
    refine ⟨_, hreplace value' (.anything value') rfl, ?_, Parts.span_of_value⟩
    exact Parts.assemble_literal_of_value (hkeeps _ hany) hnodup hbuild
  · refine ⟨parts, decodeFields_of_read ?_ hparts, hbuild, rfl⟩
    intro read hread part hpart
    obtain ⟨shape, hshape, rfl⟩ := Option.map_eq_some_iff.mp hread
    exact decodePart_of_keeps (fun hs => hany (hs ▸ hshape)) hnull (hkeeps shape hshape) hpart

/-- A field of a schema has the place of its shape. -/
theorem Schema.place?_of_lookup {schema : Schema} {shape : Shape} (h : schema.lookup key = some shape) :
    schema.place? key = some shape.place := by
  rw [place?, h]

/-- An offset is plain, in a literal and outside. -/
theorem Schema.place?_of_offset {kind : NodeKind} (h : key ∈ ["start", "end"]) : kind.schema.place? key = some .plain := by
  simp only [List.mem_cons, List.not_mem_nil, or_false] at h
  rcases h with rfl | rfl <;> cases kind <;> rfl

/-- A node keeps what it is where a member keeps what its place asks for. -/
theorem Node.ofJson_of_member (hnull : value'.isNull = value.isNull)
    (hkeeps : ∀ inner, Place.node.member? (before ++ (key, value) :: after) key = some inner → inner.Keeps value value')
    {node : Node} (h : Node.ofJson (.object (before ++ (key, value) :: after)) = .ok node) :
    Node.ofJson (.object (before ++ (key, value') :: after)) = .ok node := by
  have htype : key = "type" → value.outline = value'.outline :=
    fun hkey => hkeeps .plain (by rw [Place.member?, if_pos hkey])
  rw [Node.ofJson_object_eq_ok_iff] at h ⊢
  cases h with
  | unsupported hkind => exact .unsupported (kindOf_of_member htype hkind)
  | @typed kind parts build span hkind hparts hbuild hspan =>
    have hplace : ∀ inner, kind.schema.place? key = some inner → inner.Keeps value value' := by
      intro inner hinner
      refine hkeeps inner ?_
      have hne : key ≠ "type" := by
        rintro rfl
        cases kind <;> cases hinner
      rw [Place.member?, if_neg hne, hkind]
      exact hinner
    obtain ⟨parts', hparts', hbuild', hspan'⟩ :=
      assemble_of_member (fun shape hshape => hplace _ (Schema.place?_of_lookup hshape)) hnull hparts hbuild
    refine .typed (kindOf_of_member htype hkind) hparts' hbuild' ?_
    unfold decodeSpanOf at hspan ⊢
    by_cases hliteral : kind = .literal
    · rw [if_pos hliteral] at hspan ⊢
      rw [hspan']
      exact hspan
    · rw [if_neg hliteral] at hspan ⊢
      exact decodeSpan_of_member (fun hoffset => hplace .plain (Schema.place?_of_offset hoffset)) hspan

/-- A declarator keeps what it is where a member keeps what its place asks for. -/
theorem Declarator.ofJson_of_member (hnull : value'.isNull = value.isNull)
    (hkeeps : ∀ inner, Schema.declarator.place? key = some inner → inner.Keeps value value') {d : Declarator}
    (h : Declarator.ofJson (.object (before ++ (key, value) :: after)) = .ok d) :
    Declarator.ofJson (.object (before ++ (key, value') :: after)) = .ok d := by
  rw [Declarator.ofJson_object_eq_ok_iff] at h ⊢
  obtain ⟨parts, build, span, hparts, hbuild, hspan, rfl⟩ := h
  refine ⟨parts, build, span, decodeFields_of_read ?_ hparts, hbuild, decodeSpan_of_member ?_ hspan, rfl⟩
  · intro read hread part hpart
    obtain ⟨shape, hshape, rfl⟩ := Option.map_eq_some_iff.mp hread
    have hany : shape ≠ .scalar .anything := by
      rintro rfl
      have hkind : NodeKind.declarator.schema.lookup key = some (.scalar .anything) := hshape
      exact absurd (eq_literal_of_anything hkind).1 (by decide)
    exact decodePart_of_keeps hany hnull (hkeeps _ (Schema.place?_of_lookup hshape)) hpart
  · intro hoffset
    have hkind : NodeKind.declarator.schema.place? key = some .plain := Schema.place?_of_offset hoffset
    exact hkeeps .plain hkind

/-- Rewording a member of a regular expression keeps its texts. -/
theorem decodeRegexFields_of_member (h : value.outline = value'.outline) {texts : List (String × String)}
    (htexts : decodeRegexFields (before ++ (key, value) :: after) = .ok texts) :
    decodeRegexFields (before ++ (key, value') :: after) = .ok texts := by
  refine decodeFields_of_read ?_ htexts
  intro read hread text htext
  split at hread
  · cases hread
    exact decodeText_of_outline h htext
  · cases hread

/-- The place of a member does not depend on its own value. -/
theorem Place.member?_of_member (place : Place) :
    place.member? (before ++ (key, value') :: after) key = place.member? (before ++ (key, value) :: after) key := by
  cases place with
  | node =>
    by_cases hkey : key = "type"
    · rw [member?, member?, if_pos hkey, if_pos hkey]
    · have hkind : kindOf (before ++ (key, value') :: after) = kindOf (before ++ (key, value) :: after) := by
        simp [kindOf, hkey]
      rw [member?, member?, hkind]
  | _ => rfl

/-- Rewording a member keeps the outline of an object. -/
theorem Json.outline_of_member (h : value.outline = value'.outline) :
    (Json.object (before ++ (key, value) :: after)).outline = (Json.object (before ++ (key, value') :: after)).outline := by
  by_cases hone : before = [] ∧ after = []
  · obtain ⟨rfl, rfl⟩ := hone
    simp [outline, h]
  · have hlength : 2 ≤ before.length + (after.length + 1) := by
      have hsome : 0 < before.length + after.length := by
        by_contra hzero
        exact hone ⟨List.eq_nil_of_length_eq_zero (by omega), List.eq_nil_of_length_eq_zero (by omega)⟩
      omega
    rw [outline_of_two_le (by simpa using hlength), outline_of_two_le (by simpa using hlength)]

/-- An object keeps what its place asks for where a member does. -/
theorem Place.keeps_of_member {place inner : Place} (hnull : value'.isNull = value.isNull)
    (hkey : place.member? (before ++ (key, value) :: after) key = some inner) (h : inner.Keeps value value') :
    place.Keeps (.object (before ++ (key, value) :: after)) (.object (before ++ (key, value') :: after)) := by
  cases place with
  | node =>
    intro node hnode
    refine Node.ofJson_of_member hnull (fun inner' hinner => ?_) hnode
    rw [hkey] at hinner
    cases hinner
    exact h
  | nodes => exact fun part hpart => by cases hpart
  | declarator =>
    intro d hd
    refine Declarator.ofJson_of_member hnull (fun inner' hinner => ?_) hd
    rw [member?, hinner] at hkey
    cases hkey
    exact h
  | declarators => exact fun part hpart => by cases hpart
  | regex =>
    intro r hr
    obtain ⟨texts, htexts, hregex⟩ := bind_eq_ok_iff.mp hr
    refine bind_eq_ok_iff.mpr ⟨texts, decodeRegexFields_of_member ?_ htexts, hregex⟩
    rw [member?] at hkey
    split at hkey
    · cases hkey
      exact h
    · cases hkey
  | plain =>
    cases hkey
    exact Json.outline_of_member h

end Member

/-! ## Members that come, go and move -/

section Members

variable {members members' : List (String × Json)} {key : String} {value : Json}

/-- A name that has no place is read neither as a field nor as an offset. -/
theorem Schema.eq_none_of_place? {schema : Schema} (h : schema.place? key = none) :
    schema.reader? key = none ∧ key ∉ ["start", "end"] := by
  unfold place? at h
  split at h
  · cases h
  · rename_i hlookup
    refine ⟨by rw [reader?, hlookup]; rfl, ?_⟩
    intro hoffset
    rw [if_pos hoffset] at h
    cases h

/-- A member that is not an offset does not change the span. -/
theorem decodeSpan_of_foreign (h : key ∉ ["start", "end"]) : decodeSpan ((key, value) :: members) = decodeSpan members := by
  rw [decodeSpan, decodeSpan, decodeFields, if_neg h]

/-- A member that is foreign to a node is never looked at. -/
theorem Node.ofJson_of_foreign (h : Place.node.member? members key = none) :
    Node.ofJson (.object ((key, value) :: members)) = Node.ofJson (.object members) := by
  have hkey : key ≠ "type" := by
    rintro rfl
    cases h
  have hkind : kindOf ((key, value) :: members) = kindOf members := by simp [kindOf, hkey]
  rw [Place.member?, if_neg hkey] at h
  cases hk : kindOf members with
  | error e => rw [Node.ofJson.eq_1, Node.ofJson.eq_1, hkind, hk]; rfl
  | ok kind? =>
    cases kind? with
    | none => rw [Node.ofJson.eq_1, Node.ofJson.eq_1, hkind, hk]; rfl
    | some kind =>
      rw [hk] at h
      obtain ⟨hreader, hoffset⟩ := Schema.eq_none_of_place? h
      rw [Node.ofJson_typed (hkind.trans hk), Node.ofJson_typed hk, decodeFields, hreader]
      simp only [decodeSpanOf, decodeSpan_of_foreign hoffset]

/-- A member that is foreign to a declarator is never looked at. -/
theorem Declarator.ofJson_of_foreign (h : Schema.declarator.place? key = none) :
    Declarator.ofJson (.object ((key, value) :: members)) = Declarator.ofJson (.object members) := by
  obtain ⟨hreader, hoffset⟩ := Schema.eq_none_of_place? h
  rw [Declarator.ofJson.eq_1, Declarator.ofJson.eq_1, decodeParts_eq, decodeParts_eq, decodeFields, hreader,
    decodeSpan_of_foreign hoffset]

/-- A member that is foreign to a regular expression is never looked at. -/
theorem decodeRegex_of_foreign (h : key ∉ regexFields) :
    decodeRegex (.object ((key, value) :: members)) = decodeRegex (.object members) := by
  rw [decodeRegex, decodeRegex, decodeRegexFields, decodeFields, if_neg h]
  rfl

/-- The order of its members does not show in the outline of an object. -/
theorem Json.outline_of_perm (h : members'.Perm members) :
    (Json.object members').outline = (Json.object members).outline := by
  match members with
  | [] => rw [List.perm_nil.mp h]
  | [_] => rw [List.perm_singleton.mp h]
  | first :: second :: rest =>
    have hlength : 2 ≤ members'.length := by
      rw [h.length_eq]
      exact Nat.le_add_left 2 rest.length
    rw [outline_of_two_le hlength]
    rfl

/-- An object keeps what its place asks for when its members change their order. -/
theorem Place.keeps_of_perm (place : Place) (h : members'.Perm members) :
    place.Keeps (.object members) (.object members') := by
  cases place with
  | node => exact fun _ => Node.ofJson_of_perm h
  | nodes => exact fun part hpart => by cases hpart
  | declarator => exact fun _ => Declarator.ofJson_of_perm h
  | declarators => exact fun part hpart => by cases hpart
  | regex => exact fun _ => decodeRegex_of_perm h
  | plain => exact (Json.outline_of_perm h).symm

/-- An object keeps what its place asks for when a foreign member comes or goes. -/
theorem Place.keeps_of_foreign {place : Place} (h : place.member? members key = none) :
    place.Keeps (.object members) (.object ((key, value) :: members)) ∧
      place.Keeps (.object ((key, value) :: members)) (.object members) := by
  cases place with
  | node =>
    have hsame : Node.ofJson (.object ((key, value) :: members)) = _ := Node.ofJson_of_foreign h
    exact ⟨fun _ hnode => hsame.trans hnode, fun _ hnode => hsame.symm.trans hnode⟩
  | declarator =>
    have hsame : Declarator.ofJson (.object ((key, value) :: members)) = _ := Declarator.ofJson_of_foreign h
    exact ⟨fun _ hd => hsame.trans hd, fun _ hd => hsame.symm.trans hd⟩
  | regex =>
    have hkey : key ∉ regexFields := by
      intro hkey
      rw [member?, if_pos hkey] at h
      cases h
    have hsame : decodeRegex (.object ((key, value) :: members)) = _ := decodeRegex_of_foreign hkey
    exact ⟨fun _ hr => hsame.trans hr, fun _ hr => hsame.symm.trans hr⟩
  | nodes | declarators | plain => cases h

end Members

/-! ## Items of arrays -/

section Items

variable {before after : List Json} {value value' : Json}

/-- Rewording an item keeps the nodes of an array. -/
theorem decodeNodes_of_item (h : Place.node.Keeps value value') {nodes : List Node}
    (hnodes : decodeNodes (before ++ value :: after) = .ok nodes) : decodeNodes (before ++ value' :: after) = .ok nodes := by
  induction before generalizing nodes with
  | nil =>
    rw [List.nil_append, decodeNodes] at hnodes ⊢
    obtain ⟨node, hnode, hrest⟩ := bind_eq_ok_iff.mp hnodes
    exact bind_eq_ok_iff.mpr ⟨node, h node hnode, hrest⟩
  | cons first rest ih =>
    rw [List.cons_append, decodeNodes] at hnodes ⊢
    obtain ⟨node, hnode, hrest⟩ := bind_eq_ok_iff.mp hnodes
    obtain ⟨more, hmore, hcons⟩ := bind_eq_ok_iff.mp hrest
    exact bind_eq_ok_iff.mpr ⟨node, hnode, bind_eq_ok_iff.mpr ⟨more, ih hmore, hcons⟩⟩

theorem decodeDeclarators_of_item (h : Place.declarator.Keeps value value') {ds : List Declarator}
    (hds : decodeDeclarators (before ++ value :: after) = .ok ds) :
    decodeDeclarators (before ++ value' :: after) = .ok ds := by
  induction before generalizing ds with
  | nil =>
    rw [List.nil_append, decodeDeclarators] at hds ⊢
    obtain ⟨d, hd, hrest⟩ := bind_eq_ok_iff.mp hds
    exact bind_eq_ok_iff.mpr ⟨d, h d hd, hrest⟩
  | cons first rest ih =>
    rw [List.cons_append, decodeDeclarators] at hds ⊢
    obtain ⟨d, hd, hrest⟩ := bind_eq_ok_iff.mp hds
    obtain ⟨more, hmore, hcons⟩ := bind_eq_ok_iff.mp hrest
    exact bind_eq_ok_iff.mpr ⟨d, hd, bind_eq_ok_iff.mpr ⟨more, ih hmore, hcons⟩⟩

/-- Where names are put to the items of a row, an item is put to the name of its place, or to none. -/
theorem zip_cases (names : List String) (before after : List Json) :
    (∃ name first last, names[before.length]? = some name ∧
        ∀ value, names.zip (before ++ value :: after) = first ++ (name, value) :: last) ∨
      ∀ value value', names.zip (before ++ value :: after) = names.zip (before ++ value' :: after) := by
  induction before generalizing names with
  | nil =>
    cases names with
    | nil => exact Or.inr fun _ _ => rfl
    | cons name rest => exact Or.inl ⟨name, [], rest.zip after, rfl, fun _ => rfl⟩
  | cons item before ih =>
    cases names with
    | nil => exact Or.inr fun _ _ => rfl
    | cons head rest =>
      rcases ih rest with ⟨name, first, last, hname, hzip⟩ | hsame
      · exact Or.inl ⟨name, (head, item) :: first, last, hname, fun value => congrArg ((head, item) :: ·) (hzip value)⟩
      · exact Or.inr fun value value' => congrArg ((head, item) :: ·) (hsame value value')

theorem checkLength_of_item {most : Nat} (h : checkLength (before ++ value :: after) most = .ok ()) :
    checkLength (before ++ value' :: after) most = .ok () := by
  unfold checkLength at h ⊢
  simpa using h

/-- A literal whose fields stand in a row keeps what it is where a field keeps what its place asks for. -/
theorem decodeLiteralRow_of_item (hnull : value'.isNull = value.isNull)
    (h : (Place.node.item (before.length + 1)).Keeps value value') {node : Node}
    (hnode : decodeLiteralRow (before ++ value :: after) = .ok node) :
    decodeLiteralRow (before ++ value' :: after) = .ok node := by
  unfold decodeLiteralRow at hnode ⊢
  rw [literalReader?_eq] at hnode ⊢
  obtain ⟨parts, hparts, hnode⟩ := bind_eq_ok_iff.mp hnode
  obtain ⟨⟨⟩, hlength, hnode⟩ := bind_eq_ok_iff.mp hnode
  obtain ⟨build, hbuild, hnode⟩ := bind_eq_ok_iff.mp hnode
  rcases zip_cases (Schema.literal.map Prod.fst) before after with ⟨name, first, last, hname, hzip⟩ | hsame
  · rw [hzip] at hparts
    have hkeeps : ∀ shape, NodeKind.literal.schema.lookup name = some shape → shape.place.Keeps value value' := by
      intro shape hshape
      obtain ⟨⟨_, shape'⟩, hfield, rfl⟩ := Option.map_eq_some_iff.mp ((List.getElem?_map ..).symm.trans hname)
      have hlookup := (lookup_eq_some_iff_mem (by decide)).mpr (List.mem_of_getElem? hfield)
      obtain rfl : shape = shape' := Option.some.inj (hshape.symm.trans hlookup)
      rwa [Place.item, hfield] at h
    obtain ⟨parts', hparts', hbuild', hspan⟩ := assemble_of_member hkeeps hnull hparts hbuild
    refine bind_eq_ok_iff.mpr ⟨parts', by rw [hzip]; exact hparts', ?_⟩
    refine bind_eq_ok_iff.mpr ⟨(), checkLength_of_item hlength, bind_eq_ok_iff.mpr ⟨build, hbuild', ?_⟩⟩
    rw [hspan]
    exact hnode
  · rw [hsame value value'] at hparts
    exact bind_eq_ok_iff.mpr ⟨parts, hparts, bind_eq_ok_iff.mpr ⟨(), checkLength_of_item hlength,
      bind_eq_ok_iff.mpr ⟨build, hbuild, hnode⟩⟩⟩

/-- Of nodes only literals are arrays, and those whose type is unknown. -/
theorem Node.ofJson_of_item (hnull : value'.isNull = value.isNull) (h : (Place.node.item before.length).Keeps value value')
    {node : Node} (hnode : Node.ofJson (.array (before ++ value :: after)) = .ok node) :
    Node.ofJson (.array (before ++ value' :: after)) = .ok node := by
  rw [Node.ofJson.eq_2] at hnode ⊢
  cases before with
  | nil =>
    obtain ⟨kind?, hkind, hnode⟩ := bind_eq_ok_iff.mp hnode
    exact bind_eq_ok_iff.mpr ⟨kind?, kindOfType_of_outline h hkind, hnode⟩
  | cons type before =>
    obtain ⟨kind?, hkind, hnode⟩ := bind_eq_ok_iff.mp hnode
    refine bind_eq_ok_iff.mpr ⟨kind?, hkind, ?_⟩
    cases kind? with
    | none =>
      obtain ⟨_, hlength, hnode⟩ := bind_eq_ok_iff.mp hnode
      exact bind_eq_ok_iff.mpr ⟨_, checkLength_of_item hlength, hnode⟩
    | some kind =>
      cases kind with
      | literal => exact decodeLiteralRow_of_item hnull h hnode
      | _ => cases hnode

/-- Rewording an item keeps the regular expression of an array. -/
theorem decodeRegex_of_item (h : value.outline = value'.outline) {r : Regex}
    (hr : decodeRegex (.array (before ++ value :: after)) = .ok r) :
    decodeRegex (.array (before ++ value' :: after)) = .ok r := by
  obtain ⟨texts, htexts, hr⟩ := bind_eq_ok_iff.mp hr
  refine bind_eq_ok_iff.mpr ⟨texts, ?_, ?_⟩
  · rcases zip_cases regexFields before after with ⟨name, first, last, -, hzip⟩ | hsame
    · rw [hzip] at htexts ⊢
      exact decodeRegexFields_of_member h htexts
    · rwa [hsame value value'] at htexts
  · cases hpattern : texts.lookup "pattern" with
    | none =>
      rw [hpattern] at hr
      cases hr
    | some pattern =>
      simp only [hpattern] at hr ⊢
      obtain ⟨_, hlength, hr⟩ := bind_eq_ok_iff.mp hr
      exact bind_eq_ok_iff.mpr ⟨_, checkLength_of_item hlength, hr⟩

/-- An array keeps what its place asks for where an item does. -/
theorem Place.keeps_of_item {place : Place} (hnull : value'.isNull = value.isNull)
    (h : (place.item before.length).Keeps value value') :
    place.Keeps (.array (before ++ value :: after)) (.array (before ++ value' :: after)) := by
  cases place with
  | node => exact fun node hnode => Node.ofJson_of_item hnull h hnode
  | nodes =>
    intro part hpart
    obtain ⟨nodes, hnodes, rfl⟩ := map_eq_ok_iff.mp hpart
    exact map_eq_ok_iff.mpr ⟨nodes, decodeNodes_of_item h hnodes, rfl⟩
  | declarator => exact fun d hd => by cases hd
  | declarators =>
    intro part hpart
    obtain ⟨ds, hds, rfl⟩ := map_eq_ok_iff.mp hpart
    exact map_eq_ok_iff.mpr ⟨ds, decodeDeclarators_of_item h hds, rfl⟩
  | regex => exact fun r hr => decodeRegex_of_item h hr
  | plain => exact rfl

end Items

/-! ## Reworded documents -/

section Reworded

variable {place : Place} {value value' : Json}

/-- Null is reworded to null, and nothing else is. -/
theorem Json.Reworded.isNull (h : value.Reworded place value') : value'.isNull = value.isNull := by
  induction h with
  | symm _ ih => exact ih.symm
  | trans _ _ ih ih' => exact ih'.trans ih
  | refl | order | foreign | member | item => rfl

/-- A value keeps, in another wording, what its place asks for, and so it does the other way round. -/
theorem Json.Reworded.keeps (h : value.Reworded place value') : place.Keeps value value' ∧ place.Keeps value' value := by
  induction h with
  | refl value => exact ⟨.refl _ _, .refl _ _⟩
  | symm _ ih => exact ih.symm
  | trans _ _ ih ih' => exact ⟨ih.1.trans ih'.1, ih'.2.trans ih.2⟩
  | order h => exact ⟨Place.keeps_of_perm _ h, Place.keeps_of_perm _ h.symm⟩
  | foreign value h => exact Place.keeps_of_foreign h
  | member hkey h ih =>
    refine ⟨Place.keeps_of_member h.isNull hkey ih.1, Place.keeps_of_member h.isNull.symm ?_ ih.2⟩
    exact (Place.member?_of_member _).trans hkey
  | item h ih => exact ⟨Place.keeps_of_item h.isNull ih.1, Place.keeps_of_item h.isNull.symm ih.2⟩

/-- A root that is an array begins with a text, which has no other wording. -/
theorem Document.isRoot_of_item {items : List Json} (h : value.outline = value'.outline)
    (hroot : isRoot (.array (value :: items)) = true) : isRoot (.array (value' :: items)) = true := by
  cases value with
  | string name =>
    rw [Json.eq_of_outline h nofun nofun]
    exact hroot
  | _ => cases hroot

/-- A root that is an object has a text for its type, which has no other wording. -/
theorem Document.isRoot_of_member {before after : List (String × Json)} {key : String} {inner : Place}
    (hkey : Place.node.member? (before ++ (key, value) :: after) key = some inner) (h : inner.Keeps value value')
    (hroot : isRoot (.object (before ++ (key, value) :: after)) = true) :
    isRoot (.object (before ++ (key, value') :: after)) = true := by
  obtain ⟨name, hfilter⟩ := isRoot_object_iff.mp hroot
  obtain ⟨type', hfilter', rfl | ⟨rfl, rfl, rfl⟩⟩ := filter_type_of_member value' hfilter
  · exact isRoot_object_iff.mpr ⟨name, hfilter'⟩
  · cases hkey
    rw [Json.eq_of_outline h nofun nofun] at hfilter' ⊢
    exact isRoot_object_iff.mpr ⟨name, hfilter'⟩

/-- A value can be the root of a document exactly if it can in another wording. -/
theorem Json.Reworded.isRoot_iff (h : value.Reworded .node value') :
    Document.isRoot value = true ↔ Document.isRoot value' = true := by
  generalize hplace : Place.node = place at h
  induction h with
  | refl => exact Iff.rfl
  | symm _ ih => exact (ih hplace).symm
  | trans _ _ ih ih' => exact (ih hplace).trans (ih' hplace)
  | order h =>
    have hfilter := h.filter fun member => member.1 = "type"
    simp only [Document.isRoot_object_iff]
    constructor
    · rintro ⟨name, hname⟩
      exact ⟨name, List.perm_singleton.mp (hname ▸ hfilter)⟩
    · rintro ⟨name, hname⟩
      exact ⟨name, List.perm_singleton.mp (hname ▸ hfilter.symm)⟩
  | @foreign _ members key value h =>
    subst hplace
    have hkey : key ≠ "type" := by
      rintro rfl
      cases h
    simp [Document.isRoot_object_iff, hkey]
  | member hkey h =>
    subst hplace
    have hkey' := hkey
    rw [← Place.member?_of_member] at hkey'
    exact ⟨Document.isRoot_of_member hkey h.keeps.1, Document.isRoot_of_member hkey' h.keeps.2⟩
  | @item _ before after _ _ h =>
    subst hplace
    cases before with
    | nil => exact ⟨Document.isRoot_of_item h.keeps.1, Document.isRoot_of_item h.keeps.2⟩
    | cons first rest => cases first <;> exact Iff.rfl

end Reworded

/-- A document is parsed to a script exactly if its value can be a root and is decoded to that script, a program. -/
theorem Document.parse_eq_ok_iff {name source : String} {value : Json} {tree : Node}
    (h : Json.ofText? nestingLimit source = some value) :
    parse name source = .ok tree ↔ isRoot value = true ∧ Node.ofJson value = .ok tree ∧ isProgram tree = true := by
  rw [Json.ofText?_eq_some_iff] at h
  unfold parse
  cases hroot : isRoot value with
  | false => simp [h, hroot]
  | true =>
    cases hnode : Node.ofJson value with
    | error e => simp [h, hroot, hnode]
    | ok node =>
      cases hprogram : isProgram node with
      | true =>
        simp only [h, hroot, hnode, hprogram, Bool.not_true, Bool.false_eq_true, if_false, List.isEmpty_nil, if_true,
          Except.ok.injEq, true_and]
        constructor
        · rintro rfl
          exact ⟨rfl, hprogram⟩
        · exact And.left
      | false =>
        simp only [h, hroot, hnode, hprogram, Bool.not_true, Bool.false_eq_true, if_false, List.isEmpty_nil,
          Except.ok.injEq, reduceCtorEq, false_iff, true_and]
        rintro ⟨rfl, htrue⟩
        rw [hprogram] at htrue
        cases htrue

/-- The order of members and the members that nobody looks at do not matter. -/
theorem reworded_documents_parse_alike {value value' : Json} (h : value.Reworded .node value') {source source' : String}
    (hsource : Json.ofText? Document.nestingLimit source = some value)
    (hsource' : Json.ofText? Document.nestingLimit source' = some value') (name : String) (tree : Node) :
    Document.parse name source = .ok tree ↔ Document.parse name source' = .ok tree := by
  rw [Document.parse_eq_ok_iff hsource, Document.parse_eq_ok_iff hsource', h.isRoot_iff]
  have htree : Node.ofJson value = .ok tree ↔ Node.ofJson value' = .ok tree := ⟨h.keeps.1 tree, h.keeps.2 tree⟩
  rw [htree]

/-- A script of one identifier, and the same with the members turned round and with a foreign one in each object. -/
theorem reworded_identifier_parses_alike :
    let identifier : List (String × Json) := [("type", .string "Identifier"), ("name", .string "x")]
    let value : Json := .object [("type", .string "Program"), ("body", .array [.object identifier])]
    let value' : Json := .object [("range", .array []), ("body", .array [.object (("loc", .null) :: identifier.reverse)]),
      ("type", .string "Program")]
    let source := "\x7b\"type\":\"Program\",\"body\":[\x7b\"type\":\"Identifier\",\"name\":\"x\"\x7d]\x7d"
    let source' := "\x7b\"range\":[],\"body\":[\x7b\"loc\":null,\"name\":\"x\",\"type\":\"Identifier\"\x7d]," ++
      "\"type\":\"Program\"\x7d"
    value.Reworded .node value' ∧ Json.ofText? Document.nestingLimit source = some value ∧
      Json.ofText? Document.nestingLimit source' = some value' ∧
      Document.parse Document.defaultName source' = .ok (.program default [.identifier default "x"]) := by
  intro identifier value value' source source'
  have hidentifier : (Json.object identifier).Reworded .node (.object (("loc", .null) :: identifier.reverse)) := by
    refine .trans (.order (List.reverse_perm identifier)) (.foreign .null ?_)
    rfl
  have hbody : value.Reworded .node (.object [("type", .string "Program"),
      ("body", .array [.object (("loc", .null) :: identifier.reverse)])]) :=
    @Json.Reworded.member .node .nodes [("type", .string "Program")] [] "body" _ _ rfl
      (@Json.Reworded.item .nodes [] [] _ _ hidentifier)
  have hreworded : value.Reworded .node value' :=
    hbody.trans ((Json.Reworded.foreign (.array []) rfl).trans (.order ((List.Perm.swap _ _ _).cons _)))
  have hsource : Json.ofText? Document.nestingLimit source = some value := by
    rw [Json.ofText?_eq_some_iff]
    simp only [source, value, identifier]
    rfl
  have hsource' : Json.ofText? Document.nestingLimit source' = some value' := by
    rw [Json.ofText?_eq_some_iff]
    simp only [source', value', identifier]
    rfl
  refine ⟨hreworded, hsource, hsource', ?_⟩
  rw [← reworded_documents_parse_alike hreworded hsource hsource' Document.defaultName]
  have hnode : Node.ofJson value = .ok (.program default [.identifier default "x"]) := by rfl
  exact (Document.parse_eq_ok_iff hsource).mpr ⟨rfl, hnode, rfl⟩

end ScriptTree
