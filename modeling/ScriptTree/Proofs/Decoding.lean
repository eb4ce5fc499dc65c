import Mathlib.Data.List.Perm.Basic
import Mathlib.Data.Set.List
import ScriptTree.Document.Parse

/-!
# Decoding field by field

Every field of a node is decoded on its own (`decodePart`), and the node is put together from what its fields are looked
up to. So a decoded object says where each of its fields comes from (`read_of_lookup`), and an object that holds the
same members in another order is decoded to the same (`Node.ofJson_of_perm`).
-/

namespace ScriptTree

/-! ## Decoders one after another -/

section Bind

variable {ε α β : Type} {x : Except ε α} {b : β}

/-- Of two computations in a row the second one gives what both give, if the first one has succeeded. -/
theorem bind_eq_ok_iff {f : α → Except ε β} : (x >>= f) = .ok b ↔ ∃ a, x = .ok a ∧ f a = .ok b := by
  cases x <;> simp [bind, Except.bind]

/-- A result that is changed has a value exactly if it had one before. -/
theorem map_eq_ok_iff {f : α → β} : x.map f = .ok b ↔ ∃ a, x = .ok a ∧ f a = b := by
  cases x <;> simp [Except.map]

end Bind

/-! ## Looking up names that do not repeat -/

section Lookup

variable {α : Type} {fields fields' : List (String × α)}

/-- Where no name repeats, looking up a name gives the field that has it. -/
theorem lookup_eq_some_iff_mem (h : (fields.map Prod.fst).Nodup) {name : String} {field : α} :
    fields.lookup name = some field ↔ (name, field) ∈ fields := by
  induction fields with
  | nil => simp
  | cons head rest ih =>
    obtain ⟨key, value⟩ := head
    rw [List.map_cons, List.nodup_cons] at h
    by_cases hk : name = key
    · subst hk
      have hrest : (name, field) ∉ rest := fun hm => h.1 (List.mem_map.mpr ⟨_, hm, rfl⟩)
      simp [hrest, eq_comm]
    · have hb : (name == key) = false := beq_false_of_ne hk
      rw [List.lookup_cons, hb, List.mem_cons, ih h.2]
      simp [hk]

/-- Where no name repeats, the order of the fields does not matter to looking up a name. -/
theorem lookup_eq_of_perm (hperm : fields.Perm fields') (h : (fields.map Prod.fst).Nodup) (name : String) :
    fields.lookup name = fields'.lookup name := by
  have h' : (fields'.map Prod.fst).Nodup := (hperm.map Prod.fst).nodup_iff.mp h
  ext field
  rw [lookup_eq_some_iff_mem h, lookup_eq_some_iff_mem h', hperm.mem_iff]

/-- Fields of other names do not matter to looking up a name. -/
theorem lookup_filter {p : String → Bool} {name : String} (h : p name = true) (fields : List (String × α)) :
    (fields.filter fun field => p field.1).lookup name = fields.lookup name := by
  induction fields with
  | nil => rfl
  | cons field rest ih =>
    rw [List.filter_cons, List.lookup_cons]
    split
    case isTrue => rw [List.lookup_cons, ih]
    case isFalse hother =>
      have hne : (name == field.1) = false := beq_false_of_ne fun heq => hother (heq ▸ h)
      rw [hne, ih]

end Lookup

/-! ## The fields of an object -/

section Fields

variable {α : Type} {reader? : String → Option (Json → Except ShapeError α)} {members members' : List (String × Json)}
  {fields : List (String × α)} {seen : List String}

/-- A member is decoded before the others if it has a reader, and passed over if it has none. -/
theorem decodeFields_cons_eq_ok_iff {key : String} {value : Json} :
    decodeFields reader? seen ((key, value) :: members) = .ok fields ↔
      (reader? key = none ∧ decodeFields reader? seen members = .ok fields) ∨
        ∃ read field more, reader? key = some read ∧ key ∉ seen ∧ read value = .ok field ∧
          decodeFields reader? (key :: seen) members = .ok more ∧ fields = (key, field) :: more := by
  rw [decodeFields]
  cases reader? key with
  | none => simp
  | some read =>
    by_cases hseen : key ∈ seen
    · simp [hseen, bind, Except.bind, throw, throwThe, MonadExceptOf.throw]
    · simp [hseen, bind_eq_ok_iff, pure, Except.pure, eq_comm (a := fields)]

/-- What the members that have a reader are read as, each on its own. -/
def readings (reader? : String → Option (Json → Except ShapeError α)) (members : List (String × Json)) :
    List (String × Except ShapeError α) :=
  members.filterMap fun member => (reader? member.1).map fun read => (member.1, read member.2)

/-- A field that has been read. -/
def asRead (field : String × α) : String × Except ShapeError α := (field.1, .ok field.2)

/-- The fields of an object are decoded exactly if each of them can be read and none is given twice. -/
theorem decodeFields_eq_ok_iff :
    decodeFields reader? seen members = .ok fields ↔
      readings reader? members = fields.map asRead ∧ (fields.map Prod.fst).Nodup ∧
        ∀ name ∈ fields.map Prod.fst, name ∉ seen := by
  induction members generalizing seen fields with
  | nil => cases fields <;> simp [decodeFields, readings]
  | cons member rest ih =>
    obtain ⟨key, value⟩ := member
    rw [decodeFields_cons_eq_ok_iff, readings, List.filterMap_cons, ← readings]
    cases reader? key with
    | none => simp [ih]
    | some read =>
      constructor
      · rintro (⟨⟨⟩, -⟩ | ⟨_, field, more, ⟨⟩, hnew, hvalue, hmore, rfl⟩)
        obtain ⟨hmap, hnodup, hseen⟩ := ih.mp hmore
        refine ⟨?_, ?_, ?_⟩
        · simp [asRead, hvalue, hmap]
        · rw [List.map_cons, List.nodup_cons]
          exact ⟨fun hm => hseen key hm List.mem_cons_self, hnodup⟩
        · rw [List.map_cons, List.forall_mem_cons]
          exact ⟨hnew, fun name hm h => hseen name hm (List.mem_cons_of_mem key h)⟩
      · rintro ⟨hmap, hnodup, hseen⟩
        cases fields with
        | nil => cases hmap
        | cons field more =>
          rw [List.map_cons, List.nodup_cons] at hnodup
          rw [List.map_cons, List.forall_mem_cons] at hseen
          simp only [Option.map_some, List.map_cons, List.cons.injEq, asRead, Prod.mk.injEq] at hmap
          obtain ⟨⟨rfl, hvalue⟩, hmore⟩ := hmap
          refine Or.inr ⟨read, field.2, more, rfl, hseen.1, hvalue, ih.mpr ⟨hmore, hnodup.2, ?_⟩, rfl⟩
          intro name hm h
          rcases List.mem_cons.mp h with rfl | h
          · exact hnodup.1 hm
          · exact hseen.2 name hm h

/-- The names of the fields that are read, in the order of the members. -/
theorem names_readings (reader? : String → Option (Json → Except ShapeError α)) (members : List (String × Json)) :
    (readings reader? members).map Prod.fst = (members.map Prod.fst).filter fun name => (reader? name).isSome := by
  induction members with
  | nil => rfl
  | cons member rest ih =>
    rw [readings, List.filterMap_cons, ← readings, List.map_cons, List.filter_cons, ← ih]
    cases reader? member.1 <;> rfl

/-- An object can be decoded exactly if none of its fields is given twice and each of them can be read. -/
theorem exists_decodeFields_iff :
    (∃ fields, decodeFields reader? [] members = .ok fields) ↔
      ((members.map Prod.fst).filter fun name => (reader? name).isSome).Nodup ∧
        ∀ member ∈ members, ∀ read, reader? member.1 = some read → ∃ field, read member.2 = .ok field := by
  rw [← names_readings]
  constructor
  · rintro ⟨fields, h⟩
    obtain ⟨hmap, hnodup, -⟩ := decodeFields_eq_ok_iff.mp h
    refine ⟨?_, fun member hm read hread => ?_⟩
    · rw [hmap, List.map_map]
      exact hnodup
    · have hmem : (member.1, read member.2) ∈ readings reader? members :=
        List.mem_filterMap.mpr ⟨member, hm, by rw [hread]; rfl⟩
      rw [hmap] at hmem
      obtain ⟨field, -, hfield⟩ := List.mem_map.mp hmem
      exact ⟨field.2, (Prod.mk.inj hfield).2.symm⟩
  · rintro ⟨hnodup, hread⟩
    have hall : ∀ reading ∈ readings reader? members, reading ∈ Set.range asRead := by
      intro reading hreading
      obtain ⟨member, hm, hsome⟩ := List.mem_filterMap.mp hreading
      obtain ⟨read, hreader, rfl⟩ := Option.map_eq_some_iff.mp hsome
      obtain ⟨field, hfield⟩ := hread member hm read hreader
      exact ⟨(member.1, field), by rw [hfield]; rfl⟩
    obtain ⟨fields, hfields⟩ : readings reader? members ∈ Set.range (List.map asRead) := by
      rw [Set.range_list_map]
      exact hall
    refine ⟨fields, decodeFields_eq_ok_iff.mpr ⟨hfields.symm, ?_, fun _ _ => List.not_mem_nil⟩⟩
    rwa [← hfields, List.map_map] at hnodup

/-- A field is what the member of its name is read as. -/
theorem lookup_decodeFields (h : decodeFields reader? seen members = .ok fields) {name : String}
    {read : Json → Except ShapeError α} (hreader : reader? name = some read) :
    fields.lookup name = (members.lookup name).bind fun value => (read value).toOption := by
  induction members generalizing seen fields with
  | nil =>
    cases h
    rfl
  | cons member rest ih =>
    obtain ⟨key, value⟩ := member
    rw [List.lookup_cons]
    rcases decodeFields_cons_eq_ok_iff.mp h with ⟨hnone, hrest⟩ | ⟨read', field, more, hread, -, hvalue, hmore, rfl⟩
    · have hne : (name == key) = false := beq_false_of_ne fun heq => by
        rw [← heq, hreader] at hnone
        nomatch hnone
      rw [hne]
      exact ih hrest
    · rw [List.lookup_cons]
      cases hkey : name == key with
      | false => exact ih hmore
      | true =>
        obtain rfl := beq_iff_eq.mp hkey
        obtain rfl := Option.some.inj (hread.symm.trans hreader)
        show some field = (read' value).toOption
        rw [hvalue]
        rfl

/-- Every decoded field was read from a member of its name. -/
theorem read_of_lookup (h : decodeFields reader? seen members = .ok fields) {name : String} {field : α}
    (hlookup : fields.lookup name = some field) :
    ∃ value read, (name, value) ∈ members ∧ reader? name = some read ∧ read value = .ok field := by
  obtain ⟨hmap, hnodup, -⟩ := decodeFields_eq_ok_iff.mp h
  have hread : (name, Except.ok field) ∈ readings reader? members := by
    rw [hmap]
    exact List.mem_map_of_mem (f := asRead) ((lookup_eq_some_iff_mem hnodup).mp hlookup)
  obtain ⟨⟨key, value⟩, hmember, hkey⟩ := List.mem_filterMap.mp hread
  obtain ⟨read, hreader, hpair⟩ := Option.map_eq_some_iff.mp hkey
  obtain ⟨rfl, hvalue⟩ := Prod.mk.inj hpair
  exact ⟨value, read, hmember, hreader, hvalue⟩

/-- The order of the members only decides the order of the decoded fields. -/
theorem decodeFields_of_perm (hperm : members'.Perm members) (h : decodeFields reader? [] members = .ok fields) :
    ∃ fields', decodeFields reader? [] members' = .ok fields' ∧ ∀ name, fields'.lookup name = fields.lookup name := by
  obtain ⟨hmap, hnodup, -⟩ := decodeFields_eq_ok_iff.mp h
  have hread : (readings reader? members').Perm (fields.map asRead) := by
    rw [← hmap]
    exact hperm.filterMap _
  obtain ⟨fields', hmap', hfields⟩ : Relation.Comp (· = List.map asRead ·) List.Perm (readings reader? members') fields := by
    rw [List.eq_map_comp_perm]
    exact hread
  have hnodup' : (fields'.map Prod.fst).Nodup := (hfields.map Prod.fst).nodup_iff.mpr hnodup
  exact ⟨fields', decodeFields_eq_ok_iff.mpr ⟨hmap', hnodup', fun _ _ => List.not_mem_nil⟩,
    lookup_eq_of_perm hfields hnodup'⟩

end Fields

/-! ## The parts of a node -/

/-- Decodes a field of a given shape. -/
def decodePart (shape : Shape) (value : Json) : Except ShapeError Part :=
  match shape with
  | .node => (Node.ofJson value).map .node
  | .optionalNode => if value.isNull then .ok .absent else (Node.ofJson value).map .node
  | .nodes =>
    match value with
    | .array items => (decodeNodes items).map .nodes
    | value => .error (.wrongType value .sequence)
  | .declarators =>
    match value with
    | .array items => (decodeDeclarators items).map .declarators
    | value => .error (.wrongType value .sequence)
  | .scalar shape => decodeScalar shape value

/-- The readers of the fields of a schema. -/
def Schema.reader? (schema : Schema) (key : String) : Option (Json → Except ShapeError Part) :=
  (schema.lookup key).map decodePart

/-- The fields of a schema are decoded each by the reader of its shape. -/
theorem decodeParts_eq (schema : Schema) (seen : List String) (members : List (String × Json)) :
    decodeParts schema seen members = decodeFields schema.reader? seen members := by
  induction members generalizing seen with
  | nil => rw [decodeParts, decodeFields]
  | cons member rest ih =>
    obtain ⟨key, value⟩ := member
    rw [decodeParts.eq_2, decodeFields, Schema.reader?]
    cases hshape : schema.lookup key with
    | none => simp only [Option.map_none, ih]
    | some shape =>
      simp only [Option.map_some, ← ih]
      -- the decoder spells out the rest of its work after each shape
      congr 1
      cases shape with
      | optionalNode | nodes | declarators => cases value <;> rfl
      | node | scalar => rfl

/-- The fields that make up a literal are read as the schema of literals says. -/
theorem literalReader?_eq : literalReader? = Schema.literal.reader? := by
  funext key
  unfold literalReader? Schema.reader?
  cases hshape : Schema.literal.lookup key with
  | none => rfl
  | some shape =>
    obtain ⟨before, after, hsplit, -⟩ := List.lookup_eq_some_iff.mp hshape
    have hm : (key, shape) ∈ Schema.literal := by simp [hsplit]
    simp only [Schema.literal, List.mem_cons, Prod.mk.injEq, List.not_mem_nil, or_false] at hm
    rcases hm with ⟨-, rfl⟩ | ⟨-, rfl⟩ | ⟨-, rfl⟩ | ⟨-, rfl⟩ | ⟨-, rfl⟩ | ⟨-, rfl⟩ <;> rfl

namespace Parts

variable {parts parts' : Parts}

/-- What parts make up is decided by what their names are looked up to. -/
theorem assemble_congr (h : ∀ name, parts'.lookup name = parts.lookup name) (kind : NodeKind) :
    parts'.assemble kind = parts.assemble kind := by
  cases kind <;>
    simp only [assemble, declarator, node, node?, nodes, nodes?, declarators, text, text?, flag, operator, keyword, regex?,
      anything, h]

/-- The span of a node depends only on what its fields hold. -/
theorem span_congr (h : ∀ name, parts'.lookup name = parts.lookup name) : parts'.span = parts.span := by
  simp only [span, offset, h]

end Parts

/-! ## Objects that are nodes -/

/-- What is found as a type is a member of that name. -/
theorem eq_type_of_filter {members more : List (String × Json)} {key : String} {value : Json}
    (h : (members.filter fun member => member.1 = "type") = (key, value) :: more) : key = "type" := by
  have hm : (key, value) ∈ members.filter fun member => member.1 = "type" := by simp [h]
  exact of_decide_eq_true (List.mem_filter.mp hm).2

/-- An object has a type exactly if one of its members gives it and no other does. -/
theorem kindOf_eq_ok_iff {members : List (String × Json)} {kind? : Option NodeKind} :
    kindOf members = .ok kind? ↔
      ∃ value, (members.filter fun member => member.1 = "type") = [("type", value)] ∧ kindOfType value = .ok kind? := by
  unfold kindOf
  split
  · rename_i h
    simp [h]
  · rename_i key value more h
    obtain rfl := eq_type_of_filter h
    cases more with
    | nil => simp [h, bind_eq_ok_iff, pure, Except.pure]
    | cons _ _ => simp [h, bind_eq_ok_iff, throw, throwThe, MonadExceptOf.throw]

/-- An object can be the root of a document exactly if one of its members gives its type, as a text, and no other does. -/
theorem Document.isRoot_object_iff {members : List (String × Json)} :
    isRoot (.object members) = true ↔
      ∃ name, (members.filter fun member => member.1 = "type") = [("type", .string name)] := by
  simp only [isRoot]
  constructor
  · intro h
    split at h
    · rename_i key name hfilter
      obtain rfl := eq_type_of_filter hfilter
      exact ⟨name, hfilter⟩
    · cases h
  · rintro ⟨name, hfilter⟩
    rw [hfilter]

/-- Decodes the span of a node of some kind. A literal has its offsets among its parts. -/
def decodeSpanOf (kind : NodeKind) (parts : Parts) (members : List (String × Json)) : Except ShapeError Span :=
  if kind = .literal then .ok parts.span else decodeSpan members

/-- A node of a known kind is put together from its parts, and then gets its span. -/
theorem Node.ofJson_typed {members : List (String × Json)} {kind : NodeKind} (hkind : kindOf members = .ok (some kind)) :
    Node.ofJson (.object members) = do
      let parts ← decodeFields kind.schema.reader? [] members
      let build ← Parts.assemble parts kind
      let span ← decodeSpanOf kind parts members
      return build span := by
  rw [Node.ofJson.eq_1, hkind]
  cases kind with
  | literal =>
    show decodeLiteral members = _
    rw [decodeLiteral, literalReader?_eq]
    rfl
  | _ =>
    simp only [← decodeParts_eq]
    rfl

/-- An object makes up a node: one of an unknown type, or one whose parts are decoded and make up a node of its kind. -/
inductive Decodes (members : List (String × Json)) : Node → Prop where
  | unsupported (hkind : kindOf members = .ok none) : Decodes members .unsupported
  | typed {kind : NodeKind} {parts : Parts} {build : Span → Node} {span : Span} (hkind : kindOf members = .ok (some kind))
      (hparts : decodeFields kind.schema.reader? [] members = .ok parts) (hbuild : parts.assemble kind = .ok build)
      (hspan : decodeSpanOf kind parts members = .ok span) : Decodes members (build span)

/-- A node is decoded from an object exactly if the object can be told as one, field by field. -/
theorem Node.ofJson_object_eq_ok_iff {members : List (String × Json)} {node : Node} :
    Node.ofJson (.object members) = .ok node ↔ Decodes members node := by
  constructor
  · intro h
    have hobject := h
    rw [Node.ofJson.eq_1] at hobject
    obtain ⟨kind?, hkind, hrest⟩ := bind_eq_ok_iff.mp hobject
    cases kind? with
    | none =>
      cases hrest
      exact .unsupported hkind
    | some kind =>
      rw [Node.ofJson_typed hkind] at h
      obtain ⟨parts, hparts, h⟩ := bind_eq_ok_iff.mp h
      obtain ⟨build, hbuild, h⟩ := bind_eq_ok_iff.mp h
      obtain ⟨span, hspan, h⟩ := bind_eq_ok_iff.mp h
      cases h
      exact .typed hkind hparts hbuild hspan
  · intro h
    cases h with
    | unsupported hkind =>
      rw [Node.ofJson.eq_1, hkind]
      rfl
    | typed hkind hparts hbuild hspan =>
      rw [Node.ofJson_typed hkind]
      exact bind_eq_ok_iff.mpr ⟨_, hparts, bind_eq_ok_iff.mpr ⟨_, hbuild, bind_eq_ok_iff.mpr ⟨_, hspan, rfl⟩⟩⟩

/-- An object makes up a declarator: its parts are decoded and it has a target. -/
theorem Declarator.ofJson_object_eq_ok_iff {members : List (String × Json)} {d : Declarator} :
    Declarator.ofJson (.object members) = .ok d ↔
      ∃ parts build span, decodeFields Schema.declarator.reader? [] members = .ok parts ∧
        Parts.declarator parts = .ok build ∧ decodeSpan members = .ok span ∧ d = build span := by
  rw [Declarator.ofJson.eq_1, decodeParts_eq]
  constructor
  · intro h
    obtain ⟨parts, hparts, h⟩ := bind_eq_ok_iff.mp h
    obtain ⟨build, hbuild, h⟩ := bind_eq_ok_iff.mp h
    obtain ⟨span, hspan, h⟩ := bind_eq_ok_iff.mp h
    cases h
    exact ⟨parts, build, span, hparts, hbuild, hspan, rfl⟩
  · rintro ⟨parts, build, span, hparts, hbuild, hspan, rfl⟩
    exact bind_eq_ok_iff.mpr ⟨_, hparts, bind_eq_ok_iff.mpr ⟨_, hbuild, bind_eq_ok_iff.mpr ⟨_, hspan, rfl⟩⟩⟩

/-! ## One member in the place of another -/

section Replace

variable {α : Type} {reader? : String → Option (Json → Except ShapeError α)} {before after : List (String × Json)}
  {first last : List (String × α)} {fields : List (String × α)} {seen : List String} {key : String} {value value' : Json}

/-- What stands at another name does not matter to looking up a name. -/
theorem lookup_replace {name : String} (h : name ≠ key) (field field' : α) :
    (first ++ (key, field) :: last).lookup name = (first ++ (key, field') :: last).lookup name := by
  simp only [List.lookup_append, List.lookup_cons, beq_false_of_ne h]

/-- A member without a reader is passed over, wherever it stands. -/
theorem decodeFields_of_foreign (hforeign : reader? key = none) :
    decodeFields reader? seen (before ++ (key, value) :: after) = decodeFields reader? seen (before ++ after) := by
  induction before generalizing seen with
  | nil => simp only [List.nil_append, decodeFields, hforeign]
  | cons member rest ih => simp only [List.cons_append, decodeFields, ih]

/-- Any other value may stand in the place of a member's, as long as it can be read: the one
field that is read from it changes. -/
theorem decodeFields_of_member {read : Json → Except ShapeError α} (hread : reader? key = some read)
    (h : decodeFields reader? [] (before ++ (key, value) :: after) = .ok fields) :
    ∃ first field last, fields = first ++ (key, field) :: last ∧ read value = .ok field ∧
      ∀ value' field', read value' = .ok field' →
        decodeFields reader? [] (before ++ (key, value') :: after) = .ok (first ++ (key, field') :: last) := by
  have hsplit (value : Json) : readings reader? (before ++ (key, value) :: after) =
      readings reader? before ++ (key, read value) :: readings reader? after := by
    simp [readings, hread]
  obtain ⟨hmap, hnodup, -⟩ := decodeFields_eq_ok_iff.mp h
  rw [hsplit] at hmap
  obtain ⟨first, tail, rfl, hfirst, htail⟩ := List.map_eq_append_iff.mp hmap.symm
  obtain ⟨⟨name, field⟩, last, rfl, hfield, hlast⟩ := List.map_eq_cons_iff.mp htail
  obtain ⟨rfl, hvalue⟩ := Prod.mk.inj hfield
  refine ⟨first, field, last, rfl, hvalue.symm, ?_⟩
  intro value' field' hvalue'
  refine decodeFields_eq_ok_iff.mpr ⟨?_, ?_, fun _ _ => List.not_mem_nil⟩
  · rw [hsplit, hvalue', List.map_append, List.map_cons, hfirst, hlast]
    rfl
  · simpa using hnodup

/-- Where a value is read as the one before it is, the fields stay as they are. -/
theorem decodeFields_of_read
    (hread : ∀ read, reader? key = some read → ∀ field, read value = .ok field → read value' = .ok field)
    (h : decodeFields reader? [] (before ++ (key, value) :: after) = .ok fields) :
    decodeFields reader? [] (before ++ (key, value') :: after) = .ok fields := by
  cases hreader : reader? key with
  | none =>
    rw [decodeFields_of_foreign hreader] at h ⊢
    exact h
  | some read =>
    obtain ⟨first, field, last, rfl, hvalue, hreplace⟩ := decodeFields_of_member hreader h
    exact hreplace value' field (hread read hreader field hvalue)

end Replace

/-! ## The order of the members -/

section Perm

variable {members members' : List (String × Json)}

/-- The kind of a node does not depend on the order of the members. -/
theorem kindOf_of_perm (hperm : members'.Perm members) {kind? : Option NodeKind} (h : kindOf members = .ok kind?) :
    kindOf members' = .ok kind? := by
  obtain ⟨value, hfilter, hkind⟩ := kindOf_eq_ok_iff.mp h
  have hone := hperm.filter fun member => member.1 = "type"
  rw [hfilter, List.perm_singleton] at hone
  exact kindOf_eq_ok_iff.mpr ⟨value, hone, hkind⟩

/-- The span of a node does not depend on the order of the members. -/
theorem decodeSpan_of_perm (hperm : members'.Perm members) {span : Span} (h : decodeSpan members = .ok span) :
    decodeSpan members' = .ok span := by
  obtain ⟨offsets, hoffsets, hspan⟩ := bind_eq_ok_iff.mp h
  obtain ⟨offsets', hoffsets', hlookup⟩ := decodeFields_of_perm hperm hoffsets
  refine bind_eq_ok_iff.mpr ⟨offsets', hoffsets', ?_⟩
  rw [hlookup, hlookup]
  exact hspan

/-- An object with the members of a node in another order is the same node. -/
theorem Node.ofJson_of_perm (hperm : members'.Perm members) {node : Node} (h : Node.ofJson (.object members) = .ok node) :
    Node.ofJson (.object members') = .ok node := by
  rw [Node.ofJson_object_eq_ok_iff] at h ⊢
  cases h with
  | unsupported hkind => exact .unsupported (kindOf_of_perm hperm hkind)
  | @typed kind parts build span hkind hparts hbuild hspan =>
    obtain ⟨parts', hparts', hlookup⟩ := decodeFields_of_perm hperm hparts
    refine .typed (kindOf_of_perm hperm hkind) hparts' ((Parts.assemble_congr hlookup kind).trans hbuild) ?_
    unfold decodeSpanOf at hspan ⊢
    by_cases hk : kind = .literal
    · rw [if_pos hk] at hspan ⊢
      rwa [Parts.span_congr hlookup]
    · rw [if_neg hk] at hspan ⊢
      exact decodeSpan_of_perm hperm hspan

/-- An object with the members of a declarator in another order is the same declarator. -/
theorem Declarator.ofJson_of_perm (hperm : members'.Perm members) {d : Declarator}
    (h : Declarator.ofJson (.object members) = .ok d) : Declarator.ofJson (.object members') = .ok d := by
  rw [Declarator.ofJson_object_eq_ok_iff] at h ⊢
  obtain ⟨parts, build, span, hparts, hbuild, hspan, rfl⟩ := h
  obtain ⟨parts', hparts', hlookup⟩ := decodeFields_of_perm hperm hparts
  refine ⟨parts', build, span, hparts', ?_, decodeSpan_of_perm hperm hspan, rfl⟩
  rw [← hbuild]
  simp only [Parts.declarator, Parts.node, Parts.node?, hlookup]

/-- The members of a regular expression may stand in any order. -/
theorem decodeRegex_of_perm (hperm : members'.Perm members) {r : Regex} (h : decodeRegex (.object members) = .ok r) :
    decodeRegex (.object members') = .ok r := by
  obtain ⟨texts, htexts, hregex⟩ := bind_eq_ok_iff.mp h
  obtain ⟨texts', htexts', hlookup⟩ := decodeFields_of_perm hperm htexts
  refine bind_eq_ok_iff.mpr ⟨texts', htexts', ?_⟩
  simp only [hlookup]
  exact hregex

end Perm

end ScriptTree
