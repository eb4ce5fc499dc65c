import Mathlib.Data.List.Nodup
import ScriptTree.Proofs.Decoding

/-!
# The objects of literals

A literal may be given by any of four fields. An object in which each of them can be read is the literal that these fields
stand for (`LiteralObject.ofJson`), wherever they stand among the members and whatever else the object holds.
-/

namespace ScriptTree

/-- The fields that make up the value of a literal. -/
def valueFields : List String := ["value", "raw", "regex", "bigint"]

/-- An object is a literal with a span and with fields that can be read: none of them is given twice, texts are texts or null,
and a regular expression is one or null. The value may be anything. -/
structure LiteralObject (members : List (String × Json)) (span : Span) : Prop where
  kind : kindOf members = .ok (some .literal)
  offsets : decodeSpan members = .ok span
  once : ((members.map Prod.fst).filter (· ∈ valueFields)).Nodup
  raw : ∀ value, ("raw", value) ∈ members → value = .null ∨ ∃ text, value = .string text
  regex : ∀ value, ("regex", value) ∈ members → value = .null ∨ ∃ r, decodeRegex value = .ok r
  bigint : ∀ value, ("bigint", value) ∈ members → value = .null ∨ ∃ text, value = .string text

/-- What the fields of a literal hold. Null is as good as an absent field. -/
def LiteralFields.ofMembers (members : List (String × Json)) : LiteralFields where
  value := (members.lookup "value").getD .null
  raw := (members.lookup "raw").bind fun value => (decodeText value).toOption
  regex := (members.lookup "regex").bind fun value => (decodeRegex value).toOption
  bigint := (members.lookup "bigint").bind fun value => (decodeText value).toOption

section Literal

variable {members : List (String × Json)} {span : Span} {parts : Parts} {name : String}

/-- The fields of a literal are the offsets of its span and those that make up its value. -/
theorem isSome_reader?_iff (key : String) :
    (Schema.literal.reader? key).isSome = true ↔ key ∈ ["start", "end"] ∨ key ∈ valueFields := by
  rw [Schema.reader?, Option.isSome_map, List.lookup_isSome_iff]
  simp [Schema.literal, valueFields, or_assoc]

/-! ## What the parts of a literal are -/

/-- A text among the parts of a literal is that of its member. -/
theorem text?_of_literal (h : decodeFields Schema.literal.reader? [] members = .ok parts)
    (hname : Schema.literal.reader? name = some (decodePart (.scalar .optionalText))) :
    parts.text? name = (members.lookup name).bind fun value => (decodeText value).toOption := by
  rw [Parts.text?, lookup_decodeFields h hname]
  cases members.lookup name with
  | none => rfl
  | some value => cases value <;> rfl

/-- The regular expression among the parts of a literal is that of its member. -/
theorem regex?_of_literal (h : decodeFields Schema.literal.reader? [] members = .ok parts) :
    parts.regex? "regex" = (members.lookup "regex").bind fun value => (decodeRegex value).toOption := by
  rw [Parts.regex?, lookup_decodeFields h rfl]
  cases members.lookup "regex" with
  | none => rfl
  | some value =>
    cases hnull : value.isNull with
    | true =>
      cases value <;> first | rfl | cases hnull
    | false =>
      simp only [Option.bind_some, decodePart, decodeScalar, hnull, Bool.false_eq_true, if_false]
      cases decodeRegex value <;> rfl

/-- The value among the parts of a literal is that of its member, or null if there is none. -/
theorem anything_of_literal (h : decodeFields Schema.literal.reader? [] members = .ok parts) :
    parts.anything "value" = (members.lookup "value").getD .null := by
  rw [Parts.anything, lookup_decodeFields h rfl]
  cases members.lookup "value" <;> rfl

/-- The offsets of a span are read from a literal as they are from any node. -/
theorem span_of_literal (h : decodeFields Schema.literal.reader? [] members = .ok parts)
    (hspan : decodeSpan members = .ok span) : parts.span = span := by
  obtain ⟨offsets, hoffsets, hspan⟩ := bind_eq_ok_iff.mp hspan
  have hoffset {name : String} (hname : Schema.literal.reader? name = some (decodePart (.scalar .offset)))
      (hoffset : name ∈ ["start", "end"]) : parts.offset name = (offsets.lookup name).getD 0 := by
    rw [Parts.offset, lookup_decodeFields h hname, lookup_decodeFields hoffsets (if_pos hoffset)]
    cases members.lookup name with
    | none => rfl
    | some value =>
      simp only [Option.bind_some, decodePart, decodeScalar]
      cases decodeOffset value <;> rfl
  rw [Parts.span, hoffset rfl (by decide), hoffset rfl (by decide)]
  exact Except.ok.inj hspan

/-! ## The literal of an object -/

/-- A text or null can be read where a text may be absent. -/
theorem exists_optionalText {value : Json} (h : value = .null ∨ ∃ text, value = .string text) :
    ∃ part, decodePart (.scalar .optionalText) value = .ok part := by
  rcases h with rfl | ⟨text, rfl⟩
  · exact ⟨.absent, rfl⟩
  · exact ⟨.text text, rfl⟩

/-- A regular expression or null can be read where one may be absent. -/
theorem exists_optionalRegex {value : Json} (h : value = .null ∨ ∃ r, decodeRegex value = .ok r) :
    ∃ part, decodePart (.scalar .optionalRegex) value = .ok part := by
  rcases h with rfl | ⟨r, hr⟩
  · exact ⟨.absent, rfl⟩
  · have hpart : (decodeRegex value).map Part.regex = .ok (.regex r) := by
      rw [hr]
      rfl
    cases value with
    | null => exact ⟨.absent, rfl⟩
    | _ => exact ⟨.regex r, hpart⟩

/-- The names of one sort do not repeat exactly if none of them occurs more than once. -/
theorem nodup_filter_iff {names : List String} {p : String → Bool} :
    (names.filter p).Nodup ↔ ∀ name, p name = true → names.count name ≤ 1 := by
  rw [List.nodup_iff_count_le_one]
  constructor
  · intro h name hname
    rw [← List.count_filter hname]
    exact h name
  · intro h name
    by_cases hname : p name = true
    · rw [List.count_filter hname]
      exact h name hname
    · have hnot : name ∉ names.filter p := fun hm => hname (List.mem_filter.mp hm).2
      rw [List.count_eq_zero.mpr hnot]
      exact Nat.zero_le 1

namespace LiteralObject

/-- None of the fields of a literal is given twice, and each of them can be read. -/
theorem exists_parts (h : LiteralObject members span) :
    ∃ parts : Parts, decodeFields Schema.literal.reader? [] members = .ok parts := by
  obtain ⟨offsets, hoffsets, -⟩ := bind_eq_ok_iff.mp h.offsets
  obtain ⟨honce, hread⟩ := exists_decodeFields_iff.mp ⟨offsets, hoffsets⟩
  refine exists_decodeFields_iff.mpr ⟨?_, ?_⟩
  · refine nodup_filter_iff.mpr fun name hname => ?_
    rcases (isSome_reader?_iff name).mp hname with hoffset | hvalue
    · exact nodup_filter_iff.mp honce name (by rw [if_pos hoffset]; rfl)
    · exact nodup_filter_iff.mp h.once name (decide_eq_true hvalue)
  · rintro ⟨key, value⟩ hm read hreader
    have hoffset (hoffset : ∃ offset, decodeOffset value = .ok offset) :
        ∃ part, decodePart (.scalar .offset) value = .ok part := by
      obtain ⟨offset, hoffset⟩ := hoffset
      exact ⟨.offset offset, congrArg (Except.map Part.offset) hoffset⟩
    have hkey := (isSome_reader?_iff key).mp (by rw [hreader]; rfl)
    simp only [valueFields, List.mem_cons, List.not_mem_nil, or_false] at hkey
    rcases hkey with (rfl | rfl) | rfl | rfl | rfl | rfl <;> cases hreader
    · exact hoffset (hread _ hm _ rfl)
    · exact hoffset (hread _ hm _ rfl)
    · exact ⟨.anything value, rfl⟩
    · exact exists_optionalText (h.raw value hm)
    · exact exists_optionalRegex (h.regex value hm)
    · exact exists_optionalText (h.bigint value hm)

/-- Such an object is the literal that its fields stand for. -/
theorem ofJson (h : LiteralObject members span) :
    Node.ofJson (.object members) = (LiteralFields.ofMembers members).literal.map fun value => .literal span value := by
  obtain ⟨parts, hparts⟩ := h.exists_parts
  have hspan : decodeSpanOf .literal parts members = .ok span := by
    rw [decodeSpanOf, if_pos rfl, span_of_literal hparts h.offsets]
  have hassemble : parts.assemble .literal =
      (LiteralFields.ofMembers members).literal.map fun value span => .literal span value := by
    rw [Parts.assemble, anything_of_literal hparts, text?_of_literal hparts rfl, regex?_of_literal hparts,
      text?_of_literal hparts rfl]
    rfl
  rw [Node.ofJson_typed h.kind]
  show (decodeFields Schema.literal.reader? [] members >>= _) = _
  rw [hparts]
  show (parts.assemble .literal >>= fun build => decodeSpanOf .literal parts members >>= _) = _
  rw [hassemble, hspan]
  cases (LiteralFields.ofMembers members).literal <;> rfl

end LiteralObject

end Literal

end ScriptTree
