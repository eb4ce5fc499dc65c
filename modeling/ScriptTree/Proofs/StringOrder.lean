import ScriptTree.Proofs.Comparison
import ScriptTree.Proofs.Words

/-!
# The order of strings

Strings are totally ordered by their UTF-16 code units, and `===`, `+` and `length` go with that order: strings that are not
strictly equal are one below the other, a common beginning does not matter, and the units of a joined string are those of its
parts. Each of these is a fact about the encoding (`ScriptTree.Proofs.CodeUnits`) read off the operators.
-/

namespace ScriptTree

/-- The operator that tells whether two strings are in a given order. -/
def BinaryOperator.ofOrdering : Ordering → BinaryOperator
  | .lt => less
  | .eq => strictEqual
  | .gt => greater

open BinaryOperator

namespace Value

variable (s t : String)

/-! ## Comparing strings -/

/-- A comparison of strings decides how they are ordered by their code units. -/
theorem string_decides (ordering : Ordering) :
    (ofOrdering ordering).Decides (.string s) (.string t) (Text.compareUnits s t = ordering) := by
  have horder : (string s).order? (string t) = some (Text.compareUnits s t) := rfl
  cases ordering with
  | lt => exact (less_decides rfl rfl).congr (by rw [horder, Option.some_inj])
  | eq => exact decides_of_apply rfl (beq_iff_eq.trans Text.compareUnits_eq_iff.symm)
  | gt => exact (greater_decides rfl rfl).congr (by rw [horder, Option.some_inj])

/-- The operator `<` decides the lexicographic order of the units. -/
theorem less_string_decides :
    less.Decides (.string s) (.string t) (List.Lex (· < ·) (Text.units s) (Text.units t)) :=
  (string_decides s t .lt).congr Text.compare_eq_lt_iff_lex

/-- Two strings are in exactly one order. -/
theorem existsUnique_holds_string :
    ∃! operator, operator ∈ [less, strictEqual, greater] ∧ operator.Holds (.string s) (.string t) := by
  refine ⟨ofOrdering (Text.compareUnits s t), ⟨?_, (string_decides s t _).2.mpr rfl⟩, ?_⟩
  · cases Text.compareUnits s t <;> decide
  · rintro operator ⟨hmem, h⟩
    obtain ⟨ordering, rfl⟩ : ∃ ordering, operator = ofOrdering ordering := by
      simp only [List.mem_cons, List.not_mem_nil, or_false] at hmem
      rcases hmem with rfl | rfl | rfl
      · exact ⟨.lt, rfl⟩
      · exact ⟨.eq, rfl⟩
      · exact ⟨.gt, rfl⟩
    rw [(string_decides s t ordering).2.mp h]

variable {s t} in
theorem less_string_trans {u : String} (hst : less.Holds (.string s) (.string t)) (htu : less.Holds (.string t) (.string u)) :
    less.Holds (.string s) (.string u) := by
  rw [(less_string_decides _ _).2] at *
  exact List.lex_trans Nat.lt_trans hst htu

/-- A common beginning does not matter. -/
theorem holds_string_append_left (p : String) (ordering : Ordering) :
    (ofOrdering ordering).Holds (.string (p ++ s)) (.string (p ++ t)) ↔
      (ofOrdering ordering).Holds (.string s) (.string t) := by
  rw [(string_decides _ _ _).2, (string_decides _ _ _).2, Text.compareUnits_append_left]

/-- The order is not that of the code points: a private-use character and the first one beyond the basic plane. -/
theorem exists_less_string_against_code_points :
    ∃ s t : String, List.Lex (fun d e => d.toNat < e.toNat) s.toList t.toList ∧ less.Holds (.string t) (.string s) := by
  refine ⟨"" ++ String.ofList [Char.ofNat 0xE000], "" ++ String.ofList [Char.ofNat 0x10000], ?_,
    (string_decides _ _ .lt).2.mpr ?_⟩
  · exact .rel (by decide)
  · exact Text.compareUnits_eq_lt_of_beyond_plane (by decide) (by decide) (by decide) "" [] []

/-! ## Joining strings -/

/-- `+` joins two strings. -/
theorem apply_add_string : BinaryOperator.add.apply (.string s) (.string t) = .ok (.string (s ++ t)) := rfl

/-- The length of a string counts its units. -/
theorem property?_length : (Value.string s).property? "length" = some (.number (.ofNat (Text.unitLength s))) := rfl

end Value

open Value in
/-- Strings are totally ordered by their code units. `<` is the lexicographic order of the units, which is not that of the code
points; exactly one of `<`, `===` and `>` holds of two strings; `<` is transitive, and a common beginning does not matter to it;
and while the counts stay below `2 ^ 53`, the length of a joined string is the sum of the lengths of its parts. -/
theorem strings_ordered_by_units (a b c p : String) :
    less.Decides (.string a) (.string b) (List.Lex (· < ·) (Text.units a) (Text.units b)) ∧
    (∃ s t : String, List.Lex (fun d e => d.toNat < e.toNat) s.toList t.toList ∧ less.Holds (.string t) (.string s)) ∧
    (∃! operator, operator ∈ [less, strictEqual, greater] ∧ operator.Holds (.string a) (.string b)) ∧
    (less.Holds (.string a) (.string b) → less.Holds (.string b) (.string c) → less.Holds (.string a) (.string c)) ∧
    (∃ pa pb, add.apply (.string p) (.string a) = .ok pa ∧ add.apply (.string p) (.string b) = .ok pb ∧
      (less.Holds pa pb ↔ less.Holds (.string a) (.string b))) ∧
    (Text.unitLength a + Text.unitLength b < 2 ^ 53 →
      ∃ ab x y z, add.apply (.string a) (.string b) = .ok ab ∧
        (Value.string a).property? "length" = some (.number x) ∧ x.IsInteger (Text.unitLength a) ∧
        (Value.string b).property? "length" = some (.number y) ∧ y.IsInteger (Text.unitLength b) ∧
        ab.property? "length" = some (.number z) ∧ z.IsInteger (Text.unitLength a + Text.unitLength b) ∧
        add.apply (.number x) (.number y) = .ok (.number z)) := by
  refine ⟨less_string_decides a b, exists_less_string_against_code_points, existsUnique_holds_string a b,
    less_string_trans, ?_, ?_⟩
  · exact ⟨_, _, apply_add_string p a, apply_add_string p b, holds_string_append_left a b p .lt⟩
  · intro hlength
    refine ⟨_, _, _, _, apply_add_string a b, property?_length a, Double.ofNat_isInteger (by omega), property?_length b,
      Double.ofNat_isInteger (by omega), property?_length (a ++ b), ?_, ?_⟩
    · rw [Text.unitLength_append, ← Nat.cast_add]
      exact Double.ofNat_isInteger hlength
    · rw [Text.unitLength_append, ← Double.add_ofNat hlength]
      rfl

/-- A letter, a character beyond the basic plane and one of the last of that plane: they are in this order, and the first two
have three code units together. -/
theorem astral_string_between :
    (less.Holds (.string "z") (.string "😀") ∧ less.Holds (.string "😀") (.string "\uFFFD") ∧
      less.Holds (.string "z") (.string "\uFFFD")) ∧
    Text.unitLength "z" + Text.unitLength "😀" < 2 ^ 53 ∧
    ∃ z, (Value.string ("z" ++ "😀")).property? "length" = some (.number z) ∧ z.IsInteger 3 := by
  obtain ⟨-, -, -, htrans, -, hlength⟩ := strings_ordered_by_units "z" "😀" "\uFFFD" ""
  have hfirst : less.Holds (.string "z") (.string "😀") := by rfl
  have hsecond : less.Holds (.string "😀") (.string "\uFFFD") := by rfl
  have hbelow : Text.unitLength "z" + Text.unitLength "😀" < 2 ^ 53 := by decide
  obtain ⟨joined, x, y, z, hjoined, -, -, -, -, hz, hinteger, -⟩ := hlength hbelow
  obtain ⟨⟩ := hjoined
  exact ⟨⟨hfirst, hsecond, htrans hfirst hsecond⟩, hbelow, z, hz, hinteger⟩

end ScriptTree
