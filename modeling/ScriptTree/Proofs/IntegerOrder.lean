import ScriptTree.Proofs.Comparison
import ScriptTree.Proofs.IntegerTexts

/-!
# BigInts beside integer texts

A text that meets a BigInt in a comparison is read as a BigInt itself. So a text that denotes an integer of the BigInt range
is compared as that integer, and one that denotes a larger integer is compared as a text that denotes none: it is neither
less than, nor equal to, nor greater than any BigInt. `bigint_beside_text` says for which texts and which BigInts a
comparison tells the truth about the integers.
-/

namespace ScriptTree

/-- The comparisons that a script can ask for. -/
inductive Comparison where
  | equal | less | lessEqual | greater | greaterEqual
  deriving DecidableEq

namespace Comparison

/-- The operator that asks for a comparison. -/
def operator : Comparison → BinaryOperator
  | equal => .looseEqual
  | less => .less
  | lessEqual => .lessEqual
  | greater => .greater
  | greaterEqual => .greaterEqual

/-- What a comparison says about two integers. -/
def Relates : Comparison → Int → Int → Prop
  | equal, a, b => a = b
  | less, a, b => a < b
  | lessEqual, a, b => a ≤ b
  | greater, a, b => b < a
  | greaterEqual, a, b => b ≤ a

instance (c : Comparison) (a b : Int) : Decidable (c.Relates a b) := by
  cases c <;> unfold Relates <;> infer_instance

/-- The orders of two values that a comparison holds for. -/
def orders : Comparison → List Ordering
  | equal => [.eq]
  | less => [.lt]
  | lessEqual => [.lt, .eq]
  | greater => [.gt]
  | greaterEqual => [.gt, .eq]

/-- A comparison is true of two integers exactly if their order is one of those that it holds for. -/
theorem compare_mem_orders (c : Comparison) (a b : Int) : compare a b ∈ c.orders ↔ c.Relates a b := by
  cases c with
  | equal => simp [orders, Relates]
  | less => simp [orders, Relates, Int.compare_eq_lt]
  | greater => simp [orders, Relates, Int.compare_eq_gt]
  | lessEqual =>
    simp only [orders, Relates, List.mem_cons, List.not_mem_nil, or_false, Int.compare_eq_lt,
      Std.LawfulEqOrd.compare_eq_iff_eq]
    omega
  | greaterEqual =>
    simp only [orders, Relates, List.mem_cons, List.not_mem_nil, or_false, Int.compare_eq_gt,
      Std.LawfulEqOrd.compare_eq_iff_eq]
    omega

/-- A comparison decides whether the order of two values is one that it holds for. -/
theorem decides {left right : Value} (c : Comparison) (hl : left.isConvertible = true) (hr : right.isConvertible = true) :
    c.operator.Decides left right (∃ o ∈ c.orders, left.order? right = some o) := by
  have hlo := Value.isObjectLike_of_isConvertible hl
  have hro := Value.isObjectLike_of_isConvertible hr
  cases c with
  | equal => exact (Value.looseEqual_decides hl hr).congr (by simp [orders])
  | less => exact (Value.less_decides hlo hro).congr (by simp [orders])
  | lessEqual => exact (Value.lessEqual_decides hlo hro).congr (by simp [orders])
  | greater => exact (Value.greater_decides hlo hro).congr (by simp [orders])
  | greaterEqual => exact (Value.greaterEqual_decides hlo hro).congr (by simp [orders])

end Comparison

/-- An integer of the BigInt range. -/
def InRange (v : Int) : Prop := -bigIntBound ≤ v ∧ v < bigIntBound

instance (v : Int) : Decidable (InRange v) := inferInstanceAs (Decidable (_ ∧ _))

/-- The BigInts that a text is read as are the integers of the range that it denotes. -/
theorem exists_ofText?_iff {s : String} {p : Int → Prop} :
    (∃ a, BigInt.ofText? s = some a ∧ p a.val) ↔ ∃ v, IntegerText (Text.trim s.toList) v ∧ InRange v ∧ p v := by
  simp only [BigInt.ofText?_eq_some_iff]
  constructor
  · rintro ⟨a, ha, hp⟩
    exact ⟨a.val, ha, ⟨a.lower, a.upper⟩, hp⟩
  · rintro ⟨v, hv, hrange, hp⟩
    exact ⟨⟨v, hrange.1, hrange.2⟩, hv, hp⟩

namespace Comparison

/-- A BigInt is compared with the integer of the range that a text denotes, if it denotes one. -/
theorem decides_bigint_text (c : Comparison) (b : BigInt) (s : String) :
    c.operator.Decides (.bigint b) (.string s)
      (∃ v, IntegerText (Text.trim s.toList) v ∧ InRange v ∧ c.Relates b.val v) := by
  refine (c.decides rfl rfl).congr ?_
  rw [← exists_ofText?_iff]
  simp only [Value.order?, Option.map_eq_some_iff, ← compare_mem_orders]
  constructor
  · rintro ⟨_, ho, a, ha, rfl⟩
    exact ⟨a, ha, ho⟩
  · rintro ⟨a, ha, ho⟩
    exact ⟨_, ho, a, ha, rfl⟩

theorem decides_text_bigint (c : Comparison) (s : String) (b : BigInt) :
    c.operator.Decides (.string s) (.bigint b)
      (∃ v, IntegerText (Text.trim s.toList) v ∧ InRange v ∧ c.Relates v b.val) := by
  refine (c.decides rfl rfl).congr ?_
  rw [← exists_ofText?_iff (p := fun v => c.Relates v b.val)]
  simp only [Value.order?, Option.map_eq_some_iff, ← compare_mem_orders]
  constructor
  · rintro ⟨_, ho, a, ha, rfl⟩
    exact ⟨a, ha, ho⟩
  · rintro ⟨a, ha, ho⟩
    exact ⟨_, ho, a, ha, rfl⟩

/-- Beside a text that denotes an integer, a comparison with a BigInt holds if it is true and the integer is in range. -/
theorem holds_bigint_text (c : Comparison) {b : BigInt} {s : String} {v : Int} (hv : IntegerText (Text.trim s.toList) v) :
    c.operator.Holds (.bigint b) (.string s) ↔ InRange v ∧ c.Relates b.val v := by
  rw [(c.decides_bigint_text b s).2]
  constructor
  · rintro ⟨w, hw, h⟩
    rwa [hv.unique hw]
  · intro h
    exact ⟨v, hv, h⟩

theorem holds_text_bigint (c : Comparison) {b : BigInt} {s : String} {v : Int} (hv : IntegerText (Text.trim s.toList) v) :
    c.operator.Holds (.string s) (.bigint b) ↔ InRange v ∧ c.Relates v b.val := by
  rw [(c.decides_text_bigint s b).2]
  constructor
  · rintro ⟨w, hw, h⟩
    rwa [hv.unique hw]
  · intro h
    exact ⟨v, hv, h⟩

/-- The three comparisons of which two integers satisfy exactly one. -/
def exclusive : List Comparison := [less, equal, greater]

/-- One of the three is true of any two integers. -/
theorem exists_exclusive (a b : Int) : ∃ c ∈ exclusive, c.Relates a b := by
  rcases Int.lt_trichotomy a b with h | h | h
  · exact ⟨less, by decide, h⟩
  · exact ⟨equal, by decide, h⟩
  · exact ⟨greater, by decide, h⟩

/-- No two of the three are true of the same two integers. -/
theorem eq_of_exclusive {c c' : Comparison} {a b : Int} (hc : c ∈ exclusive) (hc' : c' ∈ exclusive) (h : c.Relates a b)
    (h' : c'.Relates a b) : c = c' := by
  simp only [exclusive, List.mem_cons, List.not_mem_nil, or_false] at hc hc'
  rcases hc with rfl | rfl | rfl <;> rcases hc' with rfl | rfl | rfl <;> simp only [Relates] at h h' <;>
    first | rfl | omega

/-- Exactly one of the three holds of a BigInt and a text if the text denotes an integer of the range, and else none. -/
theorem existsUnique_holds_iff (b : BigInt) (s : String) :
    (∃! c, c ∈ exclusive ∧ c.operator.Holds (.bigint b) (.string s)) ↔
      ∃ v, IntegerText (Text.trim s.toList) v ∧ InRange v := by
  constructor
  · rintro ⟨c, ⟨-, h⟩, -⟩
    obtain ⟨v, hv, hrange, -⟩ := (c.decides_bigint_text b s).2.mp h
    exact ⟨v, hv, hrange⟩
  · rintro ⟨v, hv, hrange⟩
    obtain ⟨c, hc, h⟩ := exists_exclusive b.val v
    refine ⟨c, ⟨hc, (c.holds_bigint_text hv).mpr ⟨hrange, h⟩⟩, ?_⟩
    rintro c' ⟨hc', h'⟩
    exact eq_of_exclusive hc' hc ((c'.holds_bigint_text hv).mp h').2 h

end Comparison

open Comparison in
/-- A comparison of a BigInt with a text, in either order of the two, has an answer: whether it is true of the BigInt and an
integer of the BigInt range that the text denotes. So beside a text that denotes an integer it tells the truth about the
integers exactly if that one is in range or the comparison is false of it; exactly one of less, equal and greater holds
beside an integer of the range; and beside any other text none of the five does. -/
theorem bigint_beside_text (b : BigInt) (s : String) :
    let text := Text.trim s.toList
    (∀ c : Comparison,
      c.operator.Decides (.bigint b) (.string s) (∃ v, IntegerText text v ∧ InRange v ∧ c.Relates b.val v) ∧
      c.operator.Decides (.string s) (.bigint b) (∃ v, IntegerText text v ∧ InRange v ∧ c.Relates v b.val)) ∧
    (∀ c : Comparison, ∀ v, IntegerText text v →
      ((c.operator.Holds (.bigint b) (.string s) ↔ c.Relates b.val v) ↔ InRange v ∨ ¬c.Relates b.val v) ∧
      ((c.operator.Holds (.string s) (.bigint b) ↔ c.Relates v b.val) ↔ InRange v ∨ ¬c.Relates v b.val)) ∧
    ((∃! c, c ∈ exclusive ∧ c.operator.Holds (.bigint b) (.string s)) ↔ ∃ v, IntegerText text v ∧ InRange v) ∧
    ((¬∃ v, IntegerText text v ∧ InRange v) → ∀ c : Comparison,
      c.operator.apply (.bigint b) (.string s) = .ok (.boolean false) ∧
      c.operator.apply (.string s) (.bigint b) = .ok (.boolean false)) := by
  intro text
  refine ⟨fun c => ⟨c.decides_bigint_text b s, c.decides_text_bigint s b⟩, ?_, existsUnique_holds_iff b s, ?_⟩
  · intro c v hv
    rw [c.holds_bigint_text hv, c.holds_text_bigint hv]
    constructor <;> tauto
  · intro hnone c
    refine ⟨(c.decides_bigint_text b s).apply_eq_false ?_, (c.decides_text_bigint s b).apply_eq_false ?_⟩ <;>
    · rintro ⟨v, hv, hrange, -⟩
      exact hnone ⟨v, hv, hrange⟩

/-- The last integer of the range is greater than zero beside its text too; the integer after it is not. -/
theorem zero_beside_bounds :
    let zero : BigInt := ⟨0, by decide, by decide⟩
    let last := " 0x7FFFFFFFFFFFFFFFFFFFFFFFFFFFFFFF\n"
    let beyond := "+170141183460469231731687303715884105728"
    (BinaryOperator.less.Holds (.bigint zero) (.string last) ∧ BinaryOperator.greater.Holds (.string last) (.bigint zero)) ∧
      ¬BinaryOperator.less.Holds (.bigint zero) (.string beyond) := by
  intro zero last beyond
  have hlast : IntegerText (Text.trim last.toList) (bigIntBound - 1) :=
    BigInt.integerOfNumeral?_eq_some_iff.mp (by decide +kernel)
  have hbeyond : IntegerText (Text.trim beyond.toList) bigIntBound :=
    BigInt.integerOfNumeral?_eq_some_iff.mp (by decide +kernel)
  obtain ⟨-, htrue, -, -⟩ := bigint_beside_text zero last
  obtain ⟨-, hfalse, -, -⟩ := bigint_beside_text zero beyond
  have hless : InRange (bigIntBound - 1) ∧ Comparison.less.Relates zero.val (bigIntBound - 1) := by decide
  have hmore : Comparison.greater.Relates (bigIntBound - 1) zero.val := by decide
  have hout : ¬(InRange bigIntBound ∨ ¬Comparison.less.Relates zero.val bigIntBound) := by decide
  refine ⟨⟨((htrue .less _ hlast).1.mpr (.inl hless.1)).mpr hless.2,
    ((htrue .greater _ hlast).2.mpr (.inl hless.1)).mpr hmore⟩, ?_⟩
  intro h
  exact hout ((hfalse .less _ hbeyond).1.mp (iff_of_true h (by decide)))

/-- Zero is less than the first integer above the range, but none of the five comparisons holds of it and that one's text. -/
theorem zero_unordered_beside_text_beyond_range :
    let zero : BigInt := ⟨0, by decide, by decide⟩
    let beyond := "170141183460469231731687303715884105728"
    IntegerText (Text.trim beyond.toList) bigIntBound ∧ Comparison.less.Relates zero.val bigIntBound ∧
      ∀ c : Comparison, c.operator.apply (.bigint zero) (.string beyond) = .ok (.boolean false) := by
  intro zero beyond
  have hbeyond : IntegerText (Text.trim beyond.toList) bigIntBound :=
    BigInt.integerOfNumeral?_eq_some_iff.mp (by decide +kernel)
  refine ⟨hbeyond, by decide, ?_⟩
  intro c
  refine (c.decides_bigint_text zero beyond).apply_eq_false ?_
  rintro ⟨v, hv, hrange, -⟩
  rw [hv.unique hbeyond] at hrange
  exact absurd hrange (by decide)

end ScriptTree
