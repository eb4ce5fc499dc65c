import ScriptTree.Text.Units

/-!
# Code units determine a text

The UTF-16 encoding is a code without ambiguity: a unit that stands for itself is never one of a pair, so the first units
of an encoded text tell its first character (`unitsOfChar_append_inj`). Two texts with the same units are the same
text (`units_injective`), so the order by units calls no two different texts equal.

The order by units is not that of the code points. It puts the characters beyond the basic plane where the surrogates are,
before the last ones of that plane: the place of a character in it is its `unitRank` (`compareUnits_eq`).
-/

namespace ScriptTree.Text

/-- A character is not a surrogate, and lies within the seventeen planes. -/
theorem toNat_valid (c : Char) : c.toNat < 0xD800 ∨ 0xDFFF < c.toNat ∧ c.toNat < 0x110000 := c.valid

/-- A character of the basic plane is one unit. -/
theorem unitsOfChar_of_lt {c : Char} (h : c.toNat < 0x10000) : unitsOfChar c = [c.toNat] := if_pos h

/-- A character beyond it is a pair of surrogates. -/
theorem unitsOfChar_of_le {c : Char} (h : 0x10000 ≤ c.toNat) :
    unitsOfChar c = [0xD800 + (c.toNat - 0x10000) / 0x400, 0xDC00 + (c.toNat - 0x10000) % 0x400] :=
  if_neg (Nat.not_lt.mpr h)

theorem unitsOfChar_ne_nil (c : Char) : unitsOfChar c ≠ [] := by
  rcases Nat.lt_or_ge c.toNat 0x10000 with h | h
  · simp [unitsOfChar_of_lt h]
  · simp [unitsOfChar_of_le h]

/-- The first character of an encoded text and the units of the rest can be told from its units. -/
theorem unitsOfChar_append_inj {c d : Char} {s t : List Nat} (h : unitsOfChar c ++ s = unitsOfChar d ++ t) :
    c = d ∧ s = t := by
  have hc := toNat_valid c
  have hd := toNat_valid d
  rcases Nat.lt_or_ge c.toNat 0x10000 with hcs | hcs <;> rcases Nat.lt_or_ge d.toNat 0x10000 with hds | hds
  · rw [unitsOfChar_of_lt hcs, unitsOfChar_of_lt hds] at h
    obtain ⟨hcode, hrest⟩ := List.cons_eq_cons.mp h
    exact ⟨Char.toNat_inj.mp hcode, hrest⟩
  -- a unit of the basic plane is no surrogate, so it is not the first one of a pair
  · rw [unitsOfChar_of_lt hcs, unitsOfChar_of_le hds] at h
    obtain ⟨hfirst, -⟩ := List.cons_eq_cons.mp h
    omega
  · rw [unitsOfChar_of_le hcs, unitsOfChar_of_lt hds] at h
    obtain ⟨hfirst, -⟩ := List.cons_eq_cons.mp h
    omega
  · rw [unitsOfChar_of_le hcs, unitsOfChar_of_le hds] at h
    obtain ⟨hhigh, h⟩ := List.cons_eq_cons.mp h
    obtain ⟨hlow, hrest⟩ := List.cons_eq_cons.mp h
    exact ⟨Char.toNat_inj.mp (by omega), hrest⟩

/-- The units of characters in a row determine the characters. -/
theorem flatMap_unitsOfChar_inj {cs ds : List Char} (h : cs.flatMap unitsOfChar = ds.flatMap unitsOfChar) : cs = ds := by
  induction cs generalizing ds with
  | nil =>
    cases ds with
    | nil => rfl
    | cons d ds => simp [unitsOfChar_ne_nil] at h
  | cons c cs ih =>
    cases ds with
    | nil => simp [unitsOfChar_ne_nil] at h
    | cons d ds =>
      obtain ⟨rfl, hrest⟩ := unitsOfChar_append_inj h
      rw [ih hrest]

/-- Two texts with the same code units are the same text. -/
theorem units_injective {s t : String} (h : units s = units t) : s = t :=
  String.toList_injective (flatMap_unitsOfChar_inj h)

/-- The order by code units calls no two different texts equal. -/
theorem compareUnits_eq_iff {s t : String} : compareUnits s t = .eq ↔ s = t := by
  unfold compareUnits
  rw [Std.LawfulEqOrd.compare_eq_iff_eq]
  exact ⟨units_injective, congrArg units⟩

/-! ## Appended texts -/

/-- The units of an appended text are appended. -/
theorem units_append (s t : String) : units (s ++ t) = units s ++ units t := by
  unfold units
  rw [String.toList_append, List.flatMap_append]

theorem unitLength_append (s t : String) : unitLength (s ++ t) = unitLength s + unitLength t := by
  unfold unitLength
  rw [units_append, List.length_append]

/-! ## The order by code units -/

/-- The order of two lists is lexicographic. -/
theorem compare_eq_lt_iff_lex {us vs : List Nat} : compare us vs = .lt ↔ List.Lex (· < ·) us vs := by
  induction us generalizing vs with
  | nil => cases vs <;> simp
  | cons u us ih =>
    cases vs with
    | nil => simp
    | cons v vs =>
      rw [List.compare_cons_cons, List.cons_lex_cons_iff, Ordering.then_eq_lt, Nat.compare_eq_lt, Nat.compare_eq_eq, ih]

/-- What two lists begin with in common does not matter to their order. -/
theorem compare_append_left (us vs ws : List Nat) : compare (us ++ vs) (us ++ ws) = compare vs ws := by
  induction us with
  | nil => rfl
  | cons u us ih =>
    rw [List.cons_append, List.cons_append, List.compare_cons_cons, Nat.compare_eq_eq.mpr rfl, Ordering.eq_then, ih]

/-- A common beginning does not matter to the order by units. -/
theorem compareUnits_append_left (p s t : String) : compareUnits (p ++ s) (p ++ t) = compareUnits s t := by
  unfold compareUnits
  rw [units_append, units_append, compare_append_left]

/-- The place of a character in the order by code units: up to the surrogates its code point, then come the characters beyond
the basic plane, and then the rest of that plane. -/
def unitRank (c : Char) : Nat :=
  if c.toNat < 0xE000 then c.toNat
  else if c.toNat < 0x10000 then c.toNat + 0x100000
  else c.toNat - 0x2000

/-- The rank of a character by its plane: surrogate pairs come between the characters before the
surrogates and those behind them. -/
theorem unitRank_cases (c : Char) :
    (c.toNat < 0xD800 ∧ unitRank c = c.toNat) ∨
    (0xE000 ≤ c.toNat ∧ c.toNat < 0x10000 ∧ unitRank c = c.toNat + 0x100000) ∨
    (0x10000 ≤ c.toNat ∧ c.toNat < 0x110000 ∧ unitRank c = c.toNat - 0x2000) := by
  have hc := toNat_valid c
  unfold unitRank
  split
  · omega
  · split <;> omega

/-- Different characters have different ranks. -/
theorem unitRank_injective {c d : Char} (h : unitRank c = unitRank d) : c = d := by
  have hc := unitRank_cases c
  have hd := unitRank_cases d
  exact Char.toNat_inj.mp (by omega)

/-- Of two characters the one of lower rank comes first, whatever follows them. -/
theorem compare_eq_lt_of_unitRank_lt {c d : Char} (h : unitRank c < unitRank d) (us vs : List Nat) :
    compare (unitsOfChar c ++ us) (unitsOfChar d ++ vs) = .lt := by
  have hc := unitRank_cases c
  have hd := unitRank_cases d
  rw [compare_eq_lt_iff_lex]
  rcases Nat.lt_or_ge c.toNat 0x10000 with hcs | hcs <;> rcases Nat.lt_or_ge d.toNat 0x10000 with hds | hds
  · rw [unitsOfChar_of_lt hcs, unitsOfChar_of_lt hds]
    exact .rel (by omega)
  -- the first unit of a pair lies between the units before the surrogates and those behind them
  · rw [unitsOfChar_of_lt hcs, unitsOfChar_of_le hds]
    exact .rel (by omega)
  · rw [unitsOfChar_of_le hcs, unitsOfChar_of_lt hds]
    exact .rel (by omega)
  · rw [unitsOfChar_of_le hcs, unitsOfChar_of_le hds]
    rcases Nat.lt_or_ge ((c.toNat - 0x10000) / 0x400) ((d.toNat - 0x10000) / 0x400) with hhigh | hhigh
    · exact .rel (by omega)
    · have hsame : (c.toNat - 0x10000) / 0x400 = (d.toNat - 0x10000) / 0x400 := by omega
      rw [hsame]
      exact .cons (.rel (by omega))

/-- The first character in which two texts differ decides about the order of their units, by its rank. -/
theorem compare_unitsOfChar_append (c d : Char) (us vs : List Nat) :
    compare (unitsOfChar c ++ us) (unitsOfChar d ++ vs) = (compare (unitRank c) (unitRank d)).then (compare us vs) := by
  rcases Nat.lt_trichotomy (unitRank c) (unitRank d) with h | h | h
  · rw [compare_eq_lt_of_unitRank_lt h, Nat.compare_eq_lt.mpr h, Ordering.lt_then]
  · obtain rfl := unitRank_injective h
    rw [compare_append_left, Nat.compare_eq_eq.mpr rfl, Ordering.eq_then]
  · rw [Std.OrientedOrd.eq_swap, compare_eq_lt_of_unitRank_lt h, Nat.compare_eq_gt.mpr h, Ordering.gt_then]
    rfl

/-- Comparing units is comparing ranks, character by character. -/
theorem compare_flatMap_unitsOfChar (cs ds : List Char) :
    compare (cs.flatMap unitsOfChar) (ds.flatMap unitsOfChar) = compare (cs.map unitRank) (ds.map unitRank) := by
  induction cs generalizing ds with
  | nil =>
    cases ds with
    | nil => rfl
    | cons d ds =>
      obtain ⟨u, us, hunits⟩ := List.exists_cons_of_ne_nil (unitsOfChar_ne_nil d)
      rw [List.flatMap_cons, hunits]
      rfl
  | cons c cs ih =>
    cases ds with
    | nil =>
      obtain ⟨u, us, hunits⟩ := List.exists_cons_of_ne_nil (unitsOfChar_ne_nil c)
      rw [List.flatMap_cons, hunits]
      rfl
    | cons d ds =>
      rw [List.flatMap_cons, List.flatMap_cons, compare_unitsOfChar_append, ih, List.map_cons, List.map_cons,
        List.compare_cons_cons]

/-- The order by code units is the lexicographic order by the ranks of the characters. -/
theorem compareUnits_eq (s t : String) :
    compareUnits s t = compare (s.toList.map unitRank) (t.toList.map unitRank) :=
  compare_flatMap_unitsOfChar s.toList t.toList

/-- Where two texts first differ, a character beyond the basic plane comes before one of that plane from `U+E000` on,
although its code point is higher. -/
theorem compareUnits_eq_lt_of_beyond_plane {c d : Char} (hc : 0xE000 ≤ c.toNat) (hc' : c.toNat < 0x10000)
    (hd : 0x10000 ≤ d.toNat) (p : String) (cs ds : List Char) :
    compareUnits (p ++ String.ofList (d :: ds)) (p ++ String.ofList (c :: cs)) = .lt := by
  have hrank := unitRank_cases c
  have hrank' := unitRank_cases d
  rw [compareUnits_append_left, compareUnits_eq, String.toList_ofList, String.toList_ofList, List.map_cons, List.map_cons,
    List.compare_cons_cons, Nat.compare_eq_lt.mpr (by omega), Ordering.lt_then]

end ScriptTree.Text
