import ScriptTree.Proofs.Beginnings
import ScriptTree.Proofs.RoundTrip
import ScriptTree.Value.Inspect

/-!
# What an inspected text shows

Strings and keys may hold anything, a quote, a brace or a comma too, and yet the inspected text of a value of data (a value
without regular expressions and functions in it) tells everything about the value but the identities of its objects and the
sort of a NaN: `inspect_eq_iff_alike`. For that the text has to show where it ends, whatever follows it inside an object. So the
statement that goes through the properties of an object is about texts with a rest behind them (`Value.Delimited`).
-/

namespace ScriptTree

/-! ## Values of data -/

namespace Value

/-- The values that are shown by a word: the primitives other than strings. -/
def isWord : Value → Bool
  | .undefined | .null | .boolean _ | .number _ | .bigint _ => true
  | _ => false

/-- A primitive, or an object of values of data. -/
inductive IsData : Value → Prop
  | word {v : Value} (h : v.isWord = true) : IsData v
  | string (s : String) : IsData (.string s)
  | object (i : Identity) {properties : List (String × Value)} (h : ∀ p ∈ properties, IsData p.2) :
      IsData (.object i properties)

end Value

mutual

/-- Two values have the same structure: they are the same primitive, where all NaNs are one, or objects with the same keys
in the same order and values of the same structure. -/
inductive Value.Alike : Value → Value → Prop
  | primitive {v : Value} (h : v.isObjectLike = false) : Value.Alike v v
  | nan (signaling signaling' : Bool) : Value.Alike (.number (.nan signaling)) (.number (.nan signaling'))
  | object (i i' : Identity) {properties properties' : List (String × Value)}
      (h : PropertiesAlike properties properties') : Value.Alike (.object i properties) (.object i' properties')

/-- Properties have the same keys in the same order, and values of the same structure. -/
inductive PropertiesAlike : List (String × Value) → List (String × Value) → Prop
  | nil : PropertiesAlike [] []
  | cons (key : String) {v v' : Value} {rest rest' : List (String × Value)} (hv : Value.Alike v v')
      (h : PropertiesAlike rest rest') : PropertiesAlike ((key, v) :: rest) ((key, v') :: rest')

end

/-! ## The texts of numbers -/

namespace Double

/-- Both sorts of NaN are shown by one word. -/
theorem inspect_nan (signaling : Bool) : (nan signaling).inspect = "NaN" := by
  rw [inspect, if_neg nofun]
  rfl

/-- The infinities are shown by a word and a sign. -/
theorem inspect_infinite (negative : Bool) :
    (infinite negative).inspect = if negative then "-Infinity" else "Infinity" := by
  rw [inspect, if_neg nofun]
  cases negative <;> rfl

/-- A finite number is shown by a decimal numeral. -/
theorem read?_inspect (negative : Bool) {units : Nat} (fits : Representable units) :
    ∃ d, Decimal.read? (finite negative units fits).inspect.toList = some d := by
  unfold inspect
  split
  case isTrue => exact ⟨⟨true, 0, 0⟩, by decide⟩
  case isFalse =>
    rcases Nat.eq_zero_or_pos units with rfl | hpos
    · rw [toText_zero]
      exact ⟨⟨false, 0, 0⟩, by decide⟩
    · obtain ⟨d, hread, -⟩ := read?_toText negative fits hpos
      exact ⟨d, hread⟩

/-- A number other than NaN is read back from its inspected text, zero with its sign. -/
theorem ofText_inspect {x : Double} (h : x.isNan = false) : ofText x.inspect = x := by
  unfold inspect
  split
  case isTrue hzero =>
    rw [hzero]
    decide
  case isFalse hzero => rw [ofText_toText h, if_neg hzero]

end Double

/-! ## Values of the same structure -/

namespace Value

theorem inspectChars_number (x : Double) : (number x).inspectChars = x.inspect.toList := rfl

/-- An object that is not empty opens with a brace, and its first property follows. -/
theorem inspectChars_object_cons (i : Identity) (key : String) (v : Value) (rest : List (String × Value)) :
    (object i ((key, v) :: rest)).inspectChars =
      '{' :: ' ' :: (keyChars key ++ ':' :: ' ' :: (v.inspectChars ++ inspectRest rest)) := rfl

/-- The other properties follow, each behind a comma. -/
theorem inspectRest_cons (key : String) (v : Value) (rest : List (String × Value)) :
    inspectRest ((key, v) :: rest) = ',' :: ' ' :: (keyChars key ++ ':' :: ' ' :: (v.inspectChars ++ inspectRest rest)) :=
  rfl

mutual

/-- Values of the same structure are inspected alike. -/
theorem Alike.inspectChars_eq {v w : Value} (h : v.Alike w) : v.inspectChars = w.inspectChars := by
  cases h with
  | primitive => rfl
  | nan signaling signaling' => rw [inspectChars_number, inspectChars_number, Double.inspect_nan, Double.inspect_nan]
  | object i i' hproperties =>
    cases hproperties with
    | nil => rfl
    | cons key hv hrest =>
      rw [inspectChars_object_cons, inspectChars_object_cons, hv.inspectChars_eq, inspectRest_eq hrest]

/-- Properties of the same structure are inspected alike. -/
theorem inspectRest_eq {properties properties' : List (String × Value)} (h : PropertiesAlike properties properties') :
    inspectRest properties = inspectRest properties' := by
  cases h with
  | nil => rfl
  | cons key hv hrest => rw [inspectRest_cons, inspectRest_cons, hv.inspectChars_eq, inspectRest_eq hrest]

end

/-- A word has the structure of any value that shares it with a third one. -/
theorem Alike.of_common {u v w : Value} (hword : v.isWord = true) (hv : v.Alike u) (hw : w.Alike u) : v.Alike w := by
  cases hv with
  | primitive h =>
    cases hw with
    | primitive => exact .primitive h
    | nan signaling signaling' => exact .nan signaling' signaling
    | object => nomatch h
  | nan signaling signaling' =>
    cases hw with
    | primitive => exact .nan signaling signaling'
    | nan signaling'' => exact .nan signaling signaling''
  | object => nomatch hword

/-! ## Words -/

/-- Reads a word. What ends in `n` is a BigInt, and what is none of the four words of the language is a number. -/
def ofWord (text : List Char) : Value :=
  if text.getLast? = some 'n' then ((BigInt.ofText? (String.ofList text.dropLast)).map .bigint).getD .undefined
  else if text = "undefined".toList then .undefined
  else if text = "null".toList then .null
  else if text = "true".toList then .boolean true
  else if text = "false".toList then .boolean false
  else .number (.ofText (String.ofList text))

/-- The word of a number is read as a number, since it is no other word and no BigInt. -/
theorem ofWord_inspect (x : Double) : ofWord x.inspect.toList = .number (.ofText x.inspect) := by
  cases x with
  | nan signaling =>
    rw [Double.inspect_nan]
    rfl
  | infinite negative =>
    rw [Double.inspect_infinite]
    cases negative <;> rfl
  | finite negative units fits =>
    obtain ⟨d, hread⟩ := Double.read?_inspect negative fits
    have hchars := Decimal.isNumeralChar_of_read? hread
    have hlast : (Double.finite negative units fits).inspect.toList.getLast? ≠ some 'n' := fun h =>
      nomatch hchars 'n' (List.mem_of_getLast? h)
    have hword {word : List Char} {c : Char} (hc : c ∈ word) (hnot : Decimal.isNumeralChar c = false) :
        (Double.finite negative units fits).inspect.toList ≠ word := by
      rintro rfl
      rw [hchars c hc] at hnot
      nomatch hnot
    rw [ofWord, if_neg hlast, if_neg (hword (c := 'u') (by decide) rfl), if_neg (hword (c := 'u') (by decide) rfl),
      if_neg (hword (c := 'u') (by decide) rfl), if_neg (hword (c := 'l') (by decide) rfl), String.ofList_toList]

/-- The word of a BigInt is read as that BigInt. -/
theorem ofWord_bigint (b : BigInt) : ofWord (b.toText.toList ++ ['n']) = .bigint b := by
  rw [ofWord, if_pos List.getLast?_concat, List.dropLast_concat, String.ofList_toList, b.ofText?_toText]
  rfl

/-- A word is read back from its text. -/
theorem alike_ofWord {v : Value} (h : v.isWord = true) : v.Alike (ofWord v.inspectChars) := by
  cases v with
  | undefined | null => exact .primitive rfl
  | boolean b => cases b <;> exact .primitive rfl
  | number x =>
    rw [inspectChars_number, ofWord_inspect]
    cases hx : x.isNan with
    | false =>
      rw [Double.ofText_inspect hx]
      exact .primitive rfl
    | true =>
      cases x with
      | nan signaling =>
        have hnan : Double.ofText "NaN" = .nan false := by decide
        rw [Double.inspect_nan, hnan]
        exact .nan signaling false
      | _ => nomatch hx
  | bigint b =>
    show Alike _ (ofWord (b.toText.toList ++ ['n']))
    rw [ofWord_bigint]
    exact .primitive rfl
  | _ => nomatch h

end Value

/-- The characters that words are made of. None of them ends a value inside an object, or begins a string or an object. -/
def isWordChar (c : Char) : Bool := c.isAlphanum || c = '.' || c = '+' || c = '-'

/-- Numerals are made of characters of words. -/
theorem isWordChar_of_isNumeralChar {c : Char} (h : Decimal.isNumeralChar c = true) : isWordChar c = true := by
  simp only [Decimal.isNumeralChar, Bool.or_eq_true, decide_eq_true_eq] at h
  rcases h with ((((h | rfl) | rfl) | rfl) | rfl) | rfl
  case inl.inl.inl.inl.inl => simp [isWordChar, Char.isAlphanum, h]
  all_goals rfl

namespace Value

/-- The text of a word is made of such characters. -/
theorem isWordChar_of_mem {v : Value} (h : v.isWord = true) : ∀ c ∈ v.inspectChars, isWordChar c = true := by
  cases v with
  | undefined | null => exact List.all_eq_true.mp (by decide)
  | boolean b => cases b <;> exact List.all_eq_true.mp (by decide)
  | number x =>
    rw [inspectChars_number]
    cases x with
    | nan signaling =>
      rw [Double.inspect_nan]
      exact List.all_eq_true.mp (by decide)
    | infinite negative =>
      rw [Double.inspect_infinite]
      cases negative <;> exact List.all_eq_true.mp (by decide)
    | finite negative units fits =>
      obtain ⟨d, hread⟩ := Double.read?_inspect negative fits
      exact fun c hc => isWordChar_of_isNumeralChar (Decimal.isNumeralChar_of_read? hread c hc)
  | bigint b =>
    obtain ⟨d, hread⟩ := b.read?_toText
    intro c hc
    rcases List.mem_append.mp hc with hc | hc
    · exact isWordChar_of_isNumeralChar (Decimal.isNumeralChar_of_read? hread c hc)
    · rw [List.mem_singleton.mp hc]
      rfl
  | _ => nomatch h

end Value

/-! ## Quoted texts and keys -/

/-- What a letter behind a backslash stands for. -/
def unescape (c : Char) : Char := if c = 'n' then '\n' else if c = 't' then '\t' else c

/-- A character between quotes is a backslash and a letter for it, or stands for itself and is
neither a backslash nor a quote. -/
theorem escapeQuoted_cases (c : Char) :
    (∃ letter, escapeQuoted c = ['\\', letter] ∧ unescape letter = c) ∨
      escapeQuoted c = [c] ∧ c ≠ '\\' ∧ c ≠ '\'' := by
  unfold escapeQuoted
  split
  · exact .inl ⟨_, rfl, rfl⟩
  · exact .inl ⟨_, rfl, rfl⟩
  · exact .inl ⟨_, rfl, rfl⟩
  · exact .inl ⟨_, rfl, rfl⟩
  case h_5 hquote hbackslash _ _ => exact .inr ⟨rfl, hbackslash, hquote⟩

/-- An escaped character can be told from what follows it. -/
theorem escapeQuoted_append_inj {c d : Char} {rest rest' : List Char}
    (h : escapeQuoted c ++ rest = escapeQuoted d ++ rest') : c = d ∧ rest = rest' := by
  rcases escapeQuoted_cases c with ⟨letter, hc, rfl⟩ | ⟨hc, hne, -⟩ <;>
    rcases escapeQuoted_cases d with ⟨letter', hd, rfl⟩ | ⟨hd, hne', -⟩ <;> rw [hc, hd] at h
  · obtain ⟨rfl, rfl⟩ := List.cons.inj (List.cons.inj h).2
    exact ⟨rfl, rfl⟩
  · exact absurd (List.cons.inj h).1.symm hne'
  · exact absurd (List.cons.inj h).1 hne
  · exact List.cons.inj h

/-- An escaped character does not look like the closing quote. -/
theorem escapeQuoted_append_ne (c : Char) (rest rest' : List Char) : escapeQuoted c ++ rest ≠ '\'' :: rest' := by
  intro h
  rcases escapeQuoted_cases c with ⟨letter, hc, -⟩ | ⟨hc, -, hne⟩ <;> rw [hc] at h
  · exact absurd (List.cons.inj h).1 (by decide)
  · exact hne (List.cons.inj h).1

/-- The closing quote is the first one that is not escaped. -/
theorem escaped_append_inj {text text' rest rest' : List Char}
    (h : text.flatMap escapeQuoted ++ '\'' :: rest = text'.flatMap escapeQuoted ++ '\'' :: rest') :
    text = text' ∧ rest = rest' := by
  induction text generalizing text' with
  | nil =>
    cases text' with
    | nil => exact ⟨rfl, (List.cons.inj h).2⟩
    | cons d text' =>
      rw [List.flatMap_cons, List.append_assoc] at h
      exact absurd h.symm (escapeQuoted_append_ne d _ _)
  | cons c text ih =>
    rw [List.flatMap_cons, List.append_assoc] at h
    cases text' with
    | nil => exact absurd h (escapeQuoted_append_ne c _ _)
    | cons d text' =>
      rw [List.flatMap_cons, List.append_assoc] at h
      obtain ⟨rfl, htail⟩ := escapeQuoted_append_inj h
      obtain ⟨rfl, hrest⟩ := ih htail
      exact ⟨rfl, hrest⟩

/-- A quoted text, its closing quote and what follows them. -/
theorem quoteChars_append (s : String) (rest : List Char) :
    quoteChars s ++ rest = '\'' :: (s.toList.flatMap escapeQuoted ++ '\'' :: rest) := by
  rw [quoteChars, List.cons_append, List.append_assoc, List.singleton_append]

/-- A quoted text shows what was quoted and where it ends. -/
theorem quoteChars_append_inj {s s' : String} {rest rest' : List Char} (h : quoteChars s ++ rest = quoteChars s' ++ rest') :
    s = s' ∧ rest = rest' := by
  rw [quoteChars_append, quoteChars_append] at h
  obtain ⟨htext, hrest⟩ := escaped_append_inj (List.cons.inj h).2
  exact ⟨String.toList_inj.mp htext, hrest⟩

/-- A key that goes without quotes neither begins with one nor has a colon in it. -/
theorem isPlainKey_cons {first : Char} {rest : List Char} (h : isPlainKey (first :: rest) = true) :
    first ≠ '\'' ∧ ':' ∉ first :: rest := by
  simp only [isPlainKey, Bool.and_eq_true, List.all_eq_true] at h
  obtain ⟨hfirst, hrest⟩ := h
  refine ⟨?_, fun hcolon => ?_⟩
  · rintro rfl
    exact absurd hfirst (by decide)
  · rcases List.mem_cons.mp hcolon with rfl | hcolon
    · exact absurd hfirst (by decide)
    · exact absurd (hrest ':' hcolon) (by decide)

/-- A key without quotes ends at the colon behind it, and does not look like one with quotes. -/
theorem keyChars_append_inj {key key' : String} {rest rest' : List Char}
    (h : keyChars key ++ ':' :: rest = keyChars key' ++ ':' :: rest') : key = key' ∧ rest = rest' := by
  have hplain {key key' : String} {rest rest' : List Char} (hkey : isPlainKey key.toList = true) :
      key.toList ++ rest ≠ quoteChars key' ++ rest' := by
    intro heq
    cases hchars : key.toList with
    | nil =>
      rw [hchars] at hkey
      nomatch hkey
    | cons first chars =>
      rw [hchars] at hkey heq
      exact (isPlainKey_cons hkey).1 (List.cons.inj heq).1
  have hcolon {key : String} (hkey : isPlainKey key.toList = true) : ':' ∉ key.toList := by
    cases hchars : key.toList with
    | nil => exact List.not_mem_nil
    | cons first chars =>
      rw [hchars] at hkey
      exact (isPlainKey_cons hkey).2
  unfold keyChars at h
  split at h
  case isTrue hkey =>
    split at h
    case isTrue hkey' =>
      obtain ⟨hchars, hrest⟩ := append_cons_inj_of_notMem_left (hcolon hkey) (hcolon hkey') h
      exact ⟨String.toList_inj.mp hchars, hrest⟩
    case isFalse => exact absurd h (hplain hkey)
  case isFalse =>
    split at h
    case isTrue hkey' => exact absurd h.symm (hplain hkey')
    case isFalse =>
      obtain ⟨hkey, hrest⟩ := quoteChars_append_inj h
      exact ⟨hkey, (List.cons.inj hrest).2⟩

/-! ## Texts with a rest behind them -/

/-- What can follow a value inside an object, or at the end: nothing that could belong to a word. -/
def Closes (rest : List Char) : Prop := ∀ c ∈ rest.head?, isWordChar c = false

/-- A comma or a closing brace stands behind every value inside an object. -/
theorem closes_inspectRest_append (properties : List (String × Value)) (rest : List Char) :
    Closes (Value.inspectRest properties ++ rest) := by
  cases properties with
  | nil => exact fun c hc => by cases hc; rfl
  | cons p properties => exact fun c hc => by cases hc; rfl

namespace Value

/-- The text of a value shows its structure, and where the text ends. -/
def Delimited (v : Value) : Prop :=
  ∀ (w : Value) (rest rest' : List Char), w.IsData → Closes rest → Closes rest' →
    v.inspectChars ++ rest = w.inspectChars ++ rest' → v.Alike w ∧ rest = rest'

/-- The characters of an object behind its opening brace. -/
def bodyChars : List (String × Value) → List Char
  | [] => ['}']
  | (key, v) :: rest => ' ' :: (keyChars key ++ ':' :: ' ' :: (v.inspectChars ++ inspectRest rest))

/-- An object is an opening brace and its body. -/
theorem inspectChars_object (i : Identity) (properties : List (String × Value)) :
    (object i properties).inspectChars = '{' :: bodyChars properties := by
  cases properties with
  | nil => rfl
  | cons p properties => rfl

/-- No word begins like a string or an object. -/
theorem inspectChars_append_ne {v : Value} (h : v.isWord = true) {c : Char} (hc : isWordChar c = false)
    (rest rest' : List Char) : v.inspectChars ++ rest ≠ c :: rest' := by
  intro heq
  cases hchars : v.inspectChars with
  | nil =>
    -- the empty text would have to be the word for zero
    have hzero : v.Alike (.number (.zero false)) := by
      have hword := alike_ofWord h
      rwa [hchars] at hword
    cases hzero
    exact absurd hchars (by decide)
  | cons d chars =>
    have hd : isWordChar d = true := isWordChar_of_mem h d (hchars ▸ List.mem_cons_self)
    rw [hchars] at heq
    rw [(List.cons.inj heq).1, hc] at hd
    nomatch hd

/-- A word ends where its characters do, and is then read back. -/
theorem delimited_of_isWord {v : Value} (h : v.isWord = true) : v.Delimited := by
  intro w rest rest' hw hrest hrest' heq
  cases hw with
  | word hw =>
    obtain ⟨hchars, htail⟩ := append_inj_of_head (isWordChar_of_mem h) (isWordChar_of_mem hw) hrest hrest' heq
    have hread := alike_ofWord h
    rw [hchars] at hread
    exact ⟨hread.of_common h (alike_ofWord hw), htail⟩
  | string s => exact absurd heq (inspectChars_append_ne h rfl _ _)
  | object i =>
    rw [inspectChars_object] at heq
    exact absurd heq (inspectChars_append_ne h rfl _ _)

/-- A string ends at its closing quote. -/
theorem delimited_string (s : String) : (string s).Delimited := by
  intro w rest rest' hw _ _ heq
  cases hw with
  | word hw => exact absurd heq.symm (inspectChars_append_ne hw rfl _ _)
  | string s' =>
    obtain ⟨rfl, htail⟩ := quoteChars_append_inj heq
    exact ⟨.primitive rfl, htail⟩
  | object i =>
    rw [inspectChars_object] at heq
    exact absurd (List.cons.inj heq).1 (by decide)

/-! ## Properties -/

section Properties

variable {properties properties' : List (String × Value)} {rest rest' : List Char}

/-- A key, its value and the properties behind them are told apart. -/
theorem entry_append_inj {key key' : String} {v v' : Value} (hv : v.Delimited) (hv' : v'.IsData)
    (h : keyChars key ++ ':' :: ' ' :: (v.inspectChars ++ inspectRest properties) ++ rest =
      keyChars key' ++ ':' :: ' ' :: (v'.inspectChars ++ inspectRest properties') ++ rest') :
    key = key' ∧ v.Alike v' ∧ inspectRest properties ++ rest = inspectRest properties' ++ rest' := by
  simp only [List.append_assoc, List.cons_append] at h
  obtain ⟨hkey, hentry⟩ := keyChars_append_inj h
  obtain ⟨halike, htail⟩ := hv v' _ _ hv' (closes_inspectRest_append properties rest)
    (closes_inspectRest_append properties' rest') (List.cons.inj hentry).2
  exact ⟨hkey, halike, htail⟩

/-- Properties whose values show where they end do so too, by induction on their number. -/
theorem inspectRest_append_inj (h : ∀ p ∈ properties, p.2.Delimited) (h' : ∀ p ∈ properties', p.2.IsData)
    (heq : inspectRest properties ++ rest = inspectRest properties' ++ rest') :
    PropertiesAlike properties properties' ∧ rest = rest' := by
  induction properties generalizing properties' with
  | nil =>
    cases properties' with
    | nil => exact ⟨.nil, List.append_cancel_left heq⟩
    | cons p' properties' => exact absurd (List.cons.inj heq).1 (by decide)
  | cons p properties ih =>
    cases properties' with
    | nil => exact absurd (List.cons.inj heq).1 (by decide)
    | cons p' properties' =>
      obtain ⟨key, v⟩ := p
      obtain ⟨key', v'⟩ := p'
      obtain ⟨hv, hvs⟩ := List.forall_mem_cons.mp h
      obtain ⟨hv', hvs'⟩ := List.forall_mem_cons.mp h'
      obtain ⟨rfl, halike, htail⟩ := entry_append_inj hv hv' (List.cons.inj (List.cons.inj heq).2).2
      obtain ⟨hproperties, hrest⟩ := ih hvs hvs' htail
      exact ⟨.cons key halike hproperties, hrest⟩

/-- The first property stands behind the brace, not behind a comma. -/
theorem bodyChars_append_inj (h : ∀ p ∈ properties, p.2.Delimited) (h' : ∀ p ∈ properties', p.2.IsData)
    (heq : bodyChars properties ++ rest = bodyChars properties' ++ rest') :
    PropertiesAlike properties properties' ∧ rest = rest' := by
  cases properties with
  | nil =>
    cases properties' with
    | nil => exact ⟨.nil, List.append_cancel_left heq⟩
    | cons p' properties' => exact absurd (List.cons.inj heq).1 (by decide)
  | cons p properties =>
    cases properties' with
    | nil => exact absurd (List.cons.inj heq).1 (by decide)
    | cons p' properties' =>
      obtain ⟨key, v⟩ := p
      obtain ⟨key', v'⟩ := p'
      obtain ⟨hv, hvs⟩ := List.forall_mem_cons.mp h
      obtain ⟨hv', hvs'⟩ := List.forall_mem_cons.mp h'
      obtain ⟨rfl, halike, htail⟩ := entry_append_inj hv hv' (List.cons.inj heq).2
      obtain ⟨hproperties, hrest⟩ := inspectRest_append_inj hvs hvs' htail
      exact ⟨.cons key halike hproperties, hrest⟩

end Properties

/-- The texts of values of data show their structure and where they end. -/
theorem IsData.delimited {v : Value} (h : v.IsData) : v.Delimited := by
  induction h with
  | word h => exact delimited_of_isWord h
  | string s => exact delimited_string s
  | object i h ih =>
    intro w rest rest' hw _ _ heq
    rw [inspectChars_object] at heq
    cases hw with
    | word hw => exact absurd heq.symm (inspectChars_append_ne hw rfl _ _)
    | string s => exact absurd (List.cons.inj heq).1 (by decide)
    | object i' h' =>
      rw [inspectChars_object] at heq
      obtain ⟨hproperties, hrest⟩ := bodyChars_append_inj ih h' (List.cons.inj heq).2
      exact ⟨.object i i' hproperties, hrest⟩

/-- Inspected texts are unambiguous. Values of data are inspected alike exactly if they have the same structure: the same
kind at every place, the same double or NaN on both sides, the same strings and BigInts, and objects with the same keys in the
same order. -/
theorem inspect_eq_iff_alike {v w : Value} (hv : v.IsData) (hw : w.IsData) : v.inspect = w.inspect ↔ v.Alike w := by
  have hclosed : Closes [] := nofun
  constructor
  · intro h
    have hchars : v.inspectChars ++ [] = w.inspectChars ++ [] := by
      rw [List.append_nil, List.append_nil]
      exact String.ofList_injective h
    exact (hv.delimited w [] [] hw hclosed hclosed hchars).1
  · exact fun h => congrArg String.ofList h.inspectChars_eq

/-- Two objects with a key and a string that look like the text around them, and with another sort of NaN and other
identities in the one than in the other. -/
theorem nested_objects_inspected_alike :
    let object (signaling : Bool) (outer inner : Identity) : Value :=
      .object outer [("a: 'b'", .string "', c \x7d"),
        ("d", .object inner [("e", .number (.nan signaling)), ("f", .bigint .zero)])]
    (object true 1 2).inspect = "\x7b 'a: \\'b\\'': '\\', c \x7d', d: \x7b e: NaN, f: 0n \x7d \x7d" ∧
      (object true 1 2).Alike (object false 8 9) := by
  intro object
  have hdata (signaling : Bool) (outer inner : Identity) : (object signaling outer inner).IsData := by
    refine .object outer (List.forall_mem_cons.mpr ⟨.string _, List.forall_mem_singleton.mpr (.object inner ?_)⟩)
    exact List.forall_mem_cons.mpr ⟨.word rfl, List.forall_mem_singleton.mpr (.word rfl)⟩
  have hsame : (object true 1 2).inspect = (object false 8 9).inspect := by decide +kernel
  exact ⟨by decide +kernel, (inspect_eq_iff_alike (hdata true 1 2) (hdata false 8 9)).mp hsame⟩

/-- The text of a regular expression does not show where its pattern ends. -/
example : (regex 0 ⟨"a/b", ""⟩).inspect = (regex 0 ⟨"a", "b/"⟩).inspect := by decide

end Value

end ScriptTree
