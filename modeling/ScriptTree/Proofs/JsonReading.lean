import ScriptTree.Json.Read

/-!
# What the JSON reader accepts

`Json.tokens` spells a value: it is what the text of the value is cut into, whatever space stands between the tokens. The
reader takes every spelling whose value is nested within its limit and leaves what follows alone (`ofTokens?_tokens`), and
no value that it gives is nested deeper than that (`nesting_le_of_ofTokens?`).
-/

namespace ScriptTree.Json

mutual

/-- The tokens that spell a value. -/
def tokens : Json → List Token
  | .string s => [.text s]
  | .array [] => [.openArray, .closeArray]
  | .array (item :: rest) => .openArray :: (item.tokens ++ itemTokens rest)
  | .object [] => [.openObject, .closeObject]
  | .object ((key, value) :: rest) => .openObject :: .text key :: .colon :: (value.tokens ++ memberTokens rest)
  | value => [.atom value]

/-- The tokens of the items after the first, up to the end of the array. -/
def itemTokens : List Json → List Token
  | [] => [.closeArray]
  | item :: rest => .comma :: (item.tokens ++ itemTokens rest)

/-- The tokens of the members after the first, up to the end of the object. -/
def memberTokens : List (String × Json) → List Token
  | [] => [.closeObject]
  | (key, value) :: rest => .comma :: .text key :: .colon :: (value.tokens ++ memberTokens rest)

end

/-! ## Bounds of the nesting -/

/-- The nesting of items is bounded by what bounds each of them. -/
theorem nestingOfItems_le_iff {items : List Json} {n : Nat} :
    nestingOfItems items ≤ n ↔ ∀ item ∈ items, item.nesting ≤ n := by
  induction items with
  | nil => simp [nestingOfItems]
  | cons item rest ih => rw [nestingOfItems, Nat.max_le, ih, List.forall_mem_cons]

/-- The nesting of members is bounded by what bounds each of their values. -/
theorem nestingOfMembers_le_iff {members : List (String × Json)} {n : Nat} :
    nestingOfMembers members ≤ n ↔ ∀ member ∈ members, member.2.nesting ≤ n := by
  induction members with
  | nil => simp [nestingOfMembers]
  | cons member rest ih => rw [nestingOfMembers, Nat.max_le, ih, List.forall_mem_cons]

/-- No item is nested deeper than all of them together. -/
theorem nesting_le_nestingOfItems {item : Json} {items : List Json} (h : item ∈ items) :
    item.nesting ≤ nestingOfItems items :=
  nestingOfItems_le_iff.mp (Nat.le_refl _) item h

theorem nesting_le_nestingOfMembers {key : String} {value : Json} {members : List (String × Json)}
    (h : (key, value) ∈ members) : value.nesting ≤ nestingOfMembers members :=
  nestingOfMembers_le_iff.mp (Nat.le_refl _) _ h

/-! ## Spellings are read -/

/-- How reading goes on after a token has been taken. -/
def Progress.resume (limit : Nat) (rest : List Token) : Progress → Option (Json × List Token)
  | .complete value => some (value, rest)
  | .reading frames due => readFrom? limit frames due rest

/-- Tokens are read by taking the first one and resuming with the rest. -/
theorem readFrom?_cons (limit : Nat) (frames : List Frame) (due : Due) (token : Token) (rest : List Token) :
    readFrom? limit frames due (token :: rest) = (step? limit frames due token).bind (Progress.resume limit rest) := by
  rw [readFrom?]
  cases step? limit frames due token with
  | none => rfl
  | some progress => cases progress <;> rfl

/-- A value can come next: it is due, and the innermost container is not an object that asks for a key. -/
structure Awaits (frames : List Frame) (due : Due) : Prop where
  due : due = .value ∨ due = .valueOrEnd
  place : ∀ done outer, frames ≠ .members done :: outer

namespace Awaits

variable {frames : List Frame} {due : Due}

/-- An atom is taken as the value that is due. -/
theorem step?_atom (h : Awaits frames due) (limit : Nat) (value : Json) :
    step? limit frames due (.atom value) = some (.ofValue value frames) := by
  simp [step?, h.due]

/-- A text is taken as a value, since no key is due. -/
theorem step?_text (h : Awaits frames due) (limit : Nat) (s : String) :
    step? limit frames due (.text s) = some (.ofValue (.string s) frames) := by
  cases frames with
  | nil => simp [step?, h.due]
  | cons frame outer =>
    cases frame with
    | members done => exact absurd rfl (h.place done outer)
    | items done => simp [step?, h.due]
    | member done key => simp [step?, h.due]

/-- An array is opened if there is room for it. -/
theorem step?_openArray (h : Awaits frames due) {limit : Nat} (hroom : frames.length < limit) :
    step? limit frames due .openArray = some (.reading (.items [] :: frames) .valueOrEnd) := by
  simp [step?, h.due, hroom]

theorem step?_openObject (h : Awaits frames due) {limit : Nat} (hroom : frames.length < limit) :
    step? limit frames due .openObject = some (.reading (.members [] :: frames) .keyOrEnd) := by
  simp [step?, h.due, hroom]

/-- Inside an array a value can come next. -/
theorem items (done : List Json) (outer : List Frame) (h : due = .value ∨ due = .valueOrEnd) :
    Awaits (.items done :: outer) due :=
  ⟨h, nofun⟩

/-- Behind a key a value comes next. -/
theorem member (done : List (String × Json)) (key : String) (outer : List Frame) :
    Awaits (.member done key :: outer) .value :=
  ⟨.inl rfl, nofun⟩

end Awaits

mutual

/-- Where a value can come next, its spelling is read as that value. -/
theorem readFrom?_tokens (limit : Nat) (value : Json) (frames : List Frame) (due : Due) (h : Awaits frames due)
    (hroom : frames.length + value.nesting ≤ limit) (rest : List Token) :
    readFrom? limit frames due (value.tokens ++ rest) = (Progress.ofValue value frames).resume limit rest := by
  match value with
  | .null | .bool _ | .integer _ | .real _ =>
    simp only [tokens, List.cons_append, List.nil_append, readFrom?_cons, h.step?_atom, Option.bind_some]
  | .string s =>
    simp only [tokens, List.cons_append, List.nil_append, readFrom?_cons, h.step?_text, Option.bind_some]
  | .array [] =>
    have hopen := h.step?_openArray (show frames.length < limit by simp only [nesting] at hroom; omega)
    simp only [tokens, List.cons_append, List.nil_append, readFrom?_cons, hopen, Option.bind_some, Progress.resume]
    rfl
  | .array (item :: more) =>
    simp only [nesting, nestingOfItems] at hroom
    have hopen := h.step?_openArray (show frames.length < limit by omega)
    have hitem := readFrom?_tokens limit item (.items [] :: frames) .valueOrEnd (.items [] frames (.inr rfl))
      (by simp only [List.length_cons]; omega) (itemTokens more ++ rest)
    have hmore := readFrom?_itemTokens limit more [item] frames (by omega) rest
    simp only [tokens, List.cons_append, List.append_assoc, readFrom?_cons, hopen, Option.bind_some, Progress.resume,
      hitem, Progress.ofValue, hmore]
    rfl
  | .object [] =>
    have hopen := h.step?_openObject (show frames.length < limit by simp only [nesting] at hroom; omega)
    simp only [tokens, List.cons_append, List.nil_append, readFrom?_cons, hopen, Option.bind_some, Progress.resume]
    rfl
  | .object ((key, value) :: more) =>
    simp only [nesting, nestingOfMembers] at hroom
    have hopen := h.step?_openObject (show frames.length < limit by omega)
    have hkey : step? limit (.members [] :: frames) .keyOrEnd (.text key) =
        some (.reading (.member [] key :: frames) .colon) := rfl
    have hcolon : step? limit (.member [] key :: frames) .colon .colon =
        some (.reading (.member [] key :: frames) .value) := rfl
    have hvalue := readFrom?_tokens limit value (.member [] key :: frames) .value (.member [] key frames)
      (by simp only [List.length_cons]; omega) (memberTokens more ++ rest)
    have hmore := readFrom?_memberTokens limit more [(key, value)] frames (by omega) rest
    simp only [tokens, List.cons_append, List.append_assoc, readFrom?_cons, hopen, hkey, hcolon, Option.bind_some,
      Progress.resume, hvalue, Progress.ofValue, hmore]
    rfl

/-- After an item, the rest of an array is read up to its end. -/
theorem readFrom?_itemTokens (limit : Nat) (items : List Json) (done : List Json) (outer : List Frame)
    (hroom : outer.length + 1 + nestingOfItems items ≤ limit) (rest : List Token) :
    readFrom? limit (.items done :: outer) .commaOrEnd (itemTokens items ++ rest) =
      (Progress.ofValue (.array (done.reverse ++ items)) outer).resume limit rest := by
  match items with
  | [] =>
    have hclose : step? limit (.items done :: outer) .commaOrEnd .closeArray =
        some (.ofValue (.array done.reverse) outer) := rfl
    simp only [itemTokens, List.cons_append, List.nil_append, readFrom?_cons, hclose, Option.bind_some, List.append_nil]
  | item :: more =>
    simp only [nestingOfItems] at hroom
    have hcomma : step? limit (.items done :: outer) .commaOrEnd .comma =
        some (.reading (.items done :: outer) .value) := rfl
    have hitem := readFrom?_tokens limit item (.items done :: outer) .value (.items done outer (.inl rfl))
      (by simp only [List.length_cons]; omega) (itemTokens more ++ rest)
    have hmore := readFrom?_itemTokens limit more (item :: done) outer (by omega) rest
    simp only [itemTokens, List.cons_append, List.append_assoc, readFrom?_cons, hcomma, Option.bind_some,
      Progress.resume, hitem, Progress.ofValue, hmore, List.reverse_cons, List.nil_append]

/-- After a member, the rest of an object is read up to its end. -/
theorem readFrom?_memberTokens (limit : Nat) (members : List (String × Json)) (done : List (String × Json))
    (outer : List Frame) (hroom : outer.length + 1 + nestingOfMembers members ≤ limit) (rest : List Token) :
    readFrom? limit (.members done :: outer) .commaOrEnd (memberTokens members ++ rest) =
      (Progress.ofValue (.object (done.reverse ++ members)) outer).resume limit rest := by
  match members with
  | [] =>
    have hclose : step? limit (.members done :: outer) .commaOrEnd .closeObject =
        some (.ofValue (.object done.reverse) outer) := rfl
    simp only [memberTokens, List.cons_append, List.nil_append, readFrom?_cons, hclose, Option.bind_some, List.append_nil]
  | (key, value) :: more =>
    simp only [nestingOfMembers] at hroom
    have hcomma : step? limit (.members done :: outer) .commaOrEnd .comma =
        some (.reading (.members done :: outer) .key) := rfl
    have hkey : step? limit (.members done :: outer) .key (.text key) =
        some (.reading (.member done key :: outer) .colon) := rfl
    have hcolon : step? limit (.member done key :: outer) .colon .colon =
        some (.reading (.member done key :: outer) .value) := rfl
    have hvalue := readFrom?_tokens limit value (.member done key :: outer) .value (.member done key outer)
      (by simp only [List.length_cons]; omega) (memberTokens more ++ rest)
    have hmore := readFrom?_memberTokens limit more ((key, value) :: done) outer (by omega) rest
    simp only [memberTokens, List.cons_append, List.append_assoc, readFrom?_cons, hcomma, hkey, hcolon, Option.bind_some,
      Progress.resume, hvalue, Progress.ofValue, hmore, List.reverse_cons, List.nil_append]

end

/-- The reader takes the spelling of every value that is nested within its limit and leaves what follows it. -/
theorem ofTokens?_tokens {limit : Nat} {value : Json} (h : value.nesting ≤ limit) (rest : List Token) :
    ofTokens? limit (value.tokens ++ rest) = some (value, rest) := by
  rw [ofTokens?, readFrom?_tokens limit value [] .value ⟨.inl rfl, nofun⟩ (by simpa using h) rest]
  rfl

/-- A text is read as a value if the reader takes all of its tokens for it. -/
theorem ofText?_eq_some_iff {limit : Nat} {text : String} {value : Json} :
    ofText? limit text = some value ↔ ofTokens? limit (Token.scan text) = some (value, []) := by
  unfold ofText?
  constructor
  · intro h
    split at h
    · cases h
      assumption
    · cases h
  · intro h
    rw [h]

/-- A text that spells a value is read as that value. -/
theorem ofText?_of_tokens {limit : Nat} {text : String} {value : Json} (h : value.nesting ≤ limit)
    (htext : Token.scan text = value.tokens) : ofText? limit text = some value := by
  rw [ofText?_eq_some_iff, htext]
  have htokens := ofTokens?_tokens h []
  rwa [List.append_nil] at htokens

/-! ## Nothing deeper than the limit is read -/

/-- The values that an open container holds. -/
def Frame.held : Frame → List Json
  | .items done => done
  | .members done | .member done _ => done.map Prod.snd

/-- What is open and what it holds are within a limit of the nesting. -/
def Within (limit : Nat) : List Frame → Prop
  | [] => True
  | frame :: outer =>
    outer.length < limit ∧ (∀ value ∈ frame.held, outer.length + 1 + value.nesting ≤ limit) ∧ Within limit outer

/-- What has been read is within a limit of the nesting. -/
def Progress.Within (limit : Nat) : Progress → Prop
  | .complete value => value.nesting ≤ limit
  | .reading frames _ => Json.Within limit frames

/-- A value of a token is not a container. -/
def Token.IsFlat : Token → Prop
  | .atom value => value.nesting = 0
  | _ => True

section

variable {limit : Nat} {frames outer : List Frame}

/-- A value that fits inside what is open leaves everything within the limit. -/
theorem within_ofValue {value : Json} (h : Within limit frames) (hvalue : frames.length + value.nesting ≤ limit) :
    (Progress.ofValue value frames).Within limit := by
  cases frames with
  | nil => simpa [Progress.ofValue, Progress.Within] using hvalue
  | cons frame outer =>
    obtain ⟨hlength, hheld, houter⟩ := h
    simp only [List.length_cons] at hvalue
    cases frame with
    | items done =>
      refine ⟨hlength, ?_, houter⟩
      intro v hv
      rcases List.mem_cons.mp hv with rfl | hv
      · exact hvalue
      · exact hheld v hv
    | member done key =>
      refine ⟨hlength, ?_, houter⟩
      intro v hv
      rcases List.mem_cons.mp hv with rfl | hv
      · exact hvalue
      · exact hheld v hv
    | members done =>
      show value.nesting ≤ limit
      omega

/-- A container that is closed is no deeper than what it held. -/
theorem nesting_array_reverse {done : List Json} (hlength : outer.length < limit)
    (h : ∀ value ∈ done, outer.length + 1 + value.nesting ≤ limit) :
    outer.length + (Json.array done.reverse).nesting ≤ limit := by
  have hdone : nestingOfItems done.reverse ≤ limit - outer.length - 1 := by
    rw [nestingOfItems_le_iff]
    intro value hvalue
    have := h value (List.mem_reverse.mp hvalue)
    omega
  simp only [nesting]
  omega

theorem nesting_object_reverse {done : List (String × Json)} (hlength : outer.length < limit)
    (h : ∀ value ∈ done.map Prod.snd, outer.length + 1 + value.nesting ≤ limit) :
    outer.length + (Json.object done.reverse).nesting ≤ limit := by
  have hdone : nestingOfMembers done.reverse ≤ limit - outer.length - 1 := by
    rw [nestingOfMembers_le_iff]
    intro member hmember
    have := h member.2 (List.mem_map_of_mem (List.mem_reverse.mp hmember))
    omega
  simp only [nesting]
  omega

/-- Taking a token stays within the limit. -/
theorem within_step? {due : Due} {token : Token} {progress : Progress} (h : Within limit frames) (hflat : token.IsFlat)
    (hstep : step? limit frames due token = some progress) : progress.Within limit := by
  have hlength : frames.length ≤ limit := by
    cases frames with
    | nil => exact Nat.zero_le _
    | cons frame outer => exact h.1
  cases token with
  | atom value =>
    obtain ⟨-, ⟨⟩⟩ := Option.ite_none_right_eq_some.mp hstep
    exact within_ofValue h (by rw [show value.nesting = 0 from hflat]; exact hlength)
  | text s =>
    rcases frames with _ | ⟨done | done | ⟨done, key⟩, outer⟩
    case cons.members =>
      -- a key, which is no value yet
      obtain ⟨-, ⟨⟩⟩ := Option.ite_none_right_eq_some.mp hstep
      exact h
    all_goals
      obtain ⟨-, ⟨⟩⟩ := Option.ite_none_right_eq_some.mp hstep
      exact within_ofValue h hlength
  | openArray =>
    obtain ⟨⟨-, hroom⟩, ⟨⟩⟩ := Option.ite_none_right_eq_some.mp hstep
    exact ⟨hroom, nofun, h⟩
  | openObject =>
    obtain ⟨⟨-, hroom⟩, ⟨⟩⟩ := Option.ite_none_right_eq_some.mp hstep
    exact ⟨hroom, nofun, h⟩
  | closeArray =>
    rcases frames with _ | ⟨done | done | ⟨done, key⟩, outer⟩
    case cons.items =>
      obtain ⟨-, ⟨⟩⟩ := Option.ite_none_right_eq_some.mp hstep
      exact within_ofValue h.2.2 (nesting_array_reverse h.1 h.2.1)
    all_goals nomatch hstep
  | closeObject =>
    rcases frames with _ | ⟨done | done | ⟨done, key⟩, outer⟩
    case cons.members =>
      obtain ⟨-, ⟨⟩⟩ := Option.ite_none_right_eq_some.mp hstep
      exact within_ofValue h.2.2 (nesting_object_reverse h.1 h.2.1)
    all_goals nomatch hstep
  | colon =>
    obtain ⟨-, ⟨⟩⟩ := Option.ite_none_right_eq_some.mp hstep
    exact h
  | comma =>
    rcases frames with _ | ⟨done | done | ⟨done, key⟩, outer⟩
    case nil | cons.member => nomatch hstep
    all_goals
      obtain ⟨-, ⟨⟩⟩ := Option.ite_none_right_eq_some.mp hstep
      exact h
  | fault => nomatch hstep

/-- Reading on stays within the limit. -/
theorem nesting_le_of_readFrom? {due : Due} {tokens rest : List Token} {value : Json}
    (hflat : ∀ token ∈ tokens, token.IsFlat) (h : Within limit frames)
    (hread : readFrom? limit frames due tokens = some (value, rest)) : value.nesting ≤ limit := by
  induction tokens generalizing frames due with
  | nil => nomatch hread
  | cons token more ih =>
    rw [readFrom?_cons] at hread
    obtain ⟨progress, hstep, hresume⟩ := Option.bind_eq_some_iff.mp hread
    have hp := within_step? h (hflat token List.mem_cons_self) hstep
    cases progress with
    | complete v =>
      cases hresume
      exact hp
    | reading frames' due' => exact ih (fun token ht => hflat token (List.mem_cons_of_mem _ ht)) hp hresume

end

/-! ## The tokens of a text are flat -/

namespace Token

/-- Reals are not nested. -/
theorem nesting_real? {x : Double} {value : Json} (h : real? x = some value) : value.nesting = 0 := by
  obtain ⟨-, ⟨⟩⟩ := Option.ite_none_left_eq_some.mp h
  rfl

theorem nesting_integer? {negative : Bool} {magnitude : Nat} {value : Json}
    (h : integer? negative magnitude = some value) : value.nesting = 0 := by
  cases negative with
  | false =>
    simp only [integer?, Bool.false_eq_true, if_false] at h
    split at h
    · cases h
      rfl
    · exact nesting_real? h
  | true =>
    simp only [integer?, if_true] at h
    split at h
    · cases h
      rfl
    · exact nesting_real? h

theorem nesting_number? {word : List Char} {value : Json} (h : number? word = some value) : value.nesting = 0 := by
  simp only [number?] at h
  split at h
  all_goals
    split at h
    · nomatch h
    split at h
    · exact nesting_integer? h
    split at h
    · nomatch h
    · obtain ⟨decimal, -, hreal⟩ := Option.bind_eq_some_iff.mp h
      exact nesting_real? hreal

/-- A word is an atom without nesting, or no token at all. -/
theorem isFlat_ofWord (word : List Char) : (ofWord word).IsFlat := by
  unfold ofWord
  split
  · rfl
  split
  · rfl
  split
  · rfl
  split
  · rename_i value h
    exact nesting_number? h
  · trivial

/-- What one character makes is flat. -/
theorem isFlat_begin {c : Char} {token : Token} (h : token ∈ (begin c).1) : token.IsFlat := by
  unfold begin at h
  split at h
  · rename_i mark hmark
    rw [List.mem_singleton] at h
    subst h
    unfold ofMark? at hmark
    split at hmark <;> cases hmark <;> trivial
  · split at h
    · nomatch h
    split at h
    · nomatch h
    · nomatch h

/-- What is complete after one more character is flat. -/
theorem isFlat_step {scan next : Scan} {c : Char} {tokens : List Token} (h : step scan c = some (tokens, next)) :
    ∀ token ∈ tokens, token.IsFlat := by
  intro token htoken
  cases scan with
  | between =>
    have hbegin : begin c = (tokens, next) := Option.some.inj h
    exact isFlat_begin (by rw [hbegin]; exact htoken)
  | word read =>
    simp only [step] at h
    split at h
    · cases h
      rcases List.mem_cons.mp htoken with rfl | htoken
      · exact isFlat_ofWord _
      · exact isFlat_begin htoken
    · cases h
      nomatch htoken
  | text read =>
    simp only [step] at h
    split at h
    · cases h
      rw [List.mem_singleton] at htoken
      subst htoken
      trivial
    split at h
    · cases h
      nomatch htoken
    split at h
    · nomatch h
    · cases h
      nomatch htoken
  | escape read =>
    simp only [step] at h
    split at h
    · cases h
      nomatch htoken
    · obtain ⟨e, -, he⟩ := Option.map_eq_some_iff.mp h
      cases he
      nomatch htoken
  | code read lead missing value =>
    simp only [step] at h
    obtain ⟨digit, -, h⟩ := Option.bind_eq_some_iff.mp h
    split at h
    · obtain ⟨e, -, he⟩ := Option.map_eq_some_iff.mp h
      cases he
      nomatch htoken
    · cases h
      nomatch htoken
  | pair read lead =>
    obtain ⟨-, h⟩ := Option.ite_none_right_eq_some.mp h
    cases h
    nomatch htoken
  | pairEscape read lead =>
    obtain ⟨-, h⟩ := Option.ite_none_right_eq_some.mp h
    cases h
    nomatch htoken

/-- A scan gives flat tokens only. -/
theorem isFlat_scanFrom (scan : Scan) (text : List Char) : ∀ token ∈ scanFrom scan text, token.IsFlat := by
  induction text generalizing scan with
  | nil =>
    intro token htoken
    unfold scanFrom at htoken
    split at htoken
    · nomatch htoken
    · rw [List.mem_singleton] at htoken
      subst htoken
      exact isFlat_ofWord _
    · rw [List.mem_singleton] at htoken
      subst htoken
      trivial
  | cons c rest ih =>
    intro token htoken
    rw [scanFrom] at htoken
    split at htoken
    · rename_i tokens next hstep
      rcases List.mem_append.mp htoken with htoken | htoken
      · exact isFlat_step hstep token htoken
      · exact ih next token htoken
    · rw [List.mem_singleton] at htoken
      subst htoken
      trivial

end Token

/-- No value that is read from a text is nested deeper than the limit. -/
theorem nesting_le_of_ofTokens? {limit : Nat} {text : String} {value : Json} {rest : List Token}
    (h : ofTokens? limit (Token.scan text) = some (value, rest)) : value.nesting ≤ limit :=
  nesting_le_of_readFrom? (Token.isFlat_scanFrom .between text.toList) (show Within limit [] from True.intro) h

end ScriptTree.Json
