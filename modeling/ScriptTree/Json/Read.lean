import ScriptTree.Json.Token

/-!
# Reading JSON

`Json.ofTokens?` reads the first value of a list of tokens. It keeps the containers that are open as a list of frames, so
that the nesting limit is the length of that list, and stops as soon as the outermost value is complete; the tokens left
over are handed back.
-/

namespace ScriptTree.Json

/-- A container that is open: what it holds so far, in reverse, and for an object the key whose value is due. -/
inductive Frame where
  | items (done : List Json)
  | members (done : List (String × Json))
  | member (done : List (String × Json)) (key : String)

/-- What may come next. -/
inductive Due where
  | value
  | valueOrEnd
  | key
  | keyOrEnd
  | colon
  | commaOrEnd
  deriving DecidableEq

/-- How far a reader is: inside some containers with something due, or at the end. -/
inductive Progress where
  | reading (frames : List Frame) (due : Due)
  | complete (value : Json)

/-- Puts a complete value where it belongs. -/
def Progress.ofValue (value : Json) : List Frame → Progress
  | .items done :: outer => .reading (.items (value :: done) :: outer) .commaOrEnd
  | .member done key :: outer => .reading (.members ((key, value) :: done) :: outer) .commaOrEnd
  | .members _ :: _ | [] => .complete value

/-- Takes one token, or refuses it. At most `limit` containers may be open at once. -/
def step? (limit : Nat) (frames : List Frame) (due : Due) (token : Token) : Option Progress :=
  let valueDue := due = .value ∨ due = .valueOrEnd
  match token, frames with
  | .atom value, _ => if valueDue then some (.ofValue value frames) else none
  | .text s, .members done :: outer =>
    if due = .key ∨ due = .keyOrEnd then some (.reading (.member done s :: outer) .colon) else none
  | .text s, _ => if valueDue then some (.ofValue (.string s) frames) else none
  | .openArray, _ =>
    if valueDue ∧ frames.length < limit then some (.reading (.items [] :: frames) .valueOrEnd) else none
  | .openObject, _ =>
    if valueDue ∧ frames.length < limit then some (.reading (.members [] :: frames) .keyOrEnd) else none
  | .closeArray, .items done :: outer =>
    if due = .valueOrEnd ∨ due = .commaOrEnd then some (.ofValue (.array done.reverse) outer) else none
  | .closeObject, .members done :: outer =>
    if due = .keyOrEnd ∨ due = .commaOrEnd then some (.ofValue (.object done.reverse) outer) else none
  | .colon, _ => if due = .colon then some (.reading frames .value) else none
  | .comma, .items _ :: _ => if due = .commaOrEnd then some (.reading frames .value) else none
  | .comma, .members _ :: _ => if due = .commaOrEnd then some (.reading frames .key) else none
  | _, _ => none

/-- Reads on until the outermost value is complete: that value and the tokens left over. -/
def readFrom? (limit : Nat) (frames : List Frame) (due : Due) : List Token → Option (Json × List Token)
  | [] => none
  | token :: rest =>
    match step? limit frames due token with
    | none => none
    | some (.complete value) => some (value, rest)
    | some (.reading frames due) => readFrom? limit frames due rest

/-- Reads the first value of some tokens. -/
def ofTokens? (limit : Nat) (tokens : List Token) : Option (Json × List Token) := readFrom? limit [] .value tokens

/-- Reads a text that holds one value and nothing else. -/
def ofText? (limit : Nat) (text : String) : Option Json :=
  match ofTokens? limit (Token.scan text) with
  | some (value, []) => some value
  | _ => none

end ScriptTree.Json
