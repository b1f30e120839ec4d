import ErrorDocs.Json.Basic
import ErrorDocs.Json.Commented.Lexer

/-!
# Reading commented JSON

The reader takes one token at a time and holds the containers that are still open on a stack. A
comma after an item or a member may be missing, and one may stand after the last. A name is a
text, a word or a number; of two members of one name the last counts. A number without a value
counts as the text it is written with.

* `read` gives the value of a text, or none if the text has no token, or the first trouble.
-/

namespace ErrorDocs.Json.Commented

/-- A container that is still open, with its start: an array with its items so far, last first,
or an object with its members so far and perhaps the name of the next one. -/
inductive Frame where
  | items (start : Nat) (done : List Json)
  | members (start : Nat) (done : List (String × Json))
  | member (start : Nat) (done : List (String × Json)) (name : String)

/-- What may come next. -/
inductive Phase where
  /-- The value of the text. -/
  | start
  /-- An item or the end of the array. -/
  | item
  /-- The same, or a comma. -/
  | afterItem
  /-- A name or the end of the object. -/
  | name
  /-- The same, or a comma. -/
  | afterMember
  /-- The colon after a name. -/
  | colon
  /-- The value of a member. -/
  | value
  /-- Nothing: the value is complete. -/
  | finished (v : Json)

/-- Where the reader stands. -/
structure State where
  stack : List Frame
  phase : Phase

/-- Hands a complete value to the innermost open container. -/
def deliver (v : Json) : List Frame → State
  | [] => ⟨[], .finished v⟩
  | .items start done :: stack => ⟨.items start (v :: done) :: stack, .afterItem⟩
  | .member start done name :: stack =>
    ⟨.members start (insertMember name v done) :: stack, .afterMember⟩
  | .members start done :: stack => ⟨.members start done :: stack, .afterMember⟩

/-- Takes a token where a value has to start. -/
def beginValue (stack : List Frame) (t : Located) : Except Trouble State :=
  match t.token with
  | .openBracket => .ok ⟨.items t.position [] :: stack, .item⟩
  | .openBrace => .ok ⟨.members t.position [] :: stack, .name⟩
  | .string s => .ok (deliver (.string (String.ofList s)) stack)
  | .number text value =>
    .ok (deliver ((value.map Json.number).getD (.string (String.ofList text))) stack)
  | .boolean b => .ok (deliver (.bool b) stack)
  | .null => .ok (deliver .null stack)
  | .closeBracket => .error ⟨.unexpectedCloseBracket, t.position⟩
  | .closeBrace => .error ⟨.unexpectedCloseBrace, t.position⟩
  | .comma => .error ⟨.unexpectedComma, t.position⟩
  | .colon => .error ⟨.unexpectedColon, t.position⟩
  | .word _ => .error ⟨.unexpectedWord, t.position⟩

/-- The name that a token makes. -/
def name? : Token → Option String
  | .string s => some (String.ofList s)
  | .word w => some (String.ofList w)
  | .number text _ => some (String.ofList text)
  | _ => none

/-- Takes a token where an item or the end of the array has to come. -/
def takeItem (stack : List Frame) (t : Located) : Except Trouble State :=
  match stack, t.token with
  | .items _ done :: stack, .closeBracket => .ok (deliver (.array done.reverse) stack)
  | stack, _ => beginValue stack t

/-- Takes a token where a name or the end of the object has to come. -/
def takeName (stack : List Frame) (t : Located) : Except Trouble State :=
  match stack, t.token, name? t.token with
  | .members _ done :: stack, .closeBrace, _ => .ok (deliver (.object done) stack)
  | .members start done :: stack, _, some name => .ok ⟨.member start done name :: stack, .colon⟩
  | _, _, _ => .error ⟨.unexpectedTokenInObject, t.position⟩

/-- Takes one token. -/
def readStep (s : State) (t : Located) : Except Trouble State :=
  match s.phase with
  | .start => beginValue s.stack t
  | .item => takeItem s.stack t
  | .afterItem => if t.token = .comma then .ok ⟨s.stack, .item⟩ else takeItem s.stack t
  | .name => takeName s.stack t
  | .afterMember => if t.token = .comma then .ok ⟨s.stack, .name⟩ else takeName s.stack t
  | .colon =>
    if t.token = .colon then .ok ⟨s.stack, .value⟩ else .error ⟨.expectedColon, t.position⟩
  | .value => beginValue s.stack t
  | .finished _ => .error ⟨.severalValues, t.position⟩

/-- Where the innermost open container starts. -/
def innermostStart : List Frame → Nat
  | [] => 0
  | .items start _ :: _ => start
  | .members start _ :: _ => start
  | .member start _ _ :: _ => start

/-- Ends a text of the given length. -/
def readEnd (length : Nat) (s : State) : Except Trouble (Option Json) :=
  match s.phase with
  | .start => .ok none
  | .finished v => .ok (some v)
  | .item => .error ⟨.unterminatedArray, innermostStart s.stack⟩
  | .afterItem => .error ⟨.unterminatedArray, innermostStart s.stack⟩
  | .name => .error ⟨.unterminatedObject, innermostStart s.stack⟩
  | .afterMember => .error ⟨.unterminatedObject, innermostStart s.stack⟩
  | .colon => .error ⟨.expectedColon, length⟩
  | .value => .error ⟨.expectedValue, length⟩

/-- The tokens that are left, taken one after the other, up to the end or the fault. -/
def readFrom (length : Nat) (trouble : Option Trouble) (s : State) :
    List Located → Except Trouble (Option Json)
  | [] =>
    match trouble with
    | some t => .error t
    | none => readEnd length s
  | t :: rest =>
    match readStep s t with
    | .ok s' => readFrom length trouble s' rest
    | .error e => .error e

/-- The value of a text in the commented dialect. -/
def read (text : List Char) : Except Trouble (Option Json) :=
  let s := scan text
  readFrom s.length s.trouble ⟨[], .start⟩ s.tokens

end ErrorDocs.Json.Commented
