import ErrorDocs.Json.Printer

/-!
# Schemas

A schema says which JSON values are allowed. Values are checked from the outside in, the members
of an object in the order they have, and the first violation counts.

* `Schema.check` is the first violation of a schema by a value.
-/

namespace ErrorDocs

/-- What a value has to be. -/
inductive Schema where
  | string
  | boolean
  /-- A whole number that is not below zero. -/
  | natural
  /-- An array all of whose items obey a schema. -/
  | array (items : Schema)
  /-- An object with no members but those listed, each of which obeys its schema. -/
  | object (properties : List (String × Schema))
deriving Repr, Inhabited

/-- What is wrong with a value. -/
inductive Problem where
  /-- The value is of another type than the one named. -/
  | wrongType (value : Json) (expected : String)
  /-- The value is below zero. -/
  | belowZero (value : Json)
  /-- The object has a member that is not listed. -/
  | unexpectedMember (name : String)
deriving Repr

/-- What is wrong, and the way to the value it is wrong with. -/
structure Violation where
  problem : Problem
  /-- The names and places of the members and items on the way, outermost first. -/
  pointer : List String
deriving Repr

namespace Violation

/-- The text that states a problem. -/
def problemText : Problem → String
  | .wrongType value expected =>
    String.ofList value.compact ++ " is not of type \"" ++ expected ++ "\""
  | .belowZero value => String.ofList value.compact ++ " is less than the minimum of 0"
  | .unexpectedMember name =>
    "Additional properties are not allowed ('" ++ name ++ "' was unexpected)"

/-- The text that states a violation. -/
def message (v : Violation) : String :=
  problemText v.problem ++ " at " ++ String.join (v.pointer.map ("/" ++ ·))

/-- The violation seen from one step further out. -/
def within (step : String) (v : Violation) : Violation :=
  { v with pointer := step :: v.pointer }

end Violation

namespace Schema

/-- A violation by the value itself. -/
def here (problem : Problem) : Option Violation :=
  some ⟨problem, []⟩

/-- The name of the type that a schema asks for. -/
def typeName : Schema → String
  | .string => "string"
  | .boolean => "boolean"
  | .natural => "integer"
  | .array _ => "array"
  | .object _ => "object"

/-- Checks that a number is whole and not below zero. A floating point number without a fraction
is whole. -/
def checkNumber (n : Number) : Option Violation :=
  match n with
  | .int i => if i < 0 then here (.belowZero (.number n)) else none
  | .float x =>
    if !x.isWhole then here (.wrongType (.number n) "integer")
    else if x.isBelowZero then here (.belowZero (.number n))
    else none

/-- Checks a value whose parts, if it has any, do not matter. -/
def checkScalar (s : Schema) (v : Json) : Option Violation :=
  match s, v with
  | .string, .string _ => none
  | .boolean, .bool _ => none
  | .natural, .number n => checkNumber n
  | s, v => here (.wrongType v s.typeName)

/-- The schema of a listed member. -/
def property? (name : String) (properties : List (String × Schema)) : Option Schema :=
  (properties.find? (·.1 == name)).map (·.2)

mutual

/-- The first violation of a schema by a value. -/
def check (s : Schema) : Json → Option Violation
  | .array items =>
    match s with
    | .array schema => checkItems schema 0 items
    | s => checkScalar s (.array items)
  | .object members =>
    match s with
    | .object properties => checkMembers properties members
    | s => checkScalar s (.object members)
  | .null => checkScalar s .null
  | .bool b => checkScalar s (.bool b)
  | .number n => checkScalar s (.number n)
  | .string t => checkScalar s (.string t)

/-- The first violation by an item, where `place` is the place of the first one. -/
def checkItems (s : Schema) (place : Nat) : List Json → Option Violation
  | [] => none
  | v :: rest =>
    match check s v with
    | some e => some (e.within (Number.natText place))
    | none => checkItems s (place + 1) rest

/-- The first violation by a member. -/
def checkMembers (properties : List (String × Schema)) :
    List (String × Json) → Option Violation
  | [] => none
  | (name, v) :: rest =>
    match property? name properties with
    | none => here (.unexpectedMember name)
    | some s =>
      match check s v with
      | some e => some (e.within name)
      | none => checkMembers properties rest

end

end Schema

end ErrorDocs
