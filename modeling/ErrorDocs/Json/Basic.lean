import ErrorDocs.Number.Basic

/-!
# JSON values

An object is the list of its members. `insertMember` keeps the members in the order of their
names, one for each name.
-/

namespace ErrorDocs

/-- A JSON value. -/
inductive Json where
  | null
  | bool (b : Bool)
  | number (n : Number)
  | string (s : String)
  | array (items : List Json)
  | object (members : List (String × Json))
deriving Repr, Inhabited

namespace Json

/-- A natural number as a value. -/
def ofNat (n : Nat) : Json :=
  .number (.int n)

/-- A list of texts as a value. -/
def ofStrings (ss : List String) : Json :=
  .array (ss.map .string)

/-- Puts a member among others that are ordered by name. It takes the place of one of the same
name. -/
def insertMember (name : String) (value : Json) : List (String × Json) → List (String × Json)
  | [] => [(name, value)]
  | (n, v) :: rest =>
    if name = n then (name, value) :: rest
    else if name < n then (name, value) :: (n, v) :: rest
    else (n, v) :: insertMember name value rest

/-- The member of a given name. -/
def member? (name : String) (members : List (String × Json)) : Option Json :=
  (members.find? (·.1 == name)).map (·.2)

/-- The member of a given name of a value that is an object. -/
def get? (v : Json) (name : String) : Option Json :=
  match v with
  | .object members => member? name members
  | _ => none

/-- The text of a value that is one. -/
def asString? : Json → Option String
  | .string s => some s
  | _ => none

/-- The truth value of a value that is one. -/
def asBool? : Json → Option Bool
  | .bool b => some b
  | _ => none

/-- The items of a value that is an array. -/
def asArray? : Json → Option (List Json)
  | .array items => some items
  | _ => none

/-- The number of a value that is an integer of 64 bits without a sign. -/
def asNat? : Json → Option Nat
  | .number (.int n) => if 0 ≤ n ∧ n < Nat.pow 2 64 then some n.toNat else none
  | _ => none

/-- The texts of a value that is an array of them. -/
def asStrings? (v : Json) : Option (List String) :=
  v.asArray?.bind fun items => items.mapM asString?

end Json

end ErrorDocs
