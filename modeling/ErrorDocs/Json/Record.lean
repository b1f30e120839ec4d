import ErrorDocs.Json.Basic

/-!
# Records in JSON

A record is written as an object with its fields by name. It may also be read from an array that
holds the fields in order. Members of other names are passed over.

* `fields?` reads a record all of whose fields have to be there.
* `optionalFields?` reads a record whose fields may be missing.
-/

namespace ErrorDocs.Json

/-- The values of the fields with the given names, all of which have to be there. -/
def fields? (names : List String) : Json → Option (List Json)
  | .object members => names.mapM fun n => member? n members
  | .array items => if items.length = names.length then some items else none
  | _ => none

/-- The values of the fields with the given names, some of which may be missing. An array may
stop early. -/
def optionalFields? (names : List String) : Json → Option (List (Option Json))
  | .object members => some (names.map fun n => member? n members)
  | .array items =>
    if items.length ≤ names.length then
      some (items.map some ++ List.replicate (names.length - items.length) none)
    else none
  | _ => none

/-- Reads every item of an array. -/
def listOf? {α : Type} (read : Json → Option α) : Json → Option (List α)
  | .array items => items.mapM read
  | _ => none

end ErrorDocs.Json
