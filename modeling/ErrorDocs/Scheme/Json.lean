import ErrorDocs.Scheme.Basic

/-!
# The scheme in JSON

A scheme is written with its fields in a fixed order and read back from them.
-/

namespace ErrorDocs

namespace ProjectMeta

/-- The fields of a project, in order. -/
def fieldNames : List String := ["projectName", "description", "version"]

/-- A project as JSON. -/
def toJson (p : ProjectMeta) : Json :=
  .object
    [("projectName", .string p.projectName), ("description", .string p.description),
      ("version", .string p.version)]

/-- A field that is empty when it is missing. -/
def field? : Option Json → Option String
  | none => some ""
  | some v => v.asString?

/-- Reads a project. A field that is missing is empty. -/
def ofJson? (v : Json) : Option ProjectMeta :=
  match v.optionalFields? fieldNames with
  | some [name, description, version] =>
    match field? name, field? description, field? version with
    | some projectName, some description, some version =>
      some { projectName, description, version }
    | _, _, _ => none
  | _ => none

end ProjectMeta

namespace SchemeTag

/-- The fields of a tag, in order. -/
def fieldNames : List String := ["name", "description"]

/-- A tag as JSON. -/
def toJson (t : SchemeTag) : Json :=
  .object [("name", .string t.name), ("description", .string t.description)]

/-- Reads a tag. -/
def ofJson? (v : Json) : Option SchemeTag :=
  match v.fields? fieldNames with
  | some [name, description] =>
    match name.asString?, description.asString? with
    | some name, some description => some { name, description }
    | _, _ => none
  | _ => none

end SchemeTag

namespace SchemeError

/-- The fields of an error, in order. -/
def fieldNames : List String := ["name", "description", "tags"]

/-- An error as JSON. -/
def toJson (e : SchemeError) : Json :=
  .object
    [("name", .string e.name), ("description", .string e.description),
      ("tags", .array (e.tags.map SchemeTag.toJson))]

/-- Reads an error. -/
def ofJson? (v : Json) : Option SchemeError :=
  match v.fields? fieldNames with
  | some [name, description, tags] =>
    match name.asString?, description.asString?, tags.listOf? SchemeTag.ofJson? with
    | some name, some description, some tags => some { name, description, tags }
    | _, _, _ => none
  | _ => none

end SchemeError

namespace ErrorScheme

/-- The fields of a scheme, in order. -/
def fieldNames : List String := ["name", "description", "version", "errors"]

/-- A scheme as JSON. -/
def toJson (s : ErrorScheme) : Json :=
  .object
    [("name", .string s.name), ("description", .string s.description),
      ("version", .string s.version), ("errors", .array (s.errors.map SchemeError.toJson))]

/-- Reads a scheme. -/
def ofJson? (v : Json) : Option ErrorScheme :=
  match v.fields? fieldNames with
  | some [name, description, version, errors] =>
    match name.asString?, description.asString?, version.asString?,
      errors.listOf? SchemeError.ofJson? with
    | some name, some description, some version, some errors =>
      some { name, description, version, errors }
    | _, _, _, _ => none
  | _ => none

/-- A scheme as text. -/
def render (s : ErrorScheme) : List Char :=
  Json.pretty s.toJson

end ErrorScheme

end ErrorDocs
