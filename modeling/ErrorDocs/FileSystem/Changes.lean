import ErrorDocs.FileSystem.Operations

/-!
# What has changed

The steps that turn one tree into another: entries that are gone are removed, new directories are
made, and files that are new or different are written.

* `Entry.changes` lists the steps, directories before what is in them.
-/

namespace ErrorDocs

/-- A step from one tree to another. -/
inductive Change where
  | remove (location : Location)
  | makeDir (location : Location)
  | write (location : Location) (contents : List UInt8)
deriving DecidableEq, Repr

namespace Entry

/-- The entries of a directory; other entries have none. -/
def entries : Entry → List (Name × Entry)
  | .directory entries _ => entries
  | _ => []

/-- The steps that remove what stands under names that are not there any more. -/
def removals (base : Location) (before after : List (Name × Entry)) : List Change :=
  (before.filter fun old => (find? old.1 after).isNone).map fun old => .remove (base ++ [old.1])

/-- The steps that make room at a location for something else. -/
def clearing (base : Location) (before : Option Entry) : List Change :=
  match before with
  | none => []
  | some _ => [.remove base]

mutual

/-- The steps that turn what stands at a location into an entry. -/
def changes (base : Location) (before : Option Entry) : Entry → List Change
  | .file contents _ =>
    match before with
    | some (.file old _) => if old = contents then [] else [.write base contents]
    | before => clearing base before ++ [.write base contents]
  | .link _ => []
  | .directory after _ =>
    match before with
    | some (.directory old _) => removals base old after ++ entryChanges base old after
    | before => clearing base before ++ .makeDir base :: entryChanges base [] after

/-- The steps that turn the entries of a directory into others. -/
def entryChanges (base : Location) (before : List (Name × Entry)) :
    List (Name × Entry) → List Change
  | [] => []
  | (name, e) :: rest =>
    changes (base ++ [name]) (find? name before) e ++ entryChanges base before rest

end

end Entry

/-- The steps that turn one file system into another. -/
def FileSystem.changes (before after : FileSystem) : List Change :=
  after.root.changes [] (some before.root)

end ErrorDocs
