import ErrorDocs.FileSystem.Walk

/-!
# Listing a directory tree

Everything below a directory, whatever it is: a directory comes before its entries, and entries
come in the order of their names. Links are listed and not followed.
-/

namespace ErrorDocs

/-- What an entry is. -/
inductive Kind where
  | file
  | directory
  | link
deriving DecidableEq, Repr

/-- What an entry is. -/
def Entry.kind : Entry → Kind
  | .file _ _ => .file
  | .directory _ _ => .directory
  | .link _ => .link

namespace FileSystem

mutual

/-- The entries below an entry, with their locations below the given one. -/
def listTree (base : Location) : Entry → List (Location × Kind)
  | .file _ _ => []
  | .link _ => []
  | .directory entries _ =>
    ((listEntries base entries).mergeSort fun a b => nameLE a.1 b.1).flatMap (·.2)

/-- Each entry of a directory, with what is below it. -/
def listEntries (base : Location) :
    List (Name × Entry) → List (Name × List (Location × Kind))
  | [] => []
  | (name, e) :: rest =>
    let place := base ++ [name]
    (name, (place, e.kind) :: listTree place e) :: listEntries base rest

end

/-- Everything below the working directory. -/
def list (fs : FileSystem) : List (Path × Kind) :=
  match fs.root.get? fs.workingDirectory with
  | some e => (listTree [] e).map fun (place, kind) => (Path.ofParts place, kind)
  | none => []

end FileSystem

end ErrorDocs
