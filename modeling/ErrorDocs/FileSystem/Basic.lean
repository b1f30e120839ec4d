import ErrorDocs.Path

/-!
# File systems

A file system is a tree of directories, files and symbolic links, together with the directory
that relative paths start from. Operations fail for the causes that an operating system gives. An
entry can be found and yet not be opened, because that is not permitted or the disk is broken.

* `Entry.get?` looks up the entry at a location, `Entry.modify` changes it.
* `FileSystem.resolve` finds the location that a path leads to.
-/

namespace ErrorDocs

/-- Why an operation on the file system fails. -/
inductive OsError where
  | notFound
  | alreadyExists
  | notADirectory
  | isADirectory
  | nameTooLong
  | tooManyLinks
  /-- The path has a byte that no path can have. -/
  | zeroByte
  | permissionDenied
  | inputOutput
deriving DecidableEq, Repr

/-- The text that states a cause. -/
def OsError.message : OsError → String
  | .notFound => "No such file or directory (os error 2)"
  | .alreadyExists => "File exists (os error 17)"
  | .notADirectory => "Not a directory (os error 20)"
  | .isADirectory => "Is a directory (os error 21)"
  | .nameTooLong => "File name too long (os error 36)"
  | .tooManyLinks => "Too many levels of symbolic links (os error 40)"
  | .zeroByte => "file name contained an unexpected NUL byte"
  | .permissionDenied => "Permission denied (os error 13)"
  | .inputOutput => "Input/output error (os error 5)"

/-- An entry of a directory: a file with its contents, a directory with its entries in the order
they are listed in, or a symbolic link with the text of its target. A file or a directory with a
fault is there, but it cannot be opened, for the cause that is given. -/
inductive Entry where
  | file (contents : List UInt8) (fault : Option OsError := none)
  | directory (entries : List (Name × Entry)) (fault : Option OsError := none)
  | link (target : List UInt8)
deriving Repr, Inhabited

/-- A location: the names on the way from the root, none of them a link. -/
abbrev Location := List Name

namespace Entry

/-- Directories. -/
def isDirectory : Entry → Bool
  | .directory _ _ => true
  | _ => false

/-- Files. -/
def isFile : Entry → Bool
  | .file _ _ => true
  | _ => false

/-- The entry of a given name in a list of entries. -/
def find? (name : Name) (entries : List (Name × Entry)) : Option Entry :=
  (entries.find? (·.1 == name)).map (·.2)

/-- The entry at a location. -/
def get? : Entry → Location → Option Entry
  | e, [] => some e
  | .directory entries _, name :: rest =>
    match find? name entries with
    | some e => e.get? rest
    | none => none
  | _, _ :: _ => none

/-- Changes what stands under a name in a list of entries: `f` takes the entry that is there and
gives the one that should be. -/
def alter (name : Name) (f : Option Entry → Option Entry) :
    List (Name × Entry) → List (Name × Entry)
  | [] =>
    match f none with
    | some e => [(name, e)]
    | none => []
  | (n, e) :: rest =>
    if n = name then
      match f (some e) with
      | some e' => (n, e') :: rest
      | none => rest
    else (n, e) :: alter name f rest

/-- Changes what stands at a location whose directory is there. -/
def modify (f : Option Entry → Option Entry) : Location → Entry → Entry
  | [], e => (f (some e)).getD e
  | name :: rest, .directory entries fault =>
    match rest with
    | [] => .directory (alter name f entries) fault
    | next :: rest => .directory (alter name (Option.map (modify f (next :: rest))) entries) fault
  | _ :: _, e => e

end Entry

/-- A file system and the directory that relative paths start from. -/
structure FileSystem where
  root : Entry
  workingDirectory : Location
deriving Inhabited

namespace FileSystem

/-- The longest path that a system call takes, in bytes. -/
def maxPath : Nat := 4095

/-- The longest name, in bytes. -/
def maxName : Nat := 255

/-- The number of links that may be followed on the way along one path. -/
def maxLinks : Nat := 40

/-- How the last part of a path is taken. -/
inductive LastPart where
  /-- A link there is what the path leads to. -/
  | itself
  /-- A link there is followed. -/
  | target
  /-- A link there is followed, and what it leads to is for a file, so that no slash may come
  after it. -/
  | forFile
deriving DecidableEq, Repr

/-- Whether nothing but slashes come after a part of a path, of which there is at least one. -/
def endsInSlash (rest : List Name) : Bool :=
  !rest.isEmpty && rest.all List.isEmpty

/-- Where a string of bytes starts from, when it is met in a given directory. -/
def startOf (bytes : List UInt8) (here : Location) : Location :=
  if bytes.head? = some Path.slash then [] else here

/-- The location that parts of a path lead to from a directory. Links on the way are followed, the
last one as `last` says; `links` more of them may be. The last part need not exist, but the
directory it would be in has to. -/
def follow (root : Entry) (last : LastPart) (links : Nat) (here : Location) :
    List Name → Except OsError Location
  | [] => .ok here
  | part :: rest =>
    match root.get? here with
    | some (.directory entries _) =>
      if Path.isIdlePart part then follow root last links here rest
      else if part = Path.above then follow root last links here.dropLast rest
      else if last = .forFile ∧ endsInSlash rest then .error .isADirectory
      else if maxName < part.length then .error .nameTooLong
      else
        match Entry.find? part entries with
        | none => if rest.isEmpty then .ok (here ++ [part]) else .error .notFound
        | some (.link target) =>
          if rest.isEmpty ∧ last = .itself then .ok (here ++ [part])
          else
            match links with
            | 0 => .error .tooManyLinks
            | links + 1 =>
              follow root last links (startOf target here) (Path.partsOf target ++ rest)
        | some _ => follow root last links (here ++ [part]) rest
    | some _ => .error .notADirectory
    | none => .error .notFound
termination_by parts => (links, parts.length)

/-- What a system call requires of the text of a path. -/
def checkPath (path : Path) : Except OsError Unit :=
  if path.bytes.contains 0 then .error .zeroByte
  else if path.bytes.isEmpty then .error .notFound
  else if maxPath < path.bytes.length then .error .nameTooLong
  else .ok ()

/-- The location that a path leads to, whatever its length. -/
def locate (fs : FileSystem) (last : LastPart) (path : Path) : Except OsError Location :=
  follow fs.root last maxLinks (startOf path.bytes fs.workingDirectory) path.parts

/-- The location that a path leads to, as a system call finds it. -/
def resolve (fs : FileSystem) (last : LastPart) (path : Path) : Except OsError Location :=
  match checkPath path with
  | .error e => .error e
  | .ok () => fs.locate last path

/-- The file system with another entry at a location whose directory is there. -/
def put (fs : FileSystem) (location : Location) (e : Entry) : FileSystem :=
  { fs with root := fs.root.modify (fun _ => some e) location }

/-- The file system without the entry at a location. -/
def erase (fs : FileSystem) (location : Location) : FileSystem :=
  { fs with root := fs.root.modify (fun _ => none) location }

end FileSystem

end ErrorDocs
