import ErrorDocs.FileSystem.Operations
import ErrorDocs.Filter

/-!
# Walking a directory tree

A walk goes through the files below a root. The entries of a directory are taken in the order of
the bytes of their names, whatever order they are listed in, and a directory is gone through
where its name stands. Ignored directories are not entered, links below the root are left alone,
and a directory cannot be listed if its path is too long or if it cannot be opened. What the walk
meets is a list of visits, in order.

* `FileSystem.walk` is the walk from a path, `FileSystem.walkTree` that of the entries below it.
* `Visit.upTo` is what has been met when a given number of files have been.
-/

namespace ErrorDocs

/-- What a walk meets. -/
inductive Visit where
  /-- A file. -/
  | file (path : Path)
  /-- A directory that is not entered. -/
  | ignored (path : Path)
  /-- A directory that cannot be listed, or a root that cannot be looked at. -/
  | failed (path : Path) (e : OsError)
deriving DecidableEq, Repr

/-- The order of names by their bytes. -/
def nameLE : Name → Name → Bool
  | [], _ => true
  | _ :: _, [] => false
  | a :: as, b :: bs => a < b || (a == b && nameLE as bs)

/-- The path of an entry of a directory. -/
def Path.child (dir : Path) (name : Name) : Path :=
  dir.join ⟨name⟩

namespace FileSystem

/-- The visits of the entries of a directory, in the order of their names. -/
def inNameOrder (visits : List (Name × List Visit)) : List Visit :=
  (visits.mergeSort fun a b => nameLE a.1 b.1).flatMap (·.2)

/-- Why a directory cannot be listed, if so, by its path and its fault. -/
def listFault (path : Path) (fault : Option OsError) : Option OsError :=
  if maxPath < path.bytes.length then some .nameTooLong else fault

mutual

/-- The visits below a directory with the given path and entries. -/
def walkTree (filter : PathFilter) (path : Path) : Entry → List Visit
  | .file _ _ => [.file path]
  | .link _ => []
  | .directory entries fault =>
    match listFault path fault with
    | some e => [.failed path e]
    | none => inNameOrder (walkEntries filter path entries)

/-- The visits of each of the entries of a directory. -/
def walkEntries (filter : PathFilter) (dir : Path) :
    List (Name × Entry) → List (Name × List Visit)
  | [] => []
  | (name, e) :: rest =>
    let path := dir.child name
    let visits :=
      if e.isDirectory && filter.isIgnoredDir (String.ofList (Utf8.decodeLossy name)) then
        [.ignored path]
      else walkTree filter path e
    (name, visits) :: walkEntries filter dir rest

end

/-- The visits of a walk from a root. A root that is a link to a directory is entered; one that is
a link to a file is not a file of the walk. -/
def walk (fs : FileSystem) (filter : PathFilter) (root : Path) : List Visit :=
  match fs.linkStatus root with
  | .error e => [.failed root e]
  | .ok (.link _) =>
    match fs.status root with
    | .error e => [.failed root e]
    | .ok e => if e.isDirectory then walkTree filter root e else []
  | .ok e => walkTree filter root e

end FileSystem

namespace Visit

/-- The path of a visit to a file. -/
def file? : Visit → Option Path
  | .file path => some path
  | _ => none

/-- Visits that are failures. -/
def isFailed : Visit → Bool
  | .failed .. => true
  | _ => false

/-- The files that visits have met. -/
def files (visits : List Visit) : List Path :=
  visits.filterMap file?

/-- The number of failures among visits. -/
def failures (visits : List Visit) : Nat :=
  visits.countP isFailed

/-- The visits up to the `n`th file. -/
def upTo : Nat → List Visit → List Visit
  | 0, _ => []
  | _ + 1, [] => []
  | n + 1, .file path :: rest => .file path :: upTo n rest
  | n + 1, v :: rest => v :: upTo (n + 1) rest

end Visit

end ErrorDocs
