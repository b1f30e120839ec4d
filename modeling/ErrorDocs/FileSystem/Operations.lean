import ErrorDocs.FileSystem.Basic

/-!
# Operations on a file system

The operations that a program asks an operating system for. One that changes the file system
gives the changed one, or the cause for which nothing has changed.
-/

namespace ErrorDocs

/-- Why a text file cannot be read. -/
inductive ReadError where
  | os (e : OsError)
  | notUtf8
deriving DecidableEq, Repr

/-- The text that states a cause. -/
def ReadError.message : ReadError → String
  | .os e => e.message
  | .notUtf8 => "stream did not contain valid UTF-8"

namespace FileSystem

/-! ## Looking -/

/-- The entry at a location that a path has been found to lead to. -/
def entryAt (fs : FileSystem) (location : Except OsError Location) : Except OsError Entry :=
  match location with
  | .error e => .error e
  | .ok l =>
    match fs.root.get? l with
    | some entry => .ok entry
    | none => .error .notFound

/-- The entry that a path leads to, links followed. -/
def status (fs : FileSystem) (path : Path) : Except OsError Entry :=
  fs.entryAt (fs.resolve .target path)

/-- The entry that a path names, which may be a link. -/
def linkStatus (fs : FileSystem) (path : Path) : Except OsError Entry :=
  fs.entryAt (fs.resolve .itself path)

/-- Whether a path leads to anything. -/
def pathExists (fs : FileSystem) (path : Path) : Bool :=
  (fs.status path).toBool

/-- Whether a path leads to a file. -/
def isFile (fs : FileSystem) (path : Path) : Bool :=
  match fs.status path with
  | .ok e => e.isFile
  | .error _ => false

/-- Whether a path leads to a directory. -/
def isDirectory (fs : FileSystem) (path : Path) : Bool :=
  match fs.status path with
  | .ok e => e.isDirectory
  | .error _ => false

/-- The contents of the file that a path leads to. -/
def contentsAt (fs : FileSystem) (path : Path) : Except OsError (List UInt8) :=
  match fs.status path with
  | .error e => .error e
  | .ok (.file contents none) => .ok contents
  | .ok (.file _ (some e)) => .error e
  | .ok (.directory _ (some e)) => .error e
  | .ok _ => .error .isADirectory

/-- The entries of the directory that a path leads to. -/
def entriesAt (fs : FileSystem) (path : Path) : Except OsError (List (Name × Entry)) :=
  match fs.status path with
  | .error e => .error e
  | .ok (.directory entries none) => .ok entries
  | .ok (.directory _ (some e)) => .error e
  | .ok _ => .error .notADirectory

/-- The text of the file that a path leads to. -/
def textAt (fs : FileSystem) (path : Path) : Except ReadError (List Char) :=
  match fs.contentsAt path with
  | .error e => .error (.os e)
  | .ok contents =>
    match Utf8.decode? contents with
    | some text => .ok text
    | none => .error .notUtf8

/-! ## Changing -/

/-- Writes a file, in place of one that may be there. -/
def writeAt (fs : FileSystem) (location : Except OsError Location) (contents : List UInt8) :
    Except OsError FileSystem :=
  match location with
  | .error e => .error e
  | .ok l =>
    match fs.root.get? l with
    | some (.directory _ _) => .error .isADirectory
    | some (.file _ (some e)) => .error e
    | _ => .ok (fs.put l (.file contents))

/-- Writes the file that a path leads to, links followed. -/
def writeFile (fs : FileSystem) (path : Path) (contents : List UInt8) :
    Except OsError FileSystem :=
  fs.writeAt (fs.resolve .forFile path) contents

/-- Makes a new entry where there is none. -/
def createAt (fs : FileSystem) (location : Except OsError Location) (e : Entry) :
    Except OsError FileSystem :=
  match location with
  | .error e => .error e
  | .ok l =>
    match fs.root.get? l with
    | some _ => .error .alreadyExists
    | none => .ok (fs.put l e)

/-- Makes a new file. Anything that has the name already, a link included, is in the way. -/
def createFile (fs : FileSystem) (path : Path) (contents : List UInt8) :
    Except OsError FileSystem :=
  fs.createAt (fs.resolve .itself path) (.file contents)

/-- A path without the slashes at its end. -/
def withoutEndSlashes (path : Path) : Path :=
  ⟨(path.bytes.reverse.dropWhile (· == Path.slash)).reverse⟩

/-- Makes a new directory, whatever the length of the path. A path that ends in `.` or `..` names
a directory that is there already, if the rest of it leads anywhere. -/
def makeDirAt (fs : FileSystem) (path : Path) : Except OsError FileSystem :=
  let path := withoutEndSlashes path
  match path.parts.getLast? with
  | none => .error .alreadyExists
  | some last =>
    if Path.isIdlePart last || last == Path.above then
      match fs.entryAt (fs.locate .target path) with
      | .error e => .error e
      | .ok _ => .error .alreadyExists
    else fs.createAt (fs.locate .itself path) (.directory [])

/-- Makes a new directory. -/
def makeDir (fs : FileSystem) (path : Path) : Except OsError FileSystem :=
  match checkPath path with
  | .error e => .error e
  | .ok () => fs.makeDirAt path

/-- A path and the paths above it, down to where a path has no parent or an empty one. `fuel`
bounds their number. -/
def ancestors : Nat → Path → List Path
  | 0, _ => []
  | fuel + 1, path =>
    match path.parent? with
    | none => []
    | some parent => path :: ancestors fuel parent

/-- What comes of a change that may fail part of the way: the file system then, and the cause. -/
structure Attempt where
  disk : FileSystem
  failure : Option OsError

/-- Makes the first of the given paths a directory, and before it those of the others that are
missing. Each of them is the parent of the one before. -/
def makeDirsOf (fs : FileSystem) : List Path → Attempt
  | [] => ⟨fs, none⟩
  | path :: above =>
    match fs.makeDir path with
    | .ok fs' => ⟨fs', none⟩
    | .error .notFound =>
      let first := fs.makeDirsOf above
      match first.failure with
      | some e => ⟨first.disk, some e⟩
      | none =>
        match first.disk.makeDir path with
        | .ok fs' => ⟨fs', none⟩
        | .error e =>
          if e = .alreadyExists ∧ first.disk.isDirectory path then ⟨first.disk, none⟩
          else ⟨first.disk, some e⟩
    | .error e =>
      if e = .alreadyExists ∧ fs.isDirectory path then ⟨fs, none⟩ else ⟨fs, some e⟩

/-- Makes a directory and the missing ones above it. It may be there already. -/
def makeDirs (fs : FileSystem) (path : Path) : Attempt :=
  fs.makeDirsOf (ancestors (path.bytes.length + 1) path)

/-- Removes a file or a link. -/
def removeFile (fs : FileSystem) (path : Path) : Except OsError FileSystem :=
  match fs.resolve .itself path with
  | .error e => .error e
  | .ok l =>
    match fs.root.get? l with
    | none => .error .notFound
    | some (.directory _ _) => .error .isADirectory
    | some _ => .ok (fs.erase l)

/-- Removes whatever a path names, with all that is in it. -/
def removeAll (fs : FileSystem) (path : Path) : Except OsError FileSystem :=
  match fs.resolve .itself path with
  | .error e => .error e
  | .ok l =>
    match fs.root.get? l with
    | none => .error .notFound
    | some _ => .ok (fs.erase l)

/-! ## Building -/

/-- The longer and longer paths that lead to a path, itself not included. -/
def leadingPaths (path : Path) : List Path :=
  let parts := path.parts
  (List.range' 1 (parts.length - 1)).map fun n => Path.ofParts (parts.take n)

/-- Makes a directory if that is possible. -/
def ensureDir (fs : FileSystem) (path : Path) : FileSystem :=
  match fs.makeDirAt path with
  | .ok fs' => fs'
  | .error _ => fs

/-- Puts an entry where a path leads, with the directories above it. The path may be of any
length. A file is written through links, a link, a directory or an entry that cannot be opened is
put only where nothing is; where the entry cannot be put, nothing but the directories above it
changes. -/
def plant (fs : FileSystem) (path : Path) (e : Entry) : FileSystem :=
  let fs := (leadingPaths path).foldl ensureDir fs
  let planted :=
    match e with
    | .file contents none => fs.writeAt (fs.locate .forFile path) contents
    | .directory _ none => fs.makeDirAt path
    | e => fs.createAt (fs.locate .itself path) e
  match planted with
  | .ok fs' => fs'
  | .error _ => fs

/-- A file system that holds nothing but an empty directory, from which relative paths start. -/
def fresh : FileSystem :=
  let name : Name := [0x77]
  ⟨.directory [(name, .directory [])], [name]⟩

end FileSystem

end ErrorDocs
