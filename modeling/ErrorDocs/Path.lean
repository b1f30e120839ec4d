import ErrorDocs.Text.Utf8

/-!
# Paths

A path is a string of bytes; its parts are separated by slashes. Empty parts and parts `.` mean
nothing, except that a first empty part makes the path absolute and a first `.` counts as a
component of its own. No function here looks at the file system.
-/

namespace ErrorDocs

/-- The name of a directory entry. -/
abbrev Name := List UInt8

/-- A path, as the bytes it is written with. -/
structure Path where
  bytes : List UInt8
deriving DecidableEq, Repr, Inhabited

namespace Path

/-- The byte that separates the parts of a path. -/
def slash : UInt8 := 0x2F

/-- The byte that separates a file name from its extension. -/
def dot : UInt8 := 0x2E

/-- The name of the directory itself. -/
def here : Name := [dot]

/-- The name of the directory above. -/
def above : Name := [dot, dot]

/-- The path written as the given text. -/
def ofString (s : String) : Path :=
  ⟨Utf8.encode s.toList⟩

/-- The text of a path for a reader, with replacements where its bytes are not UTF-8. -/
def display (p : Path) : String :=
  String.ofList (Utf8.decodeLossy p.bytes)

/-- The text of a path whose bytes are UTF-8. -/
def toString? (p : Path) : Option String :=
  (Utf8.decode? p.bytes).map String.ofList

/-- Puts one byte in front of a list of parts. -/
def consPart (b : UInt8) : List Name → List Name
  | [] => if b = slash then [[], []] else [[b]]
  | n :: ns => if b = slash then [] :: n :: ns else (b :: n) :: ns

/-- The parts of a string of bytes, cut at every slash. -/
def partsOf (bytes : List UInt8) : List Name :=
  bytes.foldr consPart [[]]

/-- The parts of a path, empty ones included. -/
def parts (p : Path) : List Name :=
  partsOf p.bytes

/-- The path with the given parts. -/
def ofParts (ps : List Name) : Path :=
  ⟨List.intercalate [slash] ps⟩

/-- Paths that start at the root of the file system. -/
def isAbsolute (p : Path) : Bool :=
  p.bytes.head? == some slash

/-- The parts that name nothing. -/
def isIdlePart (n : Name) : Bool :=
  n == [] || n == here

/-- A list of parts without the idle ones at its end. -/
def dropIdleEnd (ps : List Name) : List Name :=
  (ps.reverse.dropWhile isIdlePart).reverse

/-- The first part of a path and the others, without the idle ones at the end. -/
def headAndBody (p : Path) : Name × List Name :=
  match p.parts with
  | [] => ([], [])
  | first :: rest => (first, dropIdleEnd rest)

/-- The last component of a path, unless that is the root, `.` or `..`. -/
def fileName? (p : Path) : Option Name :=
  let (first, body) := p.headAndBody
  let last := body.getLast?.getD first
  if isIdlePart last || last == above then none else some last

/-- The path without its last component. The root and the empty path have none. -/
def parent? (p : Path) : Option Path :=
  let (first, body) := p.headAndBody
  match body with
  | [] => if first == [] then none else some ⟨[]⟩
  | _ :: _ =>
    match first, dropIdleEnd body.dropLast with
    | [], [] => some ⟨[slash]⟩
    | first, body' => some (ofParts (first :: body'))

/-- The second path seen from the first: an absolute one stands for itself, otherwise a slash
comes between them unless the first is empty or ends with one. -/
def join (base p : Path) : Path :=
  if p.isAbsolute then p
  else if base.bytes == [] || base.bytes.getLast? == some slash then ⟨base.bytes ++ p.bytes⟩
  else ⟨base.bytes ++ slash :: p.bytes⟩

/-- A name cut at its last dot, if it has one: what stands before the dot and what follows. -/
def cutAtLastDot? (n : Name) : Option (Name × Name) :=
  let after := (n.reverse.takeWhile (· != dot)).reverse
  match n.reverse.dropWhile (· != dot) with
  | [] => none
  | _ :: before => some (before.reverse, after)

/-- What follows the last dot of the file name, unless that dot comes first or there is none. -/
def extension? (p : Path) : Option Name :=
  match p.fileName?.bind cutAtLastDot? with
  | some (_ :: _, after) => some after
  | _ => none

end Path

end ErrorDocs
