import ErrorDocs.Text.Search
import ErrorDocs.Text.Utf8

/-!
# Comment blocks

A block opens at the first opening delimiter and closes at the first closing delimiter after it;
the search goes on after the close. Blocks do not nest, and an opening that is never closed makes
no block. The search is the same for characters and for bytes.

* `findBlocks` finds the blocks of a sequence of units, each of a given width.
* `Comment.blocks` finds those of a text, `Comment.byteBlocks` those of a string of bytes; both
  count offsets in bytes.
-/

namespace ErrorDocs

/-- A block and the width of all that comes before it. -/
structure Block (α : Type) where
  offset : Nat
  raw : List α
deriving DecidableEq, Repr

/-- The delimiters of a block. The opening one is not empty, so that every block takes up room. -/
structure Delimiters (α : Type) where
  opening : List α
  closing : List α
  opening_ne_nil : opening ≠ []

section Find

variable {α : Type} [DecidableEq α]

/-- The width of a sequence of units. -/
def extent (width : α → Nat) (xs : List α) : Nat :=
  xs.foldl (fun n x => n + width x) 0

/-- What the search meets next: the gap before a block, the inside of the block, and the rest. -/
def nextBlock? (d : Delimiters α) (xs : List α) : Option (List α × List α × List α) :=
  match Text.breakOn? d.opening xs with
  | none => none
  | some (gap, body) =>
    match Text.breakOn? d.closing body with
    | none => none
    | some (inner, rest) => some (gap, inner, rest)

theorem length_nextBlock? {d : Delimiters α} {xs gap inner rest : List α}
    (h : nextBlock? d xs = some (gap, inner, rest)) : rest.length < xs.length := by
  unfold nextBlock? at h
  split at h
  · simp at h
  · rename_i gap' body hopen
    split at h
    · simp at h
    · rename_i inner' rest' hclose
      simp only [Option.some.injEq, Prod.mk.injEq] at h
      obtain ⟨rfl, rfl, rfl⟩ := h
      have h1 := Text.length_breakOn? hopen
      have h2 := Text.length_breakOn? hclose
      have h3 := List.length_pos_iff.mpr d.opening_ne_nil
      omega

/-- The search from a given offset on, with the blocks found so far, last first. -/
def findFrom (width : α → Nat) (d : Delimiters α) (offset : Nat) (found : List (Block α))
    (xs : List α) : List (Block α) :=
  match h : nextBlock? d xs with
  | none => found.reverse
  | some (gap, inner, rest) =>
    let start := offset + extent width gap
    let raw := d.opening ++ inner ++ d.closing
    have := length_nextBlock? h
    findFrom width d (start + extent width raw) (⟨start, raw⟩ :: found) rest
termination_by xs.length

/-- The blocks of a sequence of units, in order. -/
def findBlocks (width : α → Nat) (d : Delimiters α) (xs : List α) : List (Block α) :=
  findFrom width d 0 [] xs

end Find

namespace Comment

/-- The text that opens a documentation comment. -/
def opening : List Char := ['/', '*', '*']

/-- The text that closes a comment. -/
def closing : List Char := ['*', '/']

/-- The delimiters of a documentation comment. -/
def delimiters : Delimiters Char := ⟨opening, closing, by decide⟩

/-- The delimiters of a documentation comment, as bytes. -/
def byteDelimiters : Delimiters UInt8 := ⟨[0x2F, 0x2A, 0x2A], [0x2A, 0x2F], by decide⟩

/-- The documentation comments of a text, with their offsets in bytes. -/
def blocks (text : List Char) : List (Block Char) :=
  findBlocks Char.utf8Size delimiters text

/-- The documentation comments of a string of bytes. -/
def byteBlocks (bytes : List UInt8) : List (Block UInt8) :=
  findBlocks (fun _ => 1) byteDelimiters bytes

end Comment

end ErrorDocs
