import ErrorDocs.Comment.Doc
import ErrorDocs.Proofs.Comment.LineIndex

/-!
# The lines of documented blocks

The line of a comment is found from its offset in bytes. The same search with another width, that
of a line feed being one and that of any other character nothing, gives the line at once. What is
said of the blocks of a text for every width thus holds of their lines, too.

* `lineWidth`: the width that counts lines.
* **`extractDocs_eq_map`**: the documentation of a text, without offsets in bytes.
-/

namespace ErrorDocs

/-- The width of a character in lines. -/
def lineWidth (c : Char) : Nat := if c = '\n' then 1 else 0

theorem extent_lineWidth (s : List Char) : extent lineWidth s = s.count '\n' := by
  induction s with
  | nil => rfl
  | cons c s ih =>
    rw [extent_cons, ih, List.count_cons, lineWidth]
    split_ifs <;> simp_all [Nat.add_comm]

/-- The lines of the blocks in the rest of a text, when `before` has been gone through. -/
theorem map_findFrom_lineOf (before xs : List Char) :
    (findFrom Char.utf8Size Comment.delimiters (extent Char.utf8Size before) [] xs).map
        (fun b => ((LineIndex.ofText (before ++ xs)).lineOf b.offset, b.raw)) =
      (findFrom lineWidth Comment.delimiters (extent lineWidth before) [] xs).map
        (fun b => (b.offset + 1, b.raw)) := by
  induction xs using blockInduction Comment.delimiters generalizing before with
  | none xs h => simp [findFrom_of_none h]
  | some xs gap inner rest h ih =>
    have hxs := eq_append_of_nextBlock? h
    set raw := Comment.delimiters.opening ++ inner ++ Comment.delimiters.closing with hraw
    have hall : before ++ (gap ++ raw) ++ rest = before ++ xs := by rw [hxs, List.append_assoc]
    have hrest := ih (before ++ (gap ++ raw))
    rw [hall, extent_append Char.utf8Size before, extent_append lineWidth before] at hrest
    have hline : (LineIndex.ofText (before ++ xs)).lineOf
        (extent Char.utf8Size before + extent Char.utf8Size gap) =
          extent lineWidth before + extent lineWidth gap + 1 := by
      have hcut := LineIndex.lineOf_extent (before ++ gap) (raw ++ rest)
      rw [show before ++ gap ++ (raw ++ rest) = before ++ xs by rw [hxs]; simp] at hcut
      rw [← extent_append, hcut, ← extent_append, extent_lineWidth]
    rw [findFrom_of_some h, findFrom_of_some h, findFrom_eq_append, findFrom_eq_append _ [_] rest,
      ← hraw, List.map_append, List.map_append, hrest]
    simp only [List.reverse_singleton, List.map_cons, List.map_nil, hline]

/-- What a comment that starts on a given line says. -/
def docOf (path : Path) (line : Nat) (raw : List Char) : DocBlock where
  filePath := path
  startLine := line
  raw := String.ofList raw
  description := (parseLines (Comment.content raw)).description
  tags := (parseLines (Comment.content raw)).tags

/-- **The documentation of a text, found by counting lines.** -/
theorem extractDocs_eq_map (path : Path) (text : List Char) :
    extractDocs path text =
      (findBlocks lineWidth Comment.delimiters text).map
        fun b => docOf path (b.offset + 1) b.raw := by
  have h := congrArg (List.map fun p : Nat × List Char => docOf path p.1 p.2)
    (map_findFrom_lineOf [] text)
  rw [List.map_map, List.map_map] at h
  exact h

end ErrorDocs
