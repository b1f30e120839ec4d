import ErrorDocs.Comment.Doc
import ErrorDocs.Proofs.Comment.LineIndex
import ErrorDocs.Proofs.Text.Utf8

/-!
# Comments of a file that is not UTF-8

The comments of a file may be looked for in its bytes or in the text that lossy reading makes of
them. The delimiters and the line feed are ASCII, so that both find the same comments on the same
lines, wherever the replacement characters fall.

* `nextBlock?_decodeLossy`: one step of the search; `blocks_decodeLossy`: all of it.
* **`extractDocs_decodeLossy`**: the comments of the text are those of the bytes.
* `startLine_le_length`: there are no more lines up to a comment than there are bytes.
-/

namespace ErrorDocs

open Utf8

namespace Comment

theorem byteOpening_ascii : ∀ a ∈ byteDelimiters.opening, a < 128 := by simp [byteDelimiters]

theorem byteClosing_ascii : ∀ a ∈ byteDelimiters.closing, a < 128 := by simp [byteDelimiters]

theorem opening_eq_map : delimiters.opening = byteDelimiters.opening.map asciiChar := by decide

theorem closing_eq_map : delimiters.closing = byteDelimiters.closing.map asciiChar := by decide

/-- The search meets the same next block before and after reading. -/
theorem nextBlock?_decodeLossy (bytes : List UInt8) :
    nextBlock? delimiters (decodeLossy bytes) = (nextBlock? byteDelimiters bytes).map
      fun p => (decodeLossy p.1, decodeLossy p.2.1, decodeLossy p.2.2) := by
  rw [nextBlock?_eq_bind, nextBlock?_eq_bind, opening_eq_map, closing_eq_map,
    breakOn?_decodeLossy (by decide) byteOpening_ascii]
  cases Text.breakOn? byteDelimiters.opening bytes with
  | none => rfl
  | some p =>
    rw [Option.map_some, Option.bind_some, Option.bind_some,
      breakOn?_decodeLossy (by decide) byteClosing_ascii, Option.map_map, Option.map_map]
    rfl

theorem decodeLossy_block (inner : List UInt8) :
    decodeLossy (byteDelimiters.opening ++ inner ++ byteDelimiters.closing) =
      delimiters.opening ++ decodeLossy inner ++ delimiters.closing := by
  have h1 := decodeLossy_append_asciis (by decide) byteClosing_ascii
    (byteDelimiters.opening ++ inner) []
  rw [List.append_nil] at h1
  rw [h1, decodeLossy_ascii_append byteOpening_ascii, opening_eq_map, closing_eq_map,
    decodeLossy_eq_nil_iff.mpr rfl, List.append_nil]

theorem decodeLossy_append_block (xs inner : List UInt8) :
    decodeLossy (xs ++ (byteDelimiters.opening ++ inner ++ byteDelimiters.closing)) =
      decodeLossy xs ++ (delimiters.opening ++ decodeLossy inner ++ delimiters.closing) := by
  have h := decodeLossy_append_asciis (by decide) byteOpening_ascii
  have h1 := h xs (inner ++ byteDelimiters.closing)
  have h2 := decodeLossy_block inner
  rw [List.append_assoc, decodeLossy_ascii_append byteOpening_ascii] at h2
  rw [← h2, List.append_assoc, ← List.append_assoc xs, h1, List.append_assoc]

/-- Bytes after which reading starts afresh. -/
def Clean (xs : List UInt8) : Prop :=
  ∀ ys, decodeLossy (xs ++ ys) = decodeLossy xs ++ decodeLossy ys

theorem clean_append_block (xs inner : List UInt8) :
    Clean (xs ++ (byteDelimiters.opening ++ inner ++ byteDelimiters.closing)) := by
  intro ys
  have h := decodeLossy_append_asciis (by decide) byteClosing_ascii
  have h1 := h (xs ++ (byteDelimiters.opening ++ inner)) ys
  have h2 := h (xs ++ (byteDelimiters.opening ++ inner)) []
  rw [List.append_nil, decodeLossy_eq_nil_iff.mpr rfl, List.append_nil] at h2
  simp only [List.append_assoc] at h1 h2 ⊢
  rw [h1, h2]
  simp

/-- **The search finds the same blocks before and after reading.** -/
theorem findFrom_decodeLossy (before bytes : List UInt8) (h : Clean before) :
    findFrom Char.utf8Size delimiters (extent Char.utf8Size (decodeLossy before)) []
        (decodeLossy bytes) =
      (findFrom (fun _ => 1) byteDelimiters before.length [] bytes).map fun b =>
        ⟨extent Char.utf8Size (decodeLossy ((before ++ bytes).take b.offset)),
          decodeLossy b.raw⟩ := by
  induction bytes using blockInduction byteDelimiters generalizing before with
  | none bytes hnext =>
    have hnext' := nextBlock?_decodeLossy bytes
    rw [hnext, Option.map_none] at hnext'
    rw [findFrom_of_none hnext, findFrom_of_none hnext']
    rfl
  | some bytes gap inner rest hnext ih =>
    have hnext' := nextBlock?_decodeLossy bytes
    rw [hnext, Option.map_some] at hnext'
    set raw := byteDelimiters.opening ++ inner ++ byteDelimiters.closing with hraw
    have hbytes : bytes = gap ++ raw ++ rest := eq_append_of_nextBlock? hnext
    have hclean : Clean (before ++ (gap ++ raw)) := by
      rw [← List.append_assoc]
      exact clean_append_block (before ++ gap) inner
    have hgap : (before ++ bytes).take (before.length + gap.length) = before ++ gap := by
      rw [hbytes, ← List.length_append, List.append_assoc, ← List.append_assoc before,
        List.take_left]
    have hread : decodeLossy (before ++ (gap ++ raw)) = decodeLossy before ++
        (decodeLossy gap ++ (delimiters.opening ++ decodeLossy inner ++ delimiters.closing)) := by
      rw [h, decodeLossy_append_block]
    have hall : before ++ (gap ++ raw) ++ rest = before ++ bytes := by
      rw [hbytes, List.append_assoc]
    have hrest := ih _ hclean
    rw [hread, hall, extent_append, List.length_append] at hrest
    rw [findFrom_of_some hnext, findFrom_of_some hnext', findFrom_eq_append, hrest,
      findFrom_eq_append _ [_] rest, ← hraw, List.map_append]
    simp only [extent_one, List.reverse_singleton, List.map_cons, List.map_nil, hgap, h gap,
      extent_append, decodeLossy_block, hraw, List.length_append]

theorem blocks_decodeLossy (bytes : List UInt8) :
    blocks (decodeLossy bytes) = (byteBlocks bytes).map fun b =>
      ⟨extent Char.utf8Size (decodeLossy (bytes.take b.offset)), decodeLossy b.raw⟩ :=
  findFrom_decodeLossy [] bytes fun _ => rfl

end Comment

/-- **The comments of the text are those of the bytes**, read one by one, and stand on the same
lines. -/
theorem extractDocs_decodeLossy (path : Path) (bytes : List UInt8) :
    (extractDocs path (decodeLossy bytes)).map (fun b => (b.raw, b.startLine)) =
      (Comment.byteBlocks bytes).map fun b =>
        (String.ofList (decodeLossy b.raw), 1 + (bytes.take b.offset).count 0x0A) := by
  rw [extractDocs, Comment.blocks_decodeLossy, List.map_map, List.map_map]
  refine List.map_congr_left fun b hb => ?_
  obtain ⟨before, inner, rest, hbytes, ho, hraw, -⟩ := exists_eq_append_of_mem_findBlocks hb
  have htake : bytes.take b.offset = before := by
    rw [ho, extent_one, hbytes, List.append_assoc, List.take_left]
  -- the text, too, is cut before the comment
  have hcut : decodeLossy bytes = decodeLossy before ++ (Comment.delimiters.opening ++
      decodeLossy (inner ++ Comment.byteDelimiters.closing ++ rest)) := by
    have := decodeLossy_append_asciis (by decide) Comment.byteOpening_ascii before
      (inner ++ Comment.byteDelimiters.closing ++ rest)
    rw [Comment.opening_eq_map, ← List.append_assoc (decodeLossy before), ← this, hbytes, hraw]
    simp only [List.append_assoc]
  have hline := LineIndex.lineOf_extent (decodeLossy before)
    (Comment.delimiters.opening ++ decodeLossy (inner ++ Comment.byteDelimiters.closing ++ rest))
  rw [← hcut, show '\n' = asciiChar 0x0A from rfl, count_decodeLossy (by decide)] at hline
  simp only [Function.comp_apply, htake, hline, Nat.add_comm]

theorem startLine_le_length {path : Path} {bytes : List UInt8} {b : DocBlock}
    (hb : b ∈ extractDocs path (decodeLossy bytes)) : b.startLine ≤ bytes.length := by
  obtain ⟨c, hc, rfl⟩ := List.mem_map.mp hb
  obtain ⟨before, inner, rest, htext, ho, hraw, -⟩ := Comment.exists_of_mem_blocks hc
  have hline : (LineIndex.ofText (decodeLossy bytes)).lineOf c.offset = before.count '\n' + 1 := by
    rw [htext, ho, List.append_assoc, LineIndex.lineOf_extent]
  have hbefore : before.count '\n' ≤ bytes.count 0x0A := by
    rw [← count_decodeLossy (a := 0x0A) (by decide), htext, List.append_assoc, List.count_append]
    exact Nat.le_add_right _ _
  -- the comment itself starts with a byte that is no line feed
  have hslash : (0x2F : UInt8) ∈ bytes := by
    rw [← List.count_pos_iff, ← count_decodeLossy (by decide), List.count_pos_iff, htext, hraw]
    exact List.mem_append_left _ (List.mem_append_right _ (by simp [Comment.opening, asciiChar]))
  have hlt : bytes.count 0x0A < bytes.length := by
    refine lt_of_le_of_ne List.count_le_length fun h => ?_
    exact absurd (List.count_eq_length.mp h _ hslash) (by decide)
  show (LineIndex.ofText (decodeLossy bytes)).lineOf c.offset ≤ bytes.length
  omega

end ErrorDocs
