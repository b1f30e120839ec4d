import ErrorDocs.Proofs.Comment.Concatenation

/-!
# Text added at the end

Text that is added at the end of a text may complete a delimiter or close a comment there, but it
does not reach the comments that the text has already. It adds those that are found in the part
behind the last of them, read on into the new text.

* `exists_findBlocks_append`: the blocks of a text that goes on, whatever it goes on with.
* `exists_extractDocs_append`: its documentation.
* **`extractDocs_prefix_append`**: what is documented stays.
-/

namespace ErrorDocs

variable {α : Type} [DecidableEq α] {d : Delimiters α}

/-- The blocks of a text that goes on are its own, and then those of what it leaves unread with the
rest put to it. -/
theorem exists_findBlocks_append (d : Delimiters α) (xs : List α) :
    ∃ seen unread, xs = seen ++ unread ∧ nextBlock? d unread = none ∧
      ∀ (width : α → Nat) (ys : List α), findBlocks width d (xs ++ ys) =
        findBlocks width d xs ++
          (findBlocks width d (unread ++ ys)).map (Block.shift (extent width seen)) := by
  induction xs using blockInduction d with
  | none xs h =>
    have hshift (bs : List (Block α)) : bs.map (Block.shift 0) = bs :=
      List.map_id'' (fun b => by simp [Block.shift]) bs
    refine ⟨[], xs, rfl, h, fun width ys => ?_⟩
    rw [findBlocks_of_none h, List.nil_append, extent_nil, hshift]
  | some xs gap inner rest h ih =>
    obtain ⟨seen, unread, hrest, hnone, hblocks⟩ := ih
    have hxs := eq_append_of_nextBlock? h
    refine ⟨gap ++ (d.opening ++ inner ++ d.closing) ++ seen, unread, ?_, hnone,
      fun width ys => ?_⟩
    · rw [hxs, hrest, ← List.append_assoc]
    · rw [findBlocks_of_some h, findBlocks_of_some (nextBlock?_append_of_some h ys), hblocks,
        extent_append width _ seen]
      simp [Block.shift, Function.comp_def, Nat.add_assoc]

/-- The documentation of a text that goes on. The part that is left unread has no comment of its
own, and its lines are counted on from what comes before it. -/
theorem exists_extractDocs_append (path : Path) (t : List Char) :
    ∃ seen unread, t = seen ++ unread ∧ extractDocs path unread = [] ∧
      ∀ s, extractDocs path (t ++ s) = extractDocs path t ++
        (extractDocs path (unread ++ s)).map
          fun doc => { doc with startLine := doc.startLine + seen.count '\n' } := by
  obtain ⟨seen, unread, ht, hnone, hblocks⟩ := exists_findBlocks_append Comment.delimiters t
  refine ⟨seen, unread, ht, ?_, fun s => ?_⟩
  · rw [extractDocs_eq_map, findBlocks_of_none hnone, List.map_nil]
  · rw [extractDocs_eq_map, extractDocs_eq_map, extractDocs_eq_map, hblocks, List.map_append,
      List.map_map, List.map_map]
    refine congrArg _ (List.map_congr_left fun block _ => ?_)
    have hline : seen.count '\n' + block.offset + 1 = block.offset + 1 + seen.count '\n' := by omega
    simp only [Function.comp_apply, Block.shift, docOf, extent_lineWidth, hline]

/-- **What is documented stays** when text is added at the end, also where the text ends inside a
comment or inside a delimiter. -/
theorem extractDocs_prefix_append (path : Path) (t s : List Char) :
    extractDocs path t <+: extractDocs path (t ++ s) := by
  obtain ⟨seen, unread, -, -, hdocs⟩ := exists_extractDocs_append path t
  rw [hdocs s]
  exact List.prefix_append _ _

end ErrorDocs
