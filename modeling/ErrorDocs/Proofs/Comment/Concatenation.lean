import ErrorDocs.Proofs.Comment.Doc

/-!
# Comments of two texts put together

The comments of two texts that are put together are those of the one and then those of the other,
if no comment is left open at the seam and no delimiter lies across it. The lines of the second
text are counted on from the first.

* `Settled`: no block is left open; `settled_of_lt_lastEnd` reads this off the offsets of blocks.
* **`findBlocks_append`**: the blocks of two texts put together.
* **`extractDocs_append`**: their documentation.
-/

namespace ErrorDocs

variable {α : Type} [DecidableEq α] {width : α → Nat} {d : Delimiters α}

/-- Texts that open no block after the last one that they close. -/
inductive Settled (d : Delimiters α) : List α → Prop where
  | none {xs : List α} (h : ¬ d.opening <:+: xs) : Settled d xs
  | some {xs gap inner rest : List α} (h : nextBlock? d xs = some (gap, inner, rest))
      (hrest : Settled d rest) : Settled d xs

/-- The width of a text up to the end of its last block. -/
def lastEnd (width : α → Nat) (d : Delimiters α) (xs : List α) : Nat :=
  ((findBlocks width d xs).getLast?.map fun b => b.offset + extent width b.raw).getD 0

theorem lastEnd_of_some {xs gap inner rest : List α}
    (h : nextBlock? d xs = some (gap, inner, rest)) :
    lastEnd width d xs =
      extent width (gap ++ (d.opening ++ inner ++ d.closing)) + lastEnd width d rest := by
  rw [lastEnd, lastEnd, findBlocks_of_some h]
  cases hb : (findBlocks width d rest).getLast? with
  | none =>
    rw [List.getLast?_eq_none_iff] at hb
    simp [hb]
  | some b => simp [List.getLast?_cons, hb, Block.shift, Nat.add_assoc]

/-- A text is settled if every opening delimiter starts before the end of its last block. -/
theorem settled_of_lt_lastEnd {xs : List α}
    (h : ∀ u v, xs = u ++ d.opening ++ v → extent width u < lastEnd width d xs) :
    Settled d xs := by
  induction xs using blockInduction d with
  | none xs hnext =>
    refine .none ?_
    rintro ⟨u, v, huv⟩
    have := h u v huv.symm
    rw [lastEnd, findBlocks_of_none hnext] at this
    simp at this
  | some xs gap inner rest hnext ih =>
    refine .some hnext (ih fun u v huv => ?_)
    have hxs := eq_append_of_nextBlock? hnext
    have := h (gap ++ (d.opening ++ inner ++ d.closing) ++ u) v (by rw [hxs, huv]; simp)
    rw [lastEnd_of_some hnext, extent_append] at this
    omega

/-- The search meets the same next block when more text follows. -/
theorem nextBlock?_append_of_some {xs gap inner rest : List α}
    (h : nextBlock? d xs = some (gap, inner, rest)) (ys : List α) :
    nextBlock? d (xs ++ ys) = some (gap, inner, rest ++ ys) := by
  obtain ⟨body, hopen, hclose⟩ := nextBlock?_eq_some_iff.mp h
  exact nextBlock?_eq_some_iff.mpr ⟨body ++ ys, Text.breakOn?_append_of_some hopen ys,
    Text.breakOn?_append_of_some hclose ys⟩

theorem nextBlock?_append_of_not_infix {xs : List α} (h : ¬ d.opening <:+: xs)
    (hseam : ∀ x, xs.getLast? = some x → x ∉ d.opening) (ys : List α) :
    nextBlock? d (xs ++ ys) = (nextBlock? d ys).map fun p => (xs ++ p.1, p.2) := by
  rw [nextBlock?_eq_bind, nextBlock?_eq_bind,
    Text.breakOn?_append_of_none (Text.breakOn?_eq_none_iff.mpr h) hseam]
  cases Text.breakOn? d.opening ys with
  | none => rfl
  | some p =>
    rw [Option.map_some, Option.bind_some, Option.bind_some, Option.map_map]
    rfl

/-- **The blocks of two texts put together.** -/
theorem findBlocks_append {xs : List α} (h : Settled d xs)
    (hseam : ∀ x, xs.getLast? = some x → x ∉ d.opening) (ys : List α) :
    findBlocks width d (xs ++ ys) =
      findBlocks width d xs ++ (findBlocks width d ys).map (Block.shift (extent width xs)) := by
  induction h with
  | @none xs h =>
    have hxs : nextBlock? d xs = none := by
      rw [nextBlock?_eq_bind, Text.breakOn?_eq_none_iff.mpr h, Option.bind_none]
    have hnext := nextBlock?_append_of_not_infix h hseam ys
    rw [findBlocks_of_none hxs, List.nil_append]
    cases hys : nextBlock? d ys with
    | none =>
      rw [hys, Option.map_none] at hnext
      rw [findBlocks_of_none hys, findBlocks_of_none hnext, List.map_nil]
    | some p =>
      obtain ⟨gap, inner, rest⟩ := p
      rw [hys, Option.map_some] at hnext
      rw [findBlocks_of_some hys, findBlocks_of_some hnext]
      simp [Block.shift, Function.comp_def, Nat.add_assoc]
  | @some xs gap inner rest hnext hrest ih =>
    have hxs := eq_append_of_nextBlock? hnext
    have hseam' : ∀ x, rest.getLast? = some x → x ∉ d.opening := by
      intro x hx
      refine hseam x ?_
      rw [hxs, List.getLast?_append, hx, Option.some_or]
    have hall : extent width xs =
        extent width (gap ++ (d.opening ++ inner ++ d.closing)) + extent width rest := by
      rw [hxs, extent_append]
    rw [findBlocks_of_some hnext, findBlocks_of_some (nextBlock?_append_of_some hnext ys),
      ih hseam', hall]
    simp [Block.shift, Function.comp_def, Nat.add_assoc]

/-- **The documentation of two texts put together.** The first ends with a line feed, if it is not
empty, and none of its opening delimiters starts at or after the end of its last comment. -/
theorem extractDocs_append (path : Path) (a b : List Char)
    (hseam : a = [] ∨ a.getLast? = some '\n')
    (hlast : ∀ u v, a = u ++ Comment.opening ++ v →
      extent Char.utf8Size u < lastEnd Char.utf8Size Comment.delimiters a) :
    extractDocs path (a ++ b) = extractDocs path a ++
      (extractDocs path b).map fun doc => { doc with startLine := doc.startLine + a.count '\n' } := by
  have hseam' : ∀ x, a.getLast? = some x → x ∉ Comment.delimiters.opening := by
    intro x hx
    rcases hseam with rfl | hend
    · simp at hx
    · rw [hend] at hx
      obtain rfl := Option.some.inj hx
      decide
  rw [extractDocs_eq_map, extractDocs_eq_map, extractDocs_eq_map,
    findBlocks_append (settled_of_lt_lastEnd hlast) hseam', List.map_append, List.map_map,
    List.map_map]
  refine congrArg _ (List.map_congr_left fun block _ => ?_)
  have hline : a.count '\n' + block.offset + 1 = block.offset + 1 + a.count '\n' := by omega
  simp only [Function.comp_apply, Block.shift, docOf, extent_lineWidth, hline]

/-- A line with a comment that is not ASCII. -/
def commentLine : List Char := ['/', '*', '*', '\u00e9', '*', '/', '\n']

theorem extractDocs_append_commentLine :
    commentLine.getLast? = some '\n' ∧
      extractDocs ⟨[]⟩ (commentLine ++ commentLine) = extractDocs ⟨[]⟩ commentLine ++
        (extractDocs ⟨[]⟩ commentLine).map fun doc =>
          { doc with startLine := doc.startLine + commentLine.count '\n' } := by
  refine ⟨rfl, extractDocs_append ⟨[]⟩ _ _ (.inr rfl) fun u v huv => ?_⟩
  cases u with
  | nil => decide +kernel
  | cons c u =>
    -- there is no second opening delimiter
    have hno : ¬ Comment.opening <:+: commentLine.tail := by decide
    exact absurd ⟨u, v, by rw [huv]; rfl⟩ hno

end ErrorDocs
