import ErrorDocs.Proofs.Comment.Doc
import ErrorDocs.Proofs.Text.Lines
import Mathlib.Data.List.Forall2

/-!
# Where comments start

The line that is given for a comment is the one that its opening delimiter stands on: that line of
the text has the delimiter in it, as far behind the start of the line as the offset of the comment
says.

* `OpensAt`: a line with an opening delimiter at some offset; `opensAt_append` says which it is.
* `pairwise_startLine`: the lines of comments do not go down.
* **`startLine_points_at_opening`**: the lines of the comments of a text.
-/

namespace ErrorDocs

/-! ## The line of an opening delimiter -/

/-- The offset at which a line of a text starts, lines being counted from 0. -/
def lineStart (text : List Char) (n : Nat) : Nat :=
  extent Char.utf8Size (((Text.splitLines text).take n).flatMap (· ++ ['\n']))

/-- An opening delimiter stands on a line of a text, lines being counted from 1, at a column that
makes up the offset together with the start of the line. -/
def OpensAt (text : List Char) (number offset : Nat) : Prop :=
  ∃ n line before after, number = n + 1 ∧ (Text.splitLines text)[n]? = some line ∧
    line = before ++ Comment.opening ++ after ∧
    offset = lineStart text n + extent Char.utf8Size before

/-- An opening delimiter stands on the line that the text before it ends with. -/
theorem opensAt_append (before after : List Char) :
    OpensAt (before ++ (Comment.opening ++ after)) (before.count '\n' + 1)
      (extent Char.utf8Size before) := by
  obtain ⟨init, l, l', rest, hbefore, hafter, hlines⟩ :=
    Text.splitLines_append before (Comment.opening ++ after)
  have hlength : before.count '\n' = init.length := by
    have := Text.length_splitLines before
    rw [hbefore, List.length_append, List.length_singleton] at this
    omega
  have hjoin : before = init.flatMap (· ++ ['\n']) ++ l := by
    rw [← Text.joinLines_splitLines before, hbefore, Text.joinLines_concat]
  -- the delimiter has no line feed in it, so that it stands on one line
  obtain ⟨l'', hl''⟩ : ∃ l'', l' = Comment.opening ++ l'' := by
    rw [Text.splitLines_append_of_not_mem (by decide)] at hafter
    obtain ⟨l'', rest', hsplit⟩ := List.exists_cons_of_ne_nil (Text.splitLines_ne_nil after)
    rw [hsplit, List.modifyHead_cons] at hafter
    exact ⟨l'', (List.cons.inj hafter).1.symm⟩
  refine ⟨init.length, l ++ l', l, l'', by rw [hlength], ?_, by rw [hl'', List.append_assoc], ?_⟩
  · rw [hlines, List.getElem?_append_right (Nat.le_refl _), Nat.sub_self, List.getElem?_cons_zero]
  · rw [lineStart, hlines, List.take_left, ← extent_append, ← hjoin]

theorem opensAt_of_mem_blocks {text : List Char} {b : Block Char} (hb : b ∈ Comment.blocks text) :
    OpensAt text ((LineIndex.ofText text).lineOf b.offset) b.offset := by
  obtain ⟨before, inner, rest, htext, hoffset, hraw, -⟩ := Comment.exists_of_mem_blocks hb
  have hcut : text = before ++ (Comment.opening ++ (inner ++ Comment.closing ++ rest)) := by
    rw [htext, hraw]
    simp
  rw [hoffset, hcut, LineIndex.lineOf_extent]
  exact opensAt_append before _

theorem pairwise_startLine (path : Path) (text : List Char) :
    (extractDocs path text).Pairwise fun a b => a.startLine ≤ b.startLine := by
  have hbreaks := (LineIndex.pairwise_breaks_ofText text).imp Nat.le_of_lt
  rw [extractDocs, List.pairwise_map]
  exact (pairwise_offset_findBlocks text).imp fun hab => LineIndex.lineOf_le_lineOf hbreaks hab

/-- **The line of a comment is the line of its opening delimiter.** The breaks of a text are the
positions of its line feeds among its bytes, in order. Among ascending breaks, the line of an
offset is one more than the number of breaks below it, so that lines do not go down. Each comment
of a text opens on the line that is given for it, and later ones on no earlier line. -/
theorem startLine_points_at_opening (path : Path) (text : List Char) :
    ((LineIndex.ofText text).breaks.toList.Pairwise (· < ·) ∧
        ∀ i, i ∈ (LineIndex.ofText text).breaks.toList ↔ (Utf8.encode text)[i]? = some 0x0A) ∧
      (∀ index : LineIndex, index.breaks.toList.Pairwise (· ≤ ·) →
        (∀ offset, index.lineOf offset = 1 + index.breaks.toList.countP (· < offset)) ∧
          ∀ x y, x ≤ y → index.lineOf x ≤ index.lineOf y) ∧
      List.Forall₂
        (fun doc b => doc.raw = String.ofList b.raw ∧ OpensAt text doc.startLine b.offset)
        (extractDocs path text) (Comment.blocks text) ∧
      (extractDocs path text).Pairwise fun a b => a.startLine ≤ b.startLine := by
  refine ⟨⟨LineIndex.pairwise_breaks_ofText text, fun i => LineIndex.mem_breaks_ofText_iff⟩,
    fun index h => ⟨LineIndex.lineOf_eq h, fun x y => LineIndex.lineOf_le_lineOf h⟩, ?_,
    pairwise_startLine path text⟩
  rw [extractDocs, List.forall₂_map_left_iff, List.forall₂_same]
  exact fun b hb => ⟨rfl, opensAt_of_mem_blocks hb⟩

/-- A comment on the second line, behind a character of two bytes. -/
def accented : List Char := ['\u00e9', '\n', ' ', '/', '*', '*', '*', '/']

/-- A break that is given twice counts twice, and a break at the offset itself does not count. -/
theorem startLine_points_at_opening_accented :
    [1, 1, 4].Pairwise (· ≤ ·) ∧ LineIndex.lineOf ⟨#[1, 1, 4]⟩ 4 = 3 ∧
      Comment.blocks accented = [⟨4, Comment.opening ++ Comment.closing⟩] ∧
      (extractDocs ⟨[]⟩ accented).map (·.startLine) = [2] ∧ OpensAt accented 2 4 := by
  have hblocks : Comment.blocks accented = [⟨4, Comment.opening ++ Comment.closing⟩] := by
    decide +kernel
  have hdocs : extractDocs ⟨[]⟩ accented = [⟨⟨[]⟩, 2, "/***/", "", []⟩] := by decide +kernel
  obtain ⟨-, hlines, hopens, -⟩ := startLine_points_at_opening ⟨[]⟩ accented
  refine ⟨by decide, ?_, hblocks, by rw [hdocs]; rfl, ?_⟩
  · rw [(hlines ⟨#[1, 1, 4]⟩ (by decide)).1]
    rfl
  · rw [hblocks, hdocs] at hopens
    exact (List.forall₂_cons.mp hopens).1.2

end ErrorDocs
