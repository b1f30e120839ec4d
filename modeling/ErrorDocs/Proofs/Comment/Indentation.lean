import ErrorDocs.Proofs.Comment.Concatenation
import ErrorDocs.Proofs.Comment.Content
import ErrorDocs.Proofs.Comment.Spelling
import Mathlib.Data.List.Forall2

/-!
# Indentation

Blanks at the start of a line do not matter, whether the line is part of a comment or not. A text
and the same text with other blanks at its line starts are two spellings of one text whose line
feeds carry the blanks with them, so that the comments of both are found at once.

* `Text.reindent` puts blanks at the start of every line, for each line its own.
* `Text.Spaced`: a character and the blanks that come after it, if it ends a line.
* `Comment.content_write`: the content of a comment does not depend on the blanks.
* **`extractDocs_reindent`**: nor does the documentation of a text.
-/

namespace ErrorDocs

namespace Text

/-- Blanks that may stand at the start of a line. -/
def IsIndent (w : List Char) : Prop := ∀ c ∈ w, isBlank c = true ∧ c ≠ '\n'

/-- A text with `indent i` put at the start of its `i`th line, counted from 0. -/
def reindent (indent : Nat → List Char) (s : List Char) : List Char :=
  joinLines ((splitLines s).mapIdx fun i l => indent i ++ l)

theorem IsIndent.isBlank {w : List Char} (h : IsIndent w) : ∀ c ∈ w, Text.isBlank c = true :=
  fun c hc => (h c hc).1

theorem IsIndent.not_newline {w : List Char} (h : IsIndent w) : '\n' ∉ w :=
  fun hn => (h _ hn).2 rfl

theorem isIndent_nil : IsIndent [] := by simp [IsIndent]

/-! ## Characters with blanks after them -/

/-- A character and the blanks that come after it, of which there are none unless it ends a
line. -/
structure Spaced where
  char : Char
  space : List Char
  isIndent : IsIndent space
  space_eq_nil : char ≠ '\n' → space = []
deriving DecidableEq

namespace Spaced

/-- A character with nothing after it. -/
def bare (c : Char) : Spaced := ⟨c, [], isIndent_nil, fun _ => rfl⟩

/-- The blanks after a character that are written. -/
def kept (keep : Bool) (x : Spaced) : List Char := if keep then x.space else []

/-- A character as it is written, with or without the blanks after it. -/
def write (keep : Bool) (x : Spaced) : List Char := x.char :: x.kept keep

theorem isIndent_kept (keep : Bool) (x : Spaced) : IsIndent (x.kept keep) := by
  cases keep with
  | false => exact isIndent_nil
  | true => exact x.isIndent

theorem write_of_ne (keep : Bool) {x : Spaced} (h : x.char ≠ '\n') : x.write keep = [x.char] := by
  cases keep with
  | false => rfl
  | true => rw [write, kept, if_pos rfl, x.space_eq_nil h]

theorem eq_bare {x : Spaced} (h : x.char ≠ '\n') : x = bare x.char := by
  obtain ⟨c, space, isIndent, hnil⟩ := x
  obtain rfl := hnil h
  rfl

theorem ne_newline_of_isBlank {c : Char} (h : Text.isBlank c = false) : c ≠ '\n' := by
  rintro rfl
  exact absurd h (by decide)

/-- Characters that are no blanks are written as they are. -/
theorem isFaithful_write (keep : Bool) {cs : List Char} (h : ∀ c ∈ cs, Text.isBlank c = false) :
    IsFaithful (write keep) char (cs.map bare) where
  spell_eq x hx := by
    obtain ⟨c, hc, rfl⟩ := List.mem_map.mp hx
    exact write_of_ne keep (ne_newline_of_isBlank (h c hc))
  inj x hx y hy hxy := by
    obtain ⟨c, -, rfl⟩ := List.mem_map.mp hx
    obtain ⟨d, -, rfl⟩ := List.mem_map.mp hy
    exact congrArg bare hxy
  ne_nil x _ := List.cons_ne_nil _ _
  not_mem x hx b hb hmem := by
    obtain ⟨y, hy, rfl⟩ := List.mem_map.mp hmem
    obtain ⟨c, hc, rfl⟩ := List.mem_map.mp hy
    rcases List.mem_cons.mp hb with heq | hb
    · have hc' : x.char = c := heq.symm
      refine hx (List.mem_map.mpr ⟨c, hc, ?_⟩)
      rw [← hc', ← eq_bare (hc' ▸ ne_newline_of_isBlank (h c hc))]
    · have hblank := (x.isIndent_kept keep).isBlank _ hb
      rw [show (bare c).char = c from rfl, h c hc] at hblank
      cases hblank

end Spaced

/-! ## Texts with blanks at their line starts -/

theorem joinLines_append_cons (w l : List Char) (ls : List (List Char)) :
    joinLines ((w ++ l) :: ls) = w ++ joinLines (l :: ls) := by
  cases ls with
  | nil => simp
  | cons l' ls => rw [joinLines_cons_cons, joinLines_cons_cons, List.append_assoc]

/-- **A text and its indented form are two spellings of one text.** -/
theorem exists_spaced (s : List Char) {indent : Nat → List Char} (h : ∀ i, IsIndent (indent i)) :
    ∃ xs : List Spaced, s = xs.flatMap (Spaced.write false) ∧
      reindent indent s = indent 0 ++ xs.flatMap (Spaced.write true) := by
  induction s generalizing indent with
  | nil => exact ⟨[], rfl, by simp [reindent]⟩
  | cons c s ih =>
    obtain ⟨l, ls, hl⟩ := List.exists_cons_of_ne_nil (splitLines_ne_nil s)
    by_cases hc : c = '\n'
    · subst hc
      obtain ⟨xs, hs, hxs⟩ := ih fun i => h (i + 1)
      refine ⟨⟨'\n', indent 1, h 1, by simp⟩ :: xs, by rw [List.flatMap_cons, ← hs]; rfl, ?_⟩
      rw [reindent, hl, List.mapIdx_cons] at hxs
      rw [reindent, splitLines_cons, if_pos rfl, hl, List.mapIdx_cons, List.mapIdx_cons,
        joinLines_cons_cons, hxs]
      simp [Spaced.write, Spaced.kept]
    · obtain ⟨xs, hs, hxs⟩ := ih h
      refine ⟨Spaced.bare c :: xs, by rw [List.flatMap_cons, ← hs]; rfl, ?_⟩
      rw [reindent, hl, List.mapIdx_cons, joinLines_append_cons, List.append_cancel_left_eq] at hxs
      rw [reindent, splitLines_cons, if_neg hc, hl, List.modifyHead_cons, List.mapIdx_cons,
        joinLines_append_cons, show c :: l = [c] ++ l from rfl, joinLines_append_cons, hxs]
      rfl

end Text

/-! ## Content -/

namespace Comment

open Text

theorem contentLine_indent {w : List Char} (h : IsIndent w) (l : List Char) :
    contentLine (w ++ l) = contentLine l := by
  have htrim : trimStart (dropReturn (w ++ l)) = trimStart (dropReturn l) := by
    rcases List.eq_nil_or_concat' l with rfl | ⟨l, c, rfl⟩
    · rw [List.append_nil]
      have hblank : ∀ c ∈ dropReturn w, Text.isBlank c = true :=
        fun c hc => h.isBlank c ((dropReturn_isPrefix w).subset hc)
      have := trimStart_blank_append hblank []
      rwa [List.append_nil] at this
    · have hreturn : dropReturn (w ++ (l ++ [c])) = w ++ dropReturn (l ++ [c]) := by
        unfold dropReturn
        rw [← List.append_assoc, List.getLast?_concat, List.getLast?_concat, List.dropLast_concat,
          List.dropLast_concat]
        split_ifs
        · rfl
        · rw [List.append_assoc]
      rw [hreturn, trimStart_blank_append h.isBlank]
  rw [contentLine, contentLine, htrim]

/-- The lines of a text differ by blanks at their start, the first one not at all. -/
theorem exists_splitLines_write (keep : Bool) (xs : List Spaced) :
    ∃ l ls ls', splitLines (xs.map Spaced.char) = l :: ls ∧
      splitLines (xs.flatMap (Spaced.write keep)) = l :: ls' ∧
      ls'.map contentLine = ls.map contentLine := by
  induction xs with
  | nil => exact ⟨[], [], [], rfl, rfl, rfl⟩
  | cons x xs ih =>
    obtain ⟨l, ls, ls', hl, hl', hmap⟩ := ih
    rw [List.map_cons, List.flatMap_cons]
    by_cases hx : x.char = '\n'
    · have hspace := splitLines_append_of_not_mem (x.isIndent_kept keep).not_newline
        (xs.flatMap (Spaced.write keep))
      refine ⟨[], l :: ls, (x.kept keep ++ l) :: ls', ?_, ?_, ?_⟩
      · rw [splitLines_cons, if_pos hx, hl]
      · rw [Spaced.write, List.cons_append, splitLines_cons, if_pos hx, hspace, hl',
          List.modifyHead_cons]
      · rw [List.map_cons, List.map_cons, contentLine_indent (x.isIndent_kept keep), hmap]
    · refine ⟨x.char :: l, ls, ls', ?_, ?_, hmap⟩
      · rw [splitLines_cons, if_neg hx, hl, List.modifyHead_cons]
      · rw [Spaced.write_of_ne keep hx, List.singleton_append, splitLines_cons, if_neg hx, hl',
          List.modifyHead_cons]

theorem map_contentLine_write (keep : Bool) {w : List Char} (hw : IsIndent w) (xs : List Spaced) :
    (splitLines (w ++ xs.flatMap (Spaced.write keep))).map contentLine =
      (splitLines (xs.map Spaced.char)).map contentLine := by
  obtain ⟨l, ls, ls', hl, hl', hmap⟩ := exists_splitLines_write keep xs
  rw [splitLines_append_of_not_mem hw.not_newline, hl', hl, List.modifyHead_cons, List.map_cons,
    List.map_cons, contentLine_indent hw, hmap]

/-- What is written for blanks is blank. -/
theorem isBlank_of_mem_write {keep : Bool} {xs : List Spaced}
    (h : ∀ x ∈ xs, Text.isBlank x.char = true) :
    ∀ c ∈ xs.flatMap (Spaced.write keep), Text.isBlank c = true := by
  intro c hc
  obtain ⟨x, hx, hcx⟩ := List.mem_flatMap.mp hc
  rcases List.mem_cons.mp hcx with rfl | hcx
  · exact h x hx
  · exact (x.isIndent_kept keep).isBlank c hcx

/-- The content lines that are left when the blanks at the end are gone. -/
theorem map_contentLine_trimEnd_write (keep : Bool) {w : List Char} (hw : IsIndent w)
    (xs : List Spaced) :
    (splitLines (trimEnd (w ++ xs.flatMap (Spaced.write keep)))).map contentLine =
      (splitLines ((dropEndWhile (Text.isBlank ·.char) xs).map Spaced.char)).map contentLine := by
  obtain ⟨zs, hzs, hxs⟩ := exists_eq_dropEndWhile_append (Text.isBlank ·.char) xs
  set ys := dropEndWhile (Text.isBlank ·.char) xs with hys
  have htrim : trimEnd (w ++ xs.flatMap (Spaced.write keep)) =
      trimEnd (w ++ ys.flatMap (Spaced.write keep)) := by
    rw [hxs, List.flatMap_append, ← List.append_assoc,
      trimEnd_append_blank (isBlank_of_mem_write hzs)]
  rw [htrim]
  rcases List.eq_nil_or_concat' ys with hnil | ⟨ys', y, hy⟩
  · -- nothing but blanks
    have hblank := trimEnd_append_blank hw.isBlank []
    rw [List.nil_append] at hblank
    rw [hnil, List.flatMap_nil, List.append_nil, hblank]
    rfl
  · -- the last character is not a blank, and nothing comes after it
    have hlast : (dropEndWhile (Text.isBlank ·.char) xs).getLast? = some y := by
      rw [← hys, hy, List.getLast?_concat]
    have hsolid := getLast?_dropEndWhile hlast
    rw [trimEnd_eq_self_iff.mpr, map_contentLine_write keep hw]
    intro c hc
    rw [hy, List.flatMap_append, List.flatMap_singleton,
      Spaced.write_of_ne keep (Spaced.ne_newline_of_isBlank hsolid), ← List.append_assoc,
      List.getLast?_concat] at hc
    exact Option.some.inj hc ▸ hsolid

/-- **The content of a comment does not depend on the blanks at its line starts.** -/
theorem content_write (inner : List Spaced) :
    content (opening ++ inner.flatMap (Spaced.write true) ++ closing) =
      content (opening ++ inner.flatMap (Spaced.write false) ++ closing) := by
  have hsame {w w' : List Char} (hw : IsIndent w) (hw' : IsIndent w') (xs : List Spaced) :
      (splitLines (trimEnd (w ++ xs.flatMap (Spaced.write true)))).map contentLine =
        (splitLines (trimEnd (w' ++ xs.flatMap (Spaced.write false)))).map contentLine := by
    rw [map_contentLine_trimEnd_write true hw, map_contentLine_trimEnd_write false hw']
  rw [content, content, inside_block, inside_block]
  cases inner with
  | nil => rfl
  | cons x xs =>
    rw [List.flatMap_cons, List.flatMap_cons, Spaced.write, Spaced.write, List.cons_append,
      List.cons_append, dropBlank, dropBlank]
    split_ifs
    · exact hsame (x.isIndent_kept true) (x.isIndent_kept false) xs
    · have := hsame isIndent_nil isIndent_nil (x :: xs)
      simpa only [List.nil_append, List.flatMap_cons, Spaced.write, List.cons_append] using this

end Comment

/-! ## Documentation -/

open Text

/-- The delimiters of a comment, with nothing after their characters. -/
def spacedDelimiters : Delimiters Spaced := Comment.delimiters.map Spaced.bare

theorem isFaithful_spacedDelimiters (keep : Bool) :
    IsFaithful (Spaced.write keep) Spaced.char
      (spacedDelimiters.opening ++ spacedDelimiters.closing) := by
  have hunits : spacedDelimiters.opening ++ spacedDelimiters.closing =
      (Comment.delimiters.opening ++ Comment.delimiters.closing).map Spaced.bare :=
    List.map_append.symm
  rw [hunits]
  exact Spaced.isFaithful_write keep (List.forall_iff_forall_mem.mp (by decide))

theorem extent_lineWidth_of_not_mem {s : List Char} (h : '\n' ∉ s) : extent lineWidth s = 0 := by
  rw [extent_lineWidth, List.count_eq_zero_of_not_mem h]

/-- The comments of a text are on the same lines, with or without the blanks. -/
theorem findBlocks_write (keep : Bool) (xs : List Spaced) :
    findBlocks lineWidth Comment.delimiters (xs.flatMap (Spaced.write keep)) =
      (findBlocks (lineWidth ·.char) spacedDelimiters xs).map fun b =>
        ⟨b.offset, b.raw.flatMap (Spaced.write keep)⟩ := by
  have hwidth : (fun x : Spaced => extent lineWidth (x.write keep)) = (lineWidth ·.char) := by
    funext x
    rw [Spaced.write, extent_cons,
      extent_lineWidth_of_not_mem (x.isIndent_kept keep).not_newline, Nat.add_zero]
  rw [← hwidth]
  exact findBlocks_flatMap (isFaithful_spacedDelimiters keep) (by decide) lineWidth xs

/-- Blanks before a text do not move its comments to other lines. -/
theorem findBlocks_indent {w : List Char} (h : IsIndent w) (s : List Char) :
    findBlocks lineWidth Comment.delimiters (w ++ s) =
      findBlocks lineWidth Comment.delimiters s := by
  have hsolid : ∀ c ∈ w, c ∉ Comment.delimiters.opening := by
    intro c hc hmem
    have hopening : ∀ c ∈ Comment.delimiters.opening, Text.isBlank c = false :=
      List.forall_iff_forall_mem.mp (by decide)
    exact Bool.noConfusion ((h.isBlank c hc).symm.trans (hopening c hmem))
  have hno : ¬ Comment.delimiters.opening <:+: w := fun hfound =>
    hsolid '/' (hfound.subset (by decide)) (by decide)
  have hnone : nextBlock? Comment.delimiters w = none := by
    rw [nextBlock?_eq_bind, breakOn?_eq_none_iff.mpr hno, Option.bind_none]
  rw [findBlocks_append (.none hno) (fun c hc => hsolid c (List.mem_of_getLast? hc)),
    findBlocks_of_none hnone, extent_lineWidth_of_not_mem h.not_newline, List.nil_append]
  have hshift : Block.shift (α := Char) 0 = id := by
    funext b
    simp [Block.shift]
  rw [hshift, List.map_id]

/-- **Indentation does not matter.** Whatever blanks are put at the starts of the lines of a text,
it has as many comments as before, and each of them is on the same line and says the same. -/
theorem extractDocs_reindent (path : Path) (text : List Char) (indent : Nat → List Char)
    (h : ∀ i, ∀ c ∈ indent i, Text.isBlank c = true ∧ c ≠ '\n') :
    List.Forall₂ (fun doc doc' : DocBlock => doc'.startLine = doc.startLine ∧
        doc'.description = doc.description ∧ doc'.tags = doc.tags)
      (extractDocs path text) (extractDocs path (reindent indent text)) := by
  obtain ⟨xs, htext, hindented⟩ := exists_spaced text h
  rw [hindented, extractDocs_eq_map, extractDocs_eq_map, findBlocks_indent (h 0), htext,
    findBlocks_write, findBlocks_write, List.map_map, List.map_map, List.forall₂_map_left_iff,
    List.forall₂_map_right_iff, List.forall₂_same]
  intro b hb
  obtain ⟨-, inner, -, -, -, hraw, -⟩ := exists_eq_append_of_mem_findBlocks hb
  have hcontent : Comment.content (b.raw.flatMap (Spaced.write true)) =
      Comment.content (b.raw.flatMap (Spaced.write false)) := by
    rw [hraw, flatMap_block (isFaithful_spacedDelimiters true),
      flatMap_block (isFaithful_spacedDelimiters false)]
    exact Comment.content_write inner
  simp only [Function.comp_apply, docOf, hcontent, and_self]

/-- More and more tabs, and a carriage return after them. -/
def stairs (i : Nat) : List Char := List.replicate i '\t' ++ ['\r']

theorem extractDocs_reindent_stairs :
    (∀ i, ∀ c ∈ stairs i, Text.isBlank c = true ∧ c ≠ '\n') ∧
      List.Forall₂ (fun doc doc' : DocBlock => doc'.startLine = doc.startLine ∧
          doc'.description = doc.description ∧ doc'.tags = doc.tags)
        (extractDocs ⟨[]⟩ ['/', '*', '*', '\n', '@', 'a', '\n', '*', '/'])
        (extractDocs ⟨[]⟩ ['\r', '/', '*', '*', '\n', '\t', '\r', '@', 'a', '\n', '\t', '\t', '\r',
          '*', '/']) := by
  have hstairs : ∀ i, ∀ c ∈ stairs i, Text.isBlank c = true ∧ c ≠ '\n' := by
    intro i c hc
    rcases List.mem_append.mp hc with hc | hc
    · obtain rfl := List.eq_of_mem_replicate hc
      decide
    · obtain rfl := List.mem_singleton.mp hc
      decide
  exact ⟨hstairs, extractDocs_reindent ⟨[]⟩ ['/', '*', '*', '\n', '@', 'a', '\n', '*', '/'] stairs
    hstairs⟩

end ErrorDocs
