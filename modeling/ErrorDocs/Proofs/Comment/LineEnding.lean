import ErrorDocs.Proofs.Comment.Content
import ErrorDocs.Proofs.Comment.Doc
import ErrorDocs.Proofs.Comment.Segments
import ErrorDocs.Proofs.Comment.Spelling

/-!
# Line endings

A text in which every line feed gets a carriage return before it has the same comments, on the same
lines and with the same content. The one difference on the way is after an opening delimiter that
ends its line: the blank that is dropped there is the line feed or only the carriage return, and
the line that is left over in the second case is empty.

* `Text.withReturns` puts a carriage return before every line feed.
* `findBlocks_withReturns`: the blocks of such a text.
* `parseLines_nil_cons`: an empty line at the start does not matter.
* **`extractDocs_withReturns`**: its documentation.
-/

namespace ErrorDocs

namespace Text

/-- A character with a carriage return before it, if it is a line feed. -/
def withReturn (c : Char) : List Char := if c = '\n' then ['\r', '\n'] else [c]

/-- A text with a carriage return before every line feed. -/
def withReturns (s : List Char) : List Char := s.flatMap withReturn

@[simp]
theorem withReturns_nil : withReturns [] = [] := rfl

theorem withReturns_cons_newline (s : List Char) :
    withReturns ('\n' :: s) = '\r' :: '\n' :: withReturns s := rfl

theorem withReturns_cons {c : Char} (h : c ≠ '\n') (s : List Char) :
    withReturns (c :: s) = c :: withReturns s := by
  rw [withReturns, List.flatMap_cons, withReturn, if_neg h]
  rfl

@[simp]
theorem withReturns_append (s t : List Char) :
    withReturns (s ++ t) = withReturns s ++ withReturns t := List.flatMap_append

theorem withReturns_of_not_mem {s : List Char} (h : '\n' ∉ s) : withReturns s = s := by
  induction s with
  | nil => rfl
  | cons c s ih =>
    rw [List.mem_cons, not_or] at h
    rw [withReturns_cons (Ne.symm h.1), ih h.2]

theorem isFaithful_withReturn {units : List Char} (hn : '\n' ∉ units) (hr : '\r' ∉ units) :
    IsFaithful withReturn id units where
  spell_eq x hx := if_neg (by rintro rfl; exact hn hx)
  inj _ _ _ _ h := h
  ne_nil x _ := by
    unfold withReturn
    split_ifs <;> simp
  not_mem x hx b hb := by
    rw [List.map_id]
    unfold withReturn at hb
    split_ifs at hb with hc
    · rcases List.mem_cons.mp hb with rfl | hb
      · exact hr
      · exact List.mem_singleton.mp hb ▸ hn
    · exact List.mem_singleton.mp hb ▸ hx

theorem isBlank_of_mem_withReturns {s : List Char} (h : ∀ c ∈ s, isBlank c = true) :
    ∀ c ∈ withReturns s, isBlank c = true := by
  intro c hc
  obtain ⟨b, hb, hcb⟩ := List.mem_flatMap.mp hc
  unfold withReturn at hcb
  split_ifs at hcb with hn
  · rcases List.mem_cons.mp hcb with rfl | hcb
    · rfl
    · exact List.mem_singleton.mp hcb ▸ rfl
  · exact List.mem_singleton.mp hcb ▸ h b hb

theorem trimEnd_withReturns (s : List Char) :
    trimEnd (withReturns s) = withReturns (trimEnd s) := by
  obtain ⟨v, hv, hs⟩ := exists_eq_trimEnd_append s
  conv_lhs => rw [hs]
  rw [withReturns_append, trimEnd_append_blank (isBlank_of_mem_withReturns hv)]
  rw [trimEnd_eq_self_iff]
  intro c hc
  rcases List.eq_nil_or_concat' (trimEnd s) with hnil | ⟨u, b, hub⟩
  · rw [hnil] at hc
    simp at hc
  · -- the text ends with a character that is no line feed, so that it does so in both forms
    have hb : isBlank b = false := isBlank_getLast?_trimEnd (s := s) (by simp [hub])
    have hbn : '\n' ∉ [b] := by
      rw [List.mem_singleton]
      rintro rfl
      exact absurd hb (by decide)
    rw [hub, withReturns_append, withReturns_of_not_mem hbn, List.getLast?_concat] at hc
    exact Option.some.inj hc ▸ hb

/-- Lines get a carriage return at their end, all but the last. -/
theorem forall₂_splitLines_withReturns (s : List Char) :
    List.Forall₂ (fun l l' => l' = l ∨ l' = l ++ ['\r']) (splitLines s)
      (splitLines (withReturns s)) := by
  induction s with
  | nil => exact .cons (.inl rfl) .nil
  | cons c s ih =>
    by_cases hc : c = '\n'
    · subst hc
      rw [withReturns_cons_newline, splitLines_cons, splitLines_cons, splitLines_cons]
      exact .cons (.inr rfl) ih
    · rw [withReturns_cons hc, splitLines_cons, splitLines_cons, if_neg hc, if_neg hc]
      obtain ⟨l, ls, hl⟩ := List.exists_cons_of_ne_nil (splitLines_ne_nil s)
      obtain ⟨l', ls', hl'⟩ := List.exists_cons_of_ne_nil (splitLines_ne_nil (withReturns s))
      rw [hl, hl', List.forall₂_cons] at ih
      rw [hl, hl']
      refine .cons ?_ ih.2
      rcases ih.1 with rfl | rfl
      · exact .inl rfl
      · exact .inr rfl

end Text

/-! ## Blocks -/

theorem isFaithful_delimiters : Text.IsFaithful Text.withReturn id
    (Comment.delimiters.opening ++ Comment.delimiters.closing) :=
  Text.isFaithful_withReturn (by decide) (by decide)

theorem withReturns_block (inner : List Char) :
    Text.withReturns (Comment.delimiters.opening ++ inner ++ Comment.delimiters.closing) =
      Comment.delimiters.opening ++ Text.withReturns inner ++ Comment.delimiters.closing :=
  flatMap_block isFaithful_delimiters inner

/-- A carriage return does not take up a line. -/
theorem extent_lineWidth_withReturn (c : Char) :
    extent lineWidth (Text.withReturn c) = lineWidth c := by
  unfold Text.withReturn
  split_ifs with hc
  · rw [hc]
    rfl
  · rw [extent_cons, extent_nil, Nat.add_zero]

/-- **The blocks of a text with carriage returns** are on the same lines. -/
theorem findBlocks_withReturns (text : List Char) :
    findBlocks lineWidth Comment.delimiters (Text.withReturns text) =
      (findBlocks lineWidth Comment.delimiters text).map fun b =>
        ⟨b.offset, Text.withReturns b.raw⟩ := by
  have hblocks := findBlocks_flatMap isFaithful_delimiters (by decide) lineWidth text
  rw [funext extent_lineWidth_withReturn] at hblocks
  exact hblocks

/-! ## Content -/

theorem contentLine_append_return {l : List Char} (h : '\r' ∉ l) :
    Comment.contentLine (l ++ ['\r']) = Comment.contentLine l := by
  have hsame : Text.dropReturn l = l := if_neg fun hlast => h (List.mem_of_getLast? hlast)
  rw [Comment.contentLine, Comment.contentLine, Text.dropReturn_append_return, hsame]

theorem map_contentLine_withReturns {s : List Char} (h : '\r' ∉ s) :
    (Text.splitLines (Text.withReturns s)).map Comment.contentLine =
      (Text.splitLines s).map Comment.contentLine := by
  have hlines : ∀ l ∈ Text.splitLines s, '\r' ∉ l := fun l hl hr =>
    h ((Text.infix_of_mem_splitLines hl).subset hr)
  have hboth := Text.forall₂_splitLines_withReturns s
  generalize Text.splitLines s = ls at hlines hboth
  generalize Text.splitLines (Text.withReturns s) = ls' at hboth
  induction hboth with
  | nil => rfl
  | cons hl _ ih =>
    rw [List.forall_mem_cons] at hlines
    rw [List.map_cons, List.map_cons, ih hlines.2]
    rcases hl with rfl | rfl
    · rfl
    · rw [contentLine_append_return hlines.1]

theorem describe_nil_cons (ds : List (List Char)) :
    TagReader.describe ([] :: ds) = TagReader.describe ds := by
  unfold TagReader.describe
  cases ds with
  | nil => rfl
  | cons l ds =>
    rw [List.map_cons, List.map_cons, Text.joinLines_cons_cons]
    have hskip : ∀ s, Text.trim ('\n' :: s) = Text.trim s := fun s =>
      congrArg Text.trimEnd
        (Text.trimStart_blank_append (u := ['\n']) (List.all_eq_true.mp (by decide)) s)
    rw [show TagReader.descriptionLine [] = [] from rfl, List.nil_append, hskip]

/-- **An empty line at the start does not matter.** -/
theorem parseLines_nil_cons (lines : List (List Char)) :
    parseLines ([] :: lines) = parseLines lines := by
  obtain ⟨ds, segs, hds, rfl⟩ := exists_segments lines
  have hds' : ∀ l ∈ [] :: ds, Tag.isTagLine l = false :=
    List.forall_mem_cons.mpr ⟨rfl, hds⟩
  rw [← List.cons_append, parseLines_segments hds, parseLines_segments hds', describe_nil_cons]

/-- What is left of a comment when its lines end in carriage returns: at most one more line
feed, at the start. -/
theorem dropBlank_withReturns (inner : List Char) :
    Text.dropBlank (Text.withReturns inner) = Text.withReturns (Text.dropBlank inner) ∨
      Text.dropBlank (Text.withReturns inner) =
        '\n' :: Text.withReturns (Text.dropBlank inner) := by
  cases inner with
  | nil => exact .inl rfl
  | cons c s =>
    by_cases hc : c = '\n'
    · subst hc
      exact .inr rfl
    · left
      rw [Text.withReturns_cons hc, Text.dropBlank, Text.dropBlank]
      split_ifs
      · rfl
      · rw [Text.withReturns_cons hc]

theorem parseLines_content_withReturns {inner : List Char} (h : '\r' ∉ inner) :
    parseLines (Comment.content (Comment.opening ++ Text.withReturns inner ++ Comment.closing)) =
      parseLines (Comment.content (Comment.opening ++ inner ++ Comment.closing)) := by
  rw [Comment.content, Comment.content, Comment.inside_block, Comment.inside_block]
  set s := Text.dropBlank inner with hs
  have hmap : (Text.splitLines (Text.trimEnd (Text.withReturns s))).map Comment.contentLine =
      (Text.splitLines (Text.trimEnd s)).map Comment.contentLine := by
    rw [Text.trimEnd_withReturns]
    refine map_contentLine_withReturns fun hr => h ?_
    exact (Text.dropBlank_isSuffix inner).subset ((Text.trimEnd_isPrefix s).subset hr)
  rcases dropBlank_withReturns inner with heq | heq
  · rw [heq, ← hs, hmap]
  · rw [heq, ← hs]
    by_cases hnil : Text.trimEnd (Text.withReturns s) = []
    · -- the comment is blank
      obtain ⟨v, hv, hsv⟩ := Text.exists_eq_trimEnd_append (Text.withReturns s)
      rw [hnil, List.nil_append] at hsv
      have hblank : Text.trimEnd ('\n' :: Text.withReturns s) = [] := by
        have := Text.trimEnd_append_blank (v := '\n' :: v)
          (List.forall_mem_cons.mpr ⟨rfl, hv⟩) []
        rwa [List.nil_append, ← hsv] at this
      rw [← hmap, hnil, hblank]
    · have hcons := Text.trimEnd_append_solid (s := ['\n']) hnil
      rw [List.singleton_append] at hcons
      rw [hcons, List.singleton_append, Text.splitLines_cons, if_pos rfl, List.map_cons, hmap]
      exact parseLines_nil_cons _

/-- **Line endings do not matter.** A text without carriage returns and the same text with one
before every line feed have the same comments, but for the carriage returns in their own text. -/
theorem extractDocs_withReturns (path : Path) (text : List Char) (h : '\r' ∉ text) :
    extractDocs path (Text.withReturns text) = (extractDocs path text).map fun doc =>
      { doc with raw := String.ofList (Text.withReturns doc.raw.toList) } := by
  rw [extractDocs_eq_map, extractDocs_eq_map, findBlocks_withReturns, List.map_map, List.map_map]
  refine List.map_congr_left fun b hb => ?_
  obtain ⟨before, inner, rest, htext, -, hraw, -⟩ := exists_eq_append_of_mem_findBlocks hb
  have hinner : '\r' ∉ inner := fun hr => h (by rw [htext, hraw]; simp [hr])
  simp only [Function.comp_apply, docOf, hraw, withReturns_block, String.toList_ofList]
  rw [DocBlock.mk.injEq]
  refine ⟨rfl, rfl, rfl, ?_, ?_⟩
  · exact congrArg ParsedComment.description (parseLines_content_withReturns hinner)
  · exact congrArg ParsedComment.tags (parseLines_content_withReturns hinner)

theorem extractDocs_withReturns_tag :
    '\r' ∉ ['/', '*', '*', '\n', '@', 'a', '\n', '*', '/'] ∧
      extractDocs ⟨[]⟩ ['/', '*', '*', '\r', '\n', '@', 'a', '\r', '\n', '*', '/'] =
        (extractDocs ⟨[]⟩ ['/', '*', '*', '\n', '@', 'a', '\n', '*', '/']).map fun doc =>
          { doc with raw := String.ofList (Text.withReturns doc.raw.toList) } :=
  ⟨by decide, extractDocs_withReturns ⟨[]⟩ ['/', '*', '*', '\n', '@', 'a', '\n', '*', '/']
    (by decide)⟩

end ErrorDocs
