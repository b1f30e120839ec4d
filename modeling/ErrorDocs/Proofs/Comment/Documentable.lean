import ErrorDocs.Comment.Doc
import ErrorDocs.Proofs.Comment.Content
import ErrorDocs.Proofs.Comment.Segments

/-!
# What comments can say

A description and a list of tags are *documentable* if they keep to a few rules on blanks, tag
lines and delimiters. These rules are exact: what is read from any comment of any text is
documentable, and what is documentable is read from the comment that `render` writes for it.

* `Documentable`: the rules.
* `isDescription_describe`, `Segment.isTagValue`: what is read keeps to the rules.
* `exists_segments_rendered`: what is written falls into segments that are read as the tags.
* **`documentable_iff_extractDocs`**: the rules say exactly what comments can say.
-/

namespace ErrorDocs

/-! ## The rules -/

/-- The texts that can be the description of a comment. -/
structure IsDescription (d : List Char) : Prop where
  head : ∀ c, d.head? = some c → Text.isBlank c = false
  last : ∀ c, d.getLast? = some c → Text.isBlank c = false
  beforeBreak : ∀ c, [c, '\n'] <:+: d → c ≠ ' ' ∧ c ≠ '\t'
  noTagLine : ∀ l ∈ Text.splitLines d, Tag.isTagLine l = false
  noClosing : ¬ Comment.closing <:+: d

/-- The texts that can be the name of a tag. -/
structure IsTagName (name : List Char) : Prop where
  ne_nil : name ≠ []
  identifier : ∀ c ∈ name, Tag.isIdentifier c = true

/-- The texts that can be the value of a tag. -/
structure IsTagValue (raw : List Char) : Prop where
  head : ∀ c, raw.head? = some c → c = '\n' ∨ Text.isBlank c = false
  last : ∀ c, raw.getLast? = some c → Text.isBlank c = false
  noTagLine : ∀ l ∈ (Text.splitLines raw).tail, Tag.isTagLine l = false
  bare : raw.head? = some '\n' → Tag.stripAnnotation raw = raw
  noClosing : ¬ Comment.closing <:+: raw

/-- **The descriptions and tags that a comment can have.** -/
structure Documentable (d : String) (tags : List Tag) : Prop where
  description : IsDescription d.toList
  name : ∀ t ∈ tags, IsTagName t.name.toList
  value : ∀ t ∈ tags, IsTagValue t.raw.toList

/-! ## What is read keeps to the rules -/

/-- **What is read as a description is one.** -/
theorem isDescription_describe {ds : List (List Char)} (htag : ∀ l ∈ ds, Tag.isTagLine l = false)
    (hbreak : ∀ l ∈ ds, '\n' ∉ l) (hclose : ∀ l ∈ ds, ¬ Comment.closing <:+: l) :
    IsDescription (TagReader.describe ds).toList := by
  rw [TagReader.describe, String.toList_ofList]
  set ls := ds.map TagReader.descriptionLine with hls
  have hprefix : ∀ l ∈ ls, ∃ m ∈ ds, l <+: m := by
    intro l hl
    obtain ⟨m, hm, rfl⟩ := List.mem_map.mp hl
    exact ⟨m, hm, Text.dropEndWhile_isPrefix⟩
  have hbreak' : ∀ l ∈ ls, '\n' ∉ l := by
    intro l hl hn
    obtain ⟨m, hm, hlm⟩ := hprefix l hl
    exact hbreak m hm (hlm.subset hn)
  have hinfix := Text.trim_isInfix (Text.joinLines ls)
  refine ⟨fun c => Text.isBlank_head?_trim, fun c => Text.isBlank_getLast?_trimEnd, ?_, ?_, ?_⟩
  · intro c hc
    by_cases hn : c = '\n'
    · subst hn; decide
    obtain ⟨l, hl, hlast⟩ := Text.infix_newline_joinLines hn hbreak' (hc.trans hinfix)
    obtain ⟨m, -, rfl⟩ := List.mem_map.mp hl
    simpa using Text.getLast?_dropEndWhile hlast
  · intro l hl
    by_contra hc
    rw [Bool.not_eq_false] at hc
    -- `l` lies in a line of the text before trimming, after nothing but blanks
    obtain ⟨u, hu, hsu⟩ := Text.exists_eq_append_trimStart (Text.joinLines ls)
    obtain ⟨v, -, hsv⟩ := Text.exists_eq_trimEnd_append (Text.trimStart (Text.joinLines ls))
    obtain ⟨v', hv'⟩ := Text.exists_append_mem_splitLines hl v
    rw [Text.trim, ← hsv] at hv'
    obtain ⟨u', hu', hmem⟩ := Text.exists_mem_splitLines_append hv' u
    rw [← hsu] at hmem
    have htrue : Tag.isTagLine (u' ++ (l ++ v')) = true := by
      rw [Tag.isTagLine_blank_append fun c hc => hu c (hu'.subset hc)]
      exact Tag.isTagLine_append hc v'
    by_cases hne : ls = []
    · rw [hne, Text.joinLines, List.intercalate_nil, Text.splitLines_nil,
        List.mem_singleton] at hmem
      rw [hmem] at htrue
      simp [Tag.isTagLine, Text.trimStart] at htrue
    · rw [Text.splitLines_joinLines hbreak' hne] at hmem
      obtain ⟨m, hm, t, ht⟩ := hprefix _ hmem
      have := Tag.isTagLine_append htrue t
      rw [ht, htag m hm] at this
      exact Bool.noConfusion this
  · intro hc
    obtain ⟨l, hl, hcl⟩ :=
      (Text.pair_infix_joinLines (by decide) (by decide)).mp (hc.trans hinfix)
    obtain ⟨m, hm, hlm⟩ := hprefix l hl
    exact hclose m hm (hcl.trans hlm.isInfix)

/-- A value that loses its annotation keeps its end, and then starts with no blank. -/
theorem Tag.stripAnnotation_cases (value : List Char) :
    stripAnnotation value = value ∨ (Tag.stripAnnotation value <:+ value ∧
      ∀ c, (Tag.stripAnnotation value).head? = some c → Text.isBlank c = false) := by
  unfold stripAnnotation
  split
  · rename_i body hbody
    split
    · rename_i rest htake hdrop
      refine .inr ⟨?_, fun c => Text.isBlank_head?_trimStart⟩
      have h1 : rest <:+ body :=
        (List.suffix_cons _ rest).trans (hdrop ▸ List.dropWhile_suffix _)
      have h2 : body <:+ value :=
        (List.suffix_cons _ body).trans (hbody ▸ Text.trimStart_isSuffix value)
      exact (Text.trimStart_isSuffix rest).trans (h1.trans h2)
    · exact .inl rfl
  · exact .inl rfl

/-- What is read as the name of a tag is one. -/
theorem Segment.isTagName (s : Segment) : IsTagName s.parts.1 := by
  obtain ⟨-, -, -, -, -, hne, hid, -, -⟩ := Tag.splitTagLine?_eq_some_iff.mp s.splitTagLine?_head
  exact ⟨hne, hid⟩

/-- **What is read as the value of a tag is one.** -/
theorem Segment.isTagValue (s : Segment) (hbreak : ∀ l ∈ s.lines, '\n' ∉ l)
    (hclose : ∀ l ∈ s.lines, ¬ Comment.closing <:+: l) : IsTagValue s.tag.raw.toList := by
  obtain ⟨w, w', -, -, hhead, -, -, -, hsolid⟩ :=
    Tag.splitTagLine?_eq_some_iff.mp s.splitTagLine?_head
  have hvalue : s.parts.2 <:+ s.head := ⟨w ++ Tag.marker :: (s.parts.1 ++ w'), by rw [hhead]; simp⟩
  have hraw : s.tag.raw.toList = Tag.stripAnnotation
      (Text.trimEnd (Text.joinLines (s.parts.2 :: s.rest))) := by
    rw [Segment.tag, OpenTag.close, String.toList_ofList, Segment.openTag, List.reverse_reverse]
  have hlines : ∀ l ∈ s.parts.2 :: s.rest, ∃ m ∈ s.lines, l <:+: m := by
    intro l hl
    rcases List.mem_cons.mp hl with rfl | hl
    · exact ⟨s.head, List.mem_cons_self, hvalue.isInfix⟩
    · exact ⟨l, List.mem_cons_of_mem _ hl, List.infix_rfl⟩
  have hbreak' : ∀ l ∈ s.parts.2 :: s.rest, '\n' ∉ l := by
    intro l hl hn
    obtain ⟨m, hm, hlm⟩ := hlines l hl
    exact hbreak m hm (hlm.subset hn)
  have hclose' : ¬ Comment.closing <:+: Text.joinLines (s.parts.2 :: s.rest) := by
    intro hc
    obtain ⟨l, hl, hcl⟩ := (Text.pair_infix_joinLines (by decide) (by decide)).mp hc
    obtain ⟨m, hm, hlm⟩ := hlines l hl
    exact hclose m hm (hcl.trans hlm)
  set full := Text.joinLines (s.parts.2 :: s.rest) with hfull
  have htail : ∀ l ∈ (Text.splitLines (Text.trimEnd full)).tail, Tag.isTagLine l = false := by
    intro l hl
    by_contra hc
    rw [Bool.not_eq_false] at hc
    obtain ⟨v, -, hv⟩ := Text.exists_eq_trimEnd_append full
    obtain ⟨x, hx⟩ := Text.exists_append_mem_tail_splitLines hl v
    rw [← hv, hfull, Text.splitLines_joinLines hbreak' (by simp)] at hx
    have := s.isTagLine_rest _ hx
    rw [Tag.isTagLine_append hc x] at this
    exact Bool.noConfusion this
  have hinfix : Text.trimEnd full <:+: full := (Text.trimEnd_isPrefix full).isInfix
  rw [hraw]
  rcases Tag.stripAnnotation_cases (Text.trimEnd full) with hsame | ⟨⟨u, hu⟩, hend⟩
  · rw [hsame]
    refine ⟨?_, fun c => Text.isBlank_getLast?_trimEnd, htail, fun _ => hsame,
      fun hc => hclose' (hc.trans hinfix)⟩
    intro c hc
    have hhead := Text.head?_trimEnd hc
    rw [hfull, Text.head?_joinLines_cons] at hhead
    rcases Option.or_eq_some_iff.mp hhead with h | ⟨-, h⟩
    · exact .inr (hsolid c h)
    · split_ifs at h
      exact .inl (Option.some.inj h).symm
  · refine ⟨fun c hc => .inr (hend c hc), ?_, ?_, ?_, ?_⟩
    · intro c hc
      refine Text.isBlank_getLast?_trimEnd (s := full) ?_
      rw [← hu, List.getLast?_append, hc, Option.some_or]
    · intro l hl
      refine htail l ?_
      rw [← hu]
      exact Text.mem_tail_splitLines_append hl u
    · intro hn
      exact absurd (hend '\n' hn) (by decide)
    · intro hc
      exact hclose' ((hc.trans ⟨u, [], by rw [List.append_nil, hu]⟩).trans hinfix)

/-! ## Writing a comment -/

/-- A value as it is written behind the name of its tag. One that would lose its start as an
annotation gets another annotation to lose. -/
def Tag.written (raw : List Char) : List Char :=
  if stripAnnotation raw = raw then raw else '\x7b' :: '_' :: '\x7d' :: ' ' :: raw

/-- The lines that a tag is written on. -/
def Tag.writtenLines (t : Tag) : List (List Char) :=
  Text.splitLines (marker :: (t.name.toList ++ ' ' :: written t.raw.toList))

/-- The comment that is written for a description and tags. -/
def render (d : String) (tags : List Tag) : List Char :=
  Comment.opening ++ Comment.decorate (Text.splitLines d.toList ++ tags.flatMap Tag.writtenLines) ++
    Comment.closing

theorem Tag.stripAnnotation_annotated {raw : List Char}
    (h : ∀ c, raw.head? = some c → Text.isBlank c = false) :
    stripAnnotation ('\x7b' :: '_' :: '\x7d' :: ' ' :: raw) = raw := by
  show Text.trimStart ([' '] ++ raw) = raw
  rw [Text.trimStart_blank_append (List.all_eq_true.mp (by decide)),
    Text.trimStart_eq_self_iff.mpr h]

theorem IsTagName.not_newline {name : List Char} (h : IsTagName name) : '\n' ∉ name := fun hn =>
  absurd (h.identifier _ hn) (by decide)

section Value

variable {raw : List Char} (h : IsTagValue raw)

include h

theorem IsTagValue.stripAnnotation_written : Tag.stripAnnotation (Tag.written raw) = raw := by
  unfold Tag.written
  split_ifs with hs
  · exact hs
  · refine Tag.stripAnnotation_annotated fun c hc => ?_
    rcases h.head c hc with rfl | hb
    · exact absurd (h.bare hc) hs
    · exact hb

theorem IsTagValue.trimEnd_written : Text.trimEnd (Tag.written raw) = Tag.written raw := by
  have hraw : Text.trimEnd raw = raw := Text.trimEnd_eq_self_iff.mpr h.last
  unfold Tag.written
  split_ifs with hs
  · exact hraw
  · have hne : Text.trimEnd raw ≠ [] := fun hnil => hs (by rw [← hraw, hnil]; rfl)
    have := Text.trimEnd_append_solid (s := ['\x7b', '_', '\x7d', ' ']) hne
    rwa [hraw] at this

theorem IsTagValue.noClosing_written : ¬ Comment.closing <:+: Tag.written raw := by
  have hraw : ¬ ['*', '/'] <:+: raw := h.noClosing
  unfold Tag.written
  split_ifs
  · exact hraw
  · simp [Comment.closing, Text.pair_infix_cons, hraw]

/-- The lines of a written value: the first does not start with a blank, the others are no tag
lines. -/
theorem IsTagValue.splitLines_written : ∃ v cs, Text.splitLines (Tag.written raw) = v :: cs ∧
    (∀ c, v.head? = some c → Text.isBlank c = false) ∧ ∀ l ∈ cs, Tag.isTagLine l = false := by
  obtain ⟨v, cs, hv⟩ := List.exists_cons_of_ne_nil (Text.splitLines_ne_nil raw)
  have hcs : ∀ l ∈ cs, Tag.isTagLine l = false := fun l hl => h.noTagLine l (by rw [hv]; exact hl)
  unfold Tag.written
  split_ifs
  · refine ⟨v, cs, hv, fun c hc => ?_, hcs⟩
    have hraw : raw.head? = some c := by
      rw [← Text.joinLines_splitLines raw, hv, Text.head?_joinLines_cons, hc, Option.some_or]
    rcases h.head c hraw with rfl | hb
    · exact absurd (List.mem_of_head? hc) (Text.not_mem_of_mem_splitLines (by rw [hv]; simp))
    · exact hb
  · refine ⟨['\x7b', '_', '\x7d', ' '] ++ v, cs, ?_, ?_, hcs⟩
    · have := Text.splitLines_append_of_not_mem
        (s := ['\x7b', '_', '\x7d', ' ']) (by decide) raw
      rw [hv] at this
      exact this
    · rintro c ⟨⟩
      rfl

end Value

/-! ## What is written is read back -/

/-- A tag line and lines that are none make a segment, and its tag has the value on all of them. -/
theorem exists_segment {name : List Char} (hname : IsTagName name) (w v : List Char)
    (cs : List (List Char)) (hw : ∀ c ∈ w, Text.isBlank c = true)
    (hv : ∀ c, v.head? = some c → Text.isBlank c = false)
    (hnext : ∀ c, (w ++ v).head? = some c → Tag.isIdentifier c = false)
    (hcs : ∀ l ∈ cs, Tag.isTagLine l = false) :
    ∃ s : Segment, s.lines = (Tag.marker :: (name ++ (w ++ v))) :: cs ∧
      s.tag = ⟨String.ofList name,
        String.ofList (Tag.stripAnnotation (Text.trimEnd (Text.joinLines (v :: cs))))⟩ := by
  have hsplit : Tag.splitTagLine? (Tag.marker :: (name ++ (w ++ v))) = some (name, v) :=
    Tag.splitTagLine?_eq_some_iff.mpr
      ⟨[], w, by simp, hw, rfl, hname.ne_nil, hname.identifier, hnext, hv⟩
  have hhead : Tag.isTagLine (Tag.marker :: (name ++ (w ++ v))) = true := by
    rw [Tag.isTagLine_eq_isSome, hsplit, Option.isSome_some]
  refine ⟨⟨_, cs, hhead, hcs⟩, rfl, ?_⟩
  have hparts : Segment.parts ⟨_, cs, hhead, hcs⟩ = (name, v) := by
    simp only [Segment.parts, hsplit, Option.get_some]
  simp only [Segment.tag, Segment.openTag, OpenTag.close, hparts, List.reverse_reverse]

/-- The segment that is written for a tag. -/
theorem exists_segment_of_tag {t : Tag} (hname : IsTagName t.name.toList)
    (hvalue : IsTagValue t.raw.toList) :
    ∃ s : Segment, s.lines = t.writtenLines ∧ s.tag = t := by
  obtain ⟨v, cs, hlines, hv, hcs⟩ := hvalue.splitLines_written
  have hn : '\n' ∉ Tag.marker :: (t.name.toList ++ [' ']) := by
    simp [hname.not_newline, Tag.marker]
  obtain ⟨s, hs, htag⟩ :=
    exists_segment hname [' '] v cs (List.all_eq_true.mp (by decide)) hv (by rintro c ⟨⟩; decide)
      hcs
  refine ⟨s, ?_, ?_⟩
  · have := Text.splitLines_append_of_not_mem hn (Tag.written t.raw.toList)
    rw [hlines] at this
    rw [hs, Tag.writtenLines]
    simpa using this.symm
  · rw [htag, ← hlines, Text.joinLines_splitLines, hvalue.trimEnd_written,
      hvalue.stripAnnotation_written]
    simp

/-- The last line of a text that does not end with a blank. -/
theorem trimEnd_last_line {s last : List Char} {ls : List (List Char)}
    (h : Text.splitLines s = ls ++ [last])
    (hs : ∀ c, s.getLast? = some c → Text.isBlank c = false) : Text.trimEnd last = last := by
  refine Text.trimEnd_eq_self_iff.mpr fun c hc => hs c ?_
  obtain ⟨u, rfl⟩ := Text.suffix_of_splitLines_eq_concat h
  rw [List.getLast?_append, hc, Option.some_or]

/-- The tag of a segment stays the same when the blanks at the end of its last line are lost. -/
theorem exists_segment_of_tag_trimmed {t : Tag} (hname : IsTagName t.name.toList)
    (hvalue : IsTagValue t.raw.toList) :
    ∃ (ls : List (List Char)) (last : List Char) (s : Segment),
      t.writtenLines = ls ++ [last] ∧ s.lines = ls ++ [Text.trimEnd last] ∧ s.tag = t := by
  by_cases hnil : t.raw.toList = []
  · -- the space after the name is lost
    obtain ⟨s, hs, htag⟩ :=
      exists_segment hname [] [] [] (by simp) (by simp) (by simp) (by simp)
    have hline : t.writtenLines = [(Tag.marker :: t.name.toList) ++ [' ']] := by
      rw [Tag.writtenLines, hnil]
      exact Text.splitLines_of_not_mem (by simp [hname.not_newline, Tag.marker, Tag.written,
        Tag.stripAnnotation, Text.trimStart])
    have hlast : Text.trimEnd (Tag.marker :: t.name.toList) = Tag.marker :: t.name.toList := by
      refine Text.trimEnd_eq_self_iff.mpr fun c hc => ?_
      rw [List.getLast?_cons_of_ne_nil hname.ne_nil] at hc
      exact Tag.isBlank_of_isIdentifier (hname.identifier c (List.mem_of_getLast? hc))
    refine ⟨[], _, s, hline, ?_, ?_⟩
    · rw [hs, Text.trimEnd_append_blank (List.all_eq_true.mp (by decide)), hlast]
      simp
    · have hraw : t.raw = String.ofList [] := by rw [← hnil, String.ofList_toList]
      rw [htag, String.ofList_toList]
      exact congrArg (Tag.mk t.name) hraw.symm
  · obtain ⟨s, hs, htag⟩ := exists_segment_of_tag hname hvalue
    have hne : t.writtenLines ≠ [] := Text.splitLines_ne_nil _
    have hcut := (List.dropLast_append_getLast hne).symm
    refine ⟨t.writtenLines.dropLast, t.writtenLines.getLast hne, s, hcut, ?_, htag⟩
    rw [trimEnd_last_line hcut, ← hcut, hs]
    intro c hc
    have hw : Tag.written t.raw.toList ≠ [] := by
      unfold Tag.written
      split_ifs
      · exact hnil
      · simp
    rw [← List.cons_append, List.getLast?_append_of_ne_nil _ (by simp),
      List.getLast?_cons_of_ne_nil hw] at hc
    exact Text.trimEnd_eq_self_iff.mp hvalue.trimEnd_written c hc

theorem exists_segments_of_tags {tags : List Tag} (hname : ∀ t ∈ tags, IsTagName t.name.toList)
    (hvalue : ∀ t ∈ tags, IsTagValue t.raw.toList) :
    ∃ segs : List Segment, segs.flatMap Segment.lines = tags.flatMap Tag.writtenLines ∧
      segs.map Segment.tag = tags := by
  induction tags with
  | nil => exact ⟨[], rfl, rfl⟩
  | cons t tags ih =>
    rw [List.forall_mem_cons] at hname hvalue
    obtain ⟨s, hs, htag⟩ := exists_segment_of_tag hname.1 hvalue.1
    obtain ⟨segs, hsegs, htags⟩ := ih hname.2 hvalue.2
    exact ⟨s :: segs, by simp [hs, hsegs], by simp [htag, htags]⟩

theorem IsDescription.descriptionLine_eq {d l : List Char} (h : IsDescription d)
    (hl : l ∈ Text.splitLines d) : TagReader.descriptionLine l = l := by
  refine Text.dropEndWhile_eq_self_iff.mpr fun c hc => ?_
  rcases Text.suffix_or_infix_of_mem_splitLines hl with ⟨u, hu⟩ | hinfix
  · have hb := h.last c (by rw [← hu, List.getLast?_append, hc, Option.some_or])
    by_contra hcon
    simp only [Bool.not_eq_false, Bool.or_eq_true, beq_iff_eq] at hcon
    rcases hcon with rfl | rfl <;> exact absurd hb (by decide)
  · obtain ⟨u, rfl⟩ := List.getLast?_eq_some_iff.mp hc
    have := h.beforeBreak c (List.IsInfix.trans ⟨u, [], by simp⟩ hinfix)
    simp [this.1, this.2]

theorem describe_splitLines {d : String} (h : IsDescription d.toList) :
    TagReader.describe (Text.splitLines d.toList) = d := by
  rw [TagReader.describe, List.map_congr_left fun l hl => h.descriptionLine_eq hl, List.map_id',
    Text.joinLines_splitLines, Text.trim_eq_self_iff.mpr ⟨h.head, h.last⟩, String.ofList_toList]

/-- **What is written for a documentable description and tags falls into the lines of the
description and a segment for each tag.** -/
theorem Documentable.exists_segments_rendered {d : String} {tags : List Tag}
    (h : Documentable d tags) :
    ∃ segs : List Segment, Comment.content (render d tags) =
      Text.splitLines d.toList ++ segs.flatMap Segment.lines ∧ segs.map Segment.tag = tags := by
  rcases List.eq_nil_or_concat' tags with rfl | ⟨ts, t, rfl⟩
  · obtain ⟨ls, last, hcut⟩ : ∃ ls last, Text.splitLines d.toList = ls ++ [last] :=
      ⟨_, _, (List.dropLast_append_getLast (Text.splitLines_ne_nil d.toList)).symm⟩
    refine ⟨[], ?_, rfl⟩
    rw [render, List.flatMap_nil, List.append_nil, hcut, Comment.content_decorate,
      trimEnd_last_line hcut h.description.last]
    · simp
    · rw [← hcut]
      exact fun l => Text.not_mem_of_mem_splitLines
  · have hname := h.name
    have hvalue := h.value
    rw [List.forall_mem_append, List.forall_mem_singleton] at hname hvalue
    obtain ⟨segs, hsegs, htags⟩ := exists_segments_of_tags hname.1 hvalue.1
    obtain ⟨ls, last, s, hcut, hs, htag⟩ := exists_segment_of_tag_trimmed hname.2 hvalue.2
    refine ⟨segs ++ [s], ?_, by simp [htags, htag]⟩
    have hlines : Text.splitLines d.toList ++ (ts ++ [t]).flatMap Tag.writtenLines =
        (Text.splitLines d.toList ++ segs.flatMap Segment.lines ++ ls) ++ [last] := by
      simp [hsegs, hcut]
    rw [render, hlines, Comment.content_decorate]
    · simp [hs]
    · rw [← hlines]
      intro l hl
      rcases List.mem_append.mp hl with hl | hl
      · exact Text.not_mem_of_mem_splitLines hl
      · obtain ⟨t', -, hl⟩ := List.mem_flatMap.mp hl
        exact Text.not_mem_of_mem_splitLines hl

theorem Documentable.not_closing_infix {d : String} {tags : List Tag} (h : Documentable d tags) :
    ∀ l ∈ Text.splitLines d.toList ++ tags.flatMap Tag.writtenLines, ¬ Comment.closing <:+: l := by
  intro l hl hc
  rcases List.mem_append.mp hl with hl | hl
  · exact h.description.noClosing (hc.trans (Text.infix_of_mem_splitLines hl))
  · obtain ⟨t, ht, hl⟩ := List.mem_flatMap.mp hl
    have hname : ¬ ['*', '/'] <:+: t.name.toList := fun hn =>
      absurd ((h.name t ht).identifier '*' (hn.subset (by simp))) (by decide)
    have hvalue : ¬ ['*', '/'] <:+: Tag.written t.raw.toList := (h.value t ht).noClosing_written
    have := hc.trans (Text.infix_of_mem_splitLines hl)
    rw [Comment.closing, Text.pair_infix_cons, Text.pair_infix_append, Text.pair_infix_cons] at this
    simp [Tag.marker, hname, hvalue] at this

/-- The comment that is written is read back, and is all there is to read. -/
theorem Documentable.extractDocs_render {d : String} {tags : List Tag} (h : Documentable d tags)
    (path : Path) :
    (extractDocs path (render d tags)).map (fun b => (b.description, b.tags)) = [(d, tags)] := by
  obtain ⟨segs, hcontent, htags⟩ := h.exists_segments_rendered
  have hparse : parseLines (Comment.content (render d tags)) = ⟨d, tags⟩ := by
    rw [hcontent, parseLines_segments h.description.noTagLine, describe_splitLines h.description,
      htags]
  have hblocks : Comment.blocks (render d tags) = [⟨0, render d tags⟩] :=
    Comment.blocks_singleton (Comment.not_closing_infix_decorate h.not_closing_infix)
  simp [extractDocs, hblocks, hparse]

/-- What is read from a comment is documentable. -/
theorem documentable_of_mem_extractDocs {path : Path} {text : List Char} {b : DocBlock}
    (hb : b ∈ extractDocs path text) : Documentable b.description b.tags := by
  obtain ⟨block, hblock, rfl⟩ := List.mem_map.mp hb
  obtain ⟨-, inner, -, -, -, hraw, hclose⟩ := Comment.exists_of_mem_blocks hblock
  obtain ⟨ds, segs, hds, hlines⟩ := exists_segments (Comment.content block.raw)
  have hmem : ∀ l ∈ ds ++ segs.flatMap Segment.lines, '\n' ∉ l ∧ ¬ Comment.closing <:+: l := by
    rw [← hlines, hraw]
    intro l hl
    have := Comment.of_mem_content hl
    exact ⟨this.1, fun hc => hclose (hc.trans this.2)⟩
  rw [List.forall_mem_append] at hmem
  have hseg : ∀ s ∈ segs, ∀ l ∈ s.lines, '\n' ∉ l ∧ ¬ Comment.closing <:+: l :=
    fun s hs l hl => hmem.2 l (List.mem_flatMap.mpr ⟨s, hs, hl⟩)
  simp only [hlines, parseLines_segments hds]
  refine ⟨isDescription_describe hds (fun l hl => (hmem.1 l hl).1) fun l hl => (hmem.1 l hl).2,
    ?_, ?_⟩
  · rintro t ht
    obtain ⟨s, -, rfl⟩ := List.mem_map.mp ht
    simpa [Segment.tag, OpenTag.close, Segment.openTag] using s.isTagName
  · rintro t ht
    obtain ⟨s, hs, rfl⟩ := List.mem_map.mp ht
    exact s.isTagValue (fun l hl => (hseg s hs l hl).1) fun l hl => (hseg s hs l hl).2

/-- **The rules say exactly what comments can say**: a description and tags are read from some
comment of some text if and only if they are documentable, and if and only if the comment that is
written for them is read as them. -/
theorem documentable_iff_extractDocs (d : String) (tags : List Tag) :
    (Documentable d tags ↔ ∃ path text, ∃ b ∈ extractDocs path text,
      b.description = d ∧ b.tags = tags) ∧
    (Documentable d tags ↔ ∀ path,
      (extractDocs path (render d tags)).map (fun b => (b.description, b.tags)) = [(d, tags)]) := by
  have hread : ∀ {path text}, (extractDocs path text).map (fun b => (b.description, b.tags)) =
      [(d, tags)] → ∃ b ∈ extractDocs path text, b.description = d ∧ b.tags = tags := by
    intro path text h
    obtain ⟨b, hb, he⟩ := List.mem_map.mp (h ▸ List.mem_singleton_self (d, tags))
    exact ⟨b, hb, (Prod.mk.inj he).1, (Prod.mk.inj he).2⟩
  have hsound : (∃ path text, ∃ b ∈ extractDocs path text, b.description = d ∧ b.tags = tags) →
      Documentable d tags := by
    rintro ⟨path, text, b, hb, rfl, rfl⟩
    exact documentable_of_mem_extractDocs hb
  refine ⟨⟨fun h => ⟨⟨[]⟩, render d tags, hread (h.extractDocs_render _)⟩, hsound⟩,
    ⟨fun h path => h.extractDocs_render path, fun h => hsound ⟨⟨[]⟩, render d tags, hread (h _)⟩⟩⟩

end ErrorDocs
