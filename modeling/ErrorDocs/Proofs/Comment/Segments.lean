import ErrorDocs.Comment.Tag
import ErrorDocs.Proofs.Text.Blank
import ErrorDocs.Proofs.Text.Lines

/-!
# Segments of a comment

The lines of a comment fall into the lines before its first tag line and, for each tag line, a
segment: the tag line and the lines up to the next one. Reading the lines one at a time gives the
description of the former and one tag for each segment.

* `splitTagLine?_eq_some_iff`: the shape of a tag line; `isTagLine_eq_isSome` says that recognising
  and splitting accept the same lines.
* `exists_segments`: every list of lines falls into segments.
* **`parseLines_segments`**: what is read from segments.
-/

namespace ErrorDocs

/-! ## Tag lines -/

namespace Tag

theorem isBlank_of_isIdentifier {c : Char} (h : isIdentifier c = true) :
    Text.isBlank c = false := by
  have hranges : isIdentifier c =
      (decide (c.val ≥ 'A'.val ∧ c.val ≤ 'Z'.val) || (c.val ≥ 'a'.val && c.val ≤ 'z'.val) ||
        (c.val ≥ '0'.val && c.val ≤ '9'.val) || c == '_' || c == '-') := rfl
  rw [hranges] at h
  simp [UInt32.le_iff_toNat_le] at h
  rcases h with (h | rfl) | rfl
  · simp [Text.isBlank]
    omega
  · rfl
  · rfl

theorem isTagLine_eq_isSome (line : List Char) : isTagLine line = (splitTagLine? line).isSome := by
  unfold isTagLine splitTagLine?
  rcases Text.trimStart line with _ | ⟨c, _ | ⟨d, rest⟩⟩
  · rfl
  · by_cases hc : c = marker <;> simp [hc]
  · by_cases hc : c = marker
    · by_cases hd : isIdentifier d = true <;> simp [hc, hd]
    · simp [hc]

/-- **The shape of a tag line.** -/
theorem splitTagLine?_eq_some_iff {line name value : List Char} :
    splitTagLine? line = some (name, value) ↔
      ∃ w w', (∀ c ∈ w, Text.isBlank c = true) ∧ (∀ c ∈ w', Text.isBlank c = true) ∧
        line = w ++ marker :: (name ++ (w' ++ value)) ∧
        name ≠ [] ∧ (∀ c ∈ name, isIdentifier c = true) ∧
        (∀ c, (w' ++ value).head? = some c → isIdentifier c = false) ∧
        ∀ c, value.head? = some c → Text.isBlank c = false := by
  constructor
  · intro h
    unfold splitTagLine? at h
    obtain ⟨w, hw, hline⟩ := Text.exists_eq_append_trimStart line
    split at h
    · simp at h
    · rename_i c rest hrest
      split_ifs at h with hc
      split at h
      · simp at h
      · rename_i name' hname
        simp only [Option.some.injEq, Prod.mk.injEq] at h
        obtain ⟨rfl, hvalue⟩ := h
        obtain ⟨w', hw', hcut⟩ :=
          Text.exists_eq_append_trimStart (rest.dropWhile isIdentifier)
        rw [hvalue] at hcut
        refine ⟨w, w', hw, hw', ?_, hname, fun c hc => List.mem_takeWhile_imp hc, ?_, ?_⟩
        · rw [hline, hrest, hc, ← hcut, List.takeWhile_append_dropWhile]
        · intro c hhead
          have := List.head?_dropWhile_not isIdentifier rest
          rw [hcut, hhead] at this
          simpa using this
        · rw [← hvalue]
          exact fun c => Text.isBlank_head?_trimStart
  · rintro ⟨w, w', hw, hw', rfl, hne, hname, hnext, hvalue⟩
    have hstart : Text.trimStart (w ++ marker :: (name ++ (w' ++ value))) =
        marker :: (name ++ (w' ++ value)) := by
      rw [Text.trimStart_blank_append hw]
      exact Text.trimStart_eq_self_iff.mpr (by rintro c ⟨⟩; rfl)
    have hdrop : (w' ++ value).dropWhile isIdentifier = w' ++ value := by
      cases hwv : w' ++ value with
      | nil => rfl
      | cons c s => rw [List.dropWhile_cons_of_neg (by simp [hnext c (by simp [hwv])])]
    have htake : (w' ++ value).takeWhile isIdentifier = [] := by
      have := List.takeWhile_append_dropWhile (p := isIdentifier) (l := w' ++ value)
      rw [hdrop] at this
      simpa using this
    obtain ⟨a, name, rfl⟩ := List.exists_cons_of_ne_nil hne
    rw [splitTagLine?, hstart]
    simp only [if_true]
    rw [List.takeWhile_append_of_pos hname, List.dropWhile_append_of_pos hname, htake, hdrop,
      Text.trimStart_blank_append hw', Text.trimStart_eq_self_iff.mpr hvalue, List.append_nil]

theorem isTagLine_blank_append {u : List Char} (h : ∀ c ∈ u, Text.isBlank c = true)
    (line : List Char) : isTagLine (u ++ line) = isTagLine line := by
  rw [isTagLine, isTagLine, Text.trimStart_blank_append h]

/-- A line that starts with a tag line is one. -/
theorem isTagLine_append {line : List Char} (h : isTagLine line = true) (v : List Char) :
    isTagLine (line ++ v) = true := by
  unfold isTagLine at h ⊢
  have hne : (line.dropWhile Text.isBlank).isEmpty = false := by
    by_contra hc
    rw [Bool.not_eq_false, List.isEmpty_iff] at hc
    rw [Text.trimStart, hc] at h
    simp at h
  rw [Text.trimStart, List.dropWhile_append, hne, if_neg Bool.false_ne_true]
  rw [Text.trimStart] at h
  split at h
  · rename_i c d rest hs
    rw [hs]
    exact h
  · simp at h

end Tag

/-! ## Segments -/

/-- A tag line and the lines that belong to it. -/
structure Segment where
  head : List Char
  rest : List (List Char)
  isTagLine_head : Tag.isTagLine head = true
  isTagLine_rest : ∀ l ∈ rest, Tag.isTagLine l = false

namespace Segment

/-- The lines of a segment. -/
def lines (s : Segment) : List (List Char) := s.head :: s.rest

theorem isSome_splitTagLine?_head (s : Segment) : (Tag.splitTagLine? s.head).isSome := by
  rw [← Tag.isTagLine_eq_isSome]
  exact s.isTagLine_head

/-- The name and the value on the tag line of a segment. -/
def parts (s : Segment) : List Char × List Char :=
  (Tag.splitTagLine? s.head).get s.isSome_splitTagLine?_head

theorem splitTagLine?_head (s : Segment) :
    Tag.splitTagLine? s.head = some (s.parts.1, s.parts.2) :=
  (Option.some_get s.isSome_splitTagLine?_head).symm

/-- The tag that a segment opens, with all its lines. -/
def openTag (s : Segment) : OpenTag := ⟨s.parts.1, (s.parts.2 :: s.rest).reverse⟩

/-- The tag of a segment. -/
def tag (s : Segment) : Tag := s.openTag.close

end Segment

/-- **Every list of lines falls into segments.** -/
theorem exists_segments : ∀ lines : List (List Char),
    ∃ (ds : List (List Char)) (segs : List Segment),
      (∀ l ∈ ds, Tag.isTagLine l = false) ∧ lines = ds ++ segs.flatMap Segment.lines
  | [] => ⟨[], [], by simp, rfl⟩
  | l :: ls => by
    obtain ⟨ds, segs, hds, rfl⟩ := exists_segments ls
    by_cases hl : Tag.isTagLine l = true
    · exact ⟨[], ⟨l, ds, hl, hds⟩ :: segs, by simp, by simp [Segment.lines]⟩
    · refine ⟨l :: ds, segs, ?_, rfl⟩
      rw [List.forall_mem_cons]
      exact ⟨Bool.eq_false_iff.mpr hl, hds⟩

/-! ## Reading segments -/

namespace TagReader

theorem foldl_feed_description {r : TagReader} (hr : r.current = none) {ls : List (List Char)}
    (h : ∀ l ∈ ls, Tag.isTagLine l = false) :
    ls.foldl feed r = { r with description := ls.reverse ++ r.description } := by
  induction ls generalizing r with
  | nil => rfl
  | cons l ls ih =>
    rw [List.forall_mem_cons] at h
    have hf : feed r l = { r with description := l :: r.description } := by
      simp [feed, h.1, hr]
    rw [List.foldl_cons, hf, ih (r := { r with description := l :: r.description }) hr h.2]
    simp

theorem foldl_feed_tag {r : TagReader} {t : OpenTag} (hp : r.phase = .tags)
    (hr : r.current = some t) {ls : List (List Char)} (h : ∀ l ∈ ls, Tag.isTagLine l = false) :
    ls.foldl feed r = { r with current := some { t with lines := ls.reverse ++ t.lines } } := by
  induction ls generalizing r t with
  | nil => rw [List.foldl_nil, List.reverse_nil, List.nil_append, ← hr]
  | cons l ls ih =>
    rw [List.forall_mem_cons] at h
    have hf : feed r l = { r with current := some { t with lines := l :: t.lines } } := by
      simp [feed, h.1, hp, hr]
    rw [List.foldl_cons, hf,
      ih (r := { r with current := some { t with lines := l :: t.lines } }) hp rfl h.2]
    simp

theorem foldl_feed_segment (r : TagReader) (s : Segment) :
    s.lines.foldl feed r = { r.closeCurrent with phase := .tags, current := some s.openTag } := by
  have hf : feed r s.head =
      { r.closeCurrent with phase := .tags, current := some ⟨s.parts.1, [s.parts.2]⟩ } := by
    simp [feed, s.isTagLine_head, s.splitTagLine?_head]
  rw [Segment.lines, List.foldl_cons, hf, foldl_feed_tag rfl rfl s.isTagLine_rest]
  simp [Segment.openTag]

@[simp]
theorem description_closeCurrent (r : TagReader) : r.closeCurrent.description = r.description := by
  unfold closeCurrent
  split <;> rfl

theorem tags_closeCurrent {r : TagReader} {t : OpenTag} (h : r.current = some t) :
    r.closeCurrent.tags = t.close :: r.tags := by
  rw [closeCurrent, h]

/-- The description that lines make. -/
def describe (ds : List (List Char)) : String :=
  String.ofList (Text.trim (Text.joinLines (ds.map descriptionLine)))

theorem finish_foldl_segments (segs : List Segment) (r : TagReader) :
    ((segs.flatMap Segment.lines).foldl feed r).finish =
      ⟨describe r.description.reverse, r.closeCurrent.tags.reverse ++ segs.map Segment.tag⟩ := by
  induction segs generalizing r with
  | nil => simp [finish, describe]
  | cons s segs ih =>
    rw [List.flatMap_cons, List.foldl_append, foldl_feed_segment, ih, tags_closeCurrent rfl]
    simp [Segment.tag]

end TagReader

/-- **What is read from lines that fall into segments.** -/
theorem parseLines_segments {ds : List (List Char)} (hds : ∀ l ∈ ds, Tag.isTagLine l = false)
    (segs : List Segment) : parseLines (ds ++ segs.flatMap Segment.lines) =
      ⟨TagReader.describe ds, segs.map Segment.tag⟩ := by
  rw [parseLines, List.foldl_append, TagReader.foldl_feed_description rfl hds,
    TagReader.finish_foldl_segments]
  simp [TagReader.new, TagReader.closeCurrent]

end ErrorDocs
