import ErrorDocs.Proofs.Comment.Segments
import Mathlib.Data.List.Forall2

/-!
# The outline of a comment

The lines of a comment fall into groups: the lines before the first tag line, and one segment for
each tag line. There is only one way to group them, and reading the lines one at a time comes to
reading the groups. No line is lost on the way or goes to another group.

* `Outline`: lines in groups; `nonempty_outline` and `Outline.unique` say that there is just one.
* `Tag.ComesFrom`: the tag that belongs to a segment.
* **`parseLines_outline`**: what is read, group by group.
-/

namespace ErrorDocs

/-- Lines in groups: those before the first tag line, and the segments. -/
structure Outline (lines : List (List Char)) where
  description : List (List Char)
  segments : List Segment
  isTagLine_description : ∀ l ∈ description, Tag.isTagLine l = false
  eq_append : lines = description ++ segments.flatMap Segment.lines

theorem nonempty_outline (lines : List (List Char)) : Nonempty (Outline lines) := by
  obtain ⟨ds, segs, hds, hlines⟩ := exists_segments lines
  exact ⟨⟨ds, segs, hds, hlines⟩⟩

/-! ## There is only one outline -/

/-- The lines before some segments end where the first tag line comes. -/
theorem takeWhile_append_lines {ds : List (List Char)} (hds : ∀ l ∈ ds, Tag.isTagLine l = false)
    (segs : List Segment) :
    (ds ++ segs.flatMap Segment.lines).takeWhile (fun l => !Tag.isTagLine l) = ds := by
  have hsegs : (segs.flatMap Segment.lines).takeWhile (fun l => !Tag.isTagLine l) = [] := by
    cases segs with
    | nil => rfl
    | cons s segs =>
      rw [List.flatMap_cons, Segment.lines, List.cons_append, List.takeWhile_cons,
        s.isTagLine_head]
      rfl
  rw [List.takeWhile_append_of_pos fun l hl => by rw [hds l hl]; rfl, hsegs, List.append_nil]

/-- Segments are determined by their lines. -/
theorem flatMap_lines_injective : Function.Injective (List.flatMap Segment.lines) := by
  intro segs
  induction segs with
  | nil =>
    intro segs' h
    cases segs' with
    | nil => rfl
    | cons s' segs' => simp [Segment.lines] at h
  | cons s segs ih =>
    intro segs' h
    cases segs' with
    | nil => simp [Segment.lines] at h
    | cons s' segs' =>
      obtain ⟨head, rest, hhead, hrest⟩ := s
      obtain ⟨head', rest', hhead', hrest'⟩ := s'
      obtain ⟨rfl, hlines⟩ := List.cons.inj h
      -- the lines after a tag line are those before the next segment
      have hsame : rest = rest' := by
        rw [← takeWhile_append_lines hrest segs, ← takeWhile_append_lines hrest' segs']
        exact congrArg _ hlines
      subst hsame
      rw [ih (List.append_cancel_left hlines)]

namespace Outline

variable {lines : List (List Char)}

theorem description_eq (o : Outline lines) :
    o.description = lines.takeWhile fun l => !Tag.isTagLine l := by
  conv_rhs => rw [o.eq_append]
  rw [takeWhile_append_lines o.isTagLine_description]

/-- Lines at the start that have no tag line among them belong to the description. -/
theorem prefix_description (o : Outline lines) {ds : List (List Char)} (hds : ds <+: lines)
    (htag : ∀ l ∈ ds, Tag.isTagLine l = false) : ds <+: o.description := by
  obtain ⟨rest, hrest⟩ := hds
  rw [o.description_eq, ← hrest, List.takeWhile_append_of_pos fun l hl => by rw [htag l hl]; rfl]
  exact List.prefix_append _ _

/-- **Lines have only one outline.** -/
theorem unique (o o' : Outline lines) : o = o' := by
  have hdescription : o.description = o'.description := by
    rw [o.description_eq, o'.description_eq]
  have hsegments : o.segments = o'.segments := by
    have h := o.eq_append.symm.trans o'.eq_append
    rw [hdescription] at h
    exact flatMap_lines_injective (List.append_cancel_left h)
  cases o
  cases o'
  simp_all

end Outline

/-! ## Reading an outline -/

/-- A tag comes from a segment: its name is that on the tag line, and its text is what follows the
name there, with the other lines. -/
def Tag.ComesFrom (t : Tag) (s : Segment) : Prop :=
  ∃ name value, Tag.splitTagLine? s.head = some (name, value) ∧ t.name = String.ofList name ∧
    t.raw = String.ofList
      (Tag.stripAnnotation (Text.trimEnd (List.intercalate ['\n'] (value :: s.rest))))

theorem Segment.comesFrom_tag (s : Segment) : s.tag.ComesFrom s := by
  refine ⟨s.parts.1, s.parts.2, s.splitTagLine?_head, rfl, ?_⟩
  rw [Segment.tag, OpenTag.close, Segment.openTag, List.reverse_reverse]
  rfl

theorem Outline.parseLines_eq {lines : List (List Char)} (o : Outline lines) :
    parseLines lines = ⟨TagReader.describe o.description, o.segments.map Segment.tag⟩ := by
  conv_lhs => rw [o.eq_append]
  exact parseLines_segments o.isTagLine_description o.segments

/-- **What is read from lines, group by group.** The lines have just one outline. The lines before
the first tag line give the description, and each segment gives a tag, in order. -/
theorem parseLines_outline (lines : List (List Char)) :
    ∃ o : Outline lines, (∀ o' : Outline lines, o' = o) ∧
      (∀ ds, ds <+: lines → (∀ l ∈ ds, Tag.isTagLine l = false) → ds <+: o.description) ∧
      (parseLines lines).description = String.ofList (Text.trim (List.intercalate ['\n']
        (o.description.map fun l => l.rdropWhile fun c => c == ' ' || c == '\t'))) ∧
      List.Forall₂ Tag.ComesFrom (parseLines lines).tags o.segments := by
  obtain ⟨o⟩ := nonempty_outline lines
  refine ⟨o, fun o' => o'.unique o, fun ds hds htag => o.prefix_description hds htag, ?_, ?_⟩
  · rw [o.parseLines_eq]
    rfl
  · rw [o.parseLines_eq, List.forall₂_map_left_iff, List.forall₂_same]
    exact fun s _ => s.comesFrom_tag

/-- A line with `@` and a blank opens no tag, and an annotation may end on a later line. -/
example : parseLines ["a ".toList, "@ b".toList, "@x \x7bp".toList, "q\x7d r".toList, "".toList] =
    ⟨"a\n@ b", [⟨"x", "r"⟩]⟩ := by
  cbv

end ErrorDocs
