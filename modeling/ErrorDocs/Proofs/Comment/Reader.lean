import ErrorDocs.Proofs.Comment.Segments

/-!
# The states of a reader

A reader can take a line in four ways: the line opens a tag, goes on with the tag that is open,
belongs to the description, or is recognised as a tag line but cannot be split. The last of these
does not happen, since recognising and splitting accept the same lines. The others keep the state
of the reader in step with the tag lines that it has been fed.

* `roleOf`, `takeAs`: the way in which a line is taken, and what comes of it; `feed_eq_takeAs`.
* `roleOf_cases`: the ways that lines are taken in; `roleOf_ne_unsplit` is the one that is not.
* `Tracks`: what the state says of the lines so far; `Tracks.feed` keeps it, `tracks_foldl` has it
  for every run.
* **`splits_every_tagLine`**: tag lines, and the states that can be reached.
-/

namespace ErrorDocs.TagReader

/-! ## Ways to take a line -/

/-- The ways in which a line can be taken. -/
inductive Role where
  | opens (name value : List Char)
  /-- The line is recognised as a tag line but cannot be split. -/
  | unsplit
  | continues (t : OpenTag)
  | describes

/-- The way in which a reader takes a line. -/
def roleOf (r : TagReader) (line : List Char) : Role :=
  if Tag.isTagLine line then
    match Tag.splitTagLine? line with
    | some (name, value) => .opens name value
    | none => .unsplit
  else
    match r.phase, r.current with
    | .tags, some t => .continues t
    | _, _ => .describes

/-- The state after a line that is taken in a given way. -/
def takeAs (r : TagReader) (line : List Char) : Role → TagReader
  | .opens name value => { r.closeCurrent with phase := .tags, current := some ⟨name, [value]⟩ }
  | .unsplit => { r.closeCurrent with description := line :: r.description, phase := .description }
  | .continues t => { r with current := some { t with lines := line :: t.lines } }
  | .describes => { r with description := line :: r.description }

variable {r : TagReader} {fed : List (List Char)}

theorem feed_eq_takeAs (r : TagReader) (line : List Char) :
    r.feed line = r.takeAs line (r.roleOf line) := by
  unfold feed roleOf
  split_ifs
  · cases Tag.splitTagLine? line with
    | none => simp [takeAs]
    | some p => rfl
  · obtain ⟨phase, description, tags, current⟩ := r
    cases phase <;> cases current <;> rfl

/-- **The ways in which lines are taken.** A tag line opens a tag; any other line goes on with the
open tag or belongs to the description. -/
theorem roleOf_cases (r : TagReader) (line : List Char) :
    (Tag.isTagLine line = true ∧ ∃ name value, r.roleOf line = .opens name value) ∨
      (Tag.isTagLine line = false ∧ ∃ t, r.current = some t ∧ r.roleOf line = .continues t) ∨
      (Tag.isTagLine line = false ∧ r.roleOf line = .describes) := by
  unfold roleOf
  by_cases hline : Tag.isTagLine line = true
  · left
    refine ⟨hline, ?_⟩
    rw [Tag.isTagLine_eq_isSome] at hline
    obtain ⟨⟨name, value⟩, hsplit⟩ := Option.isSome_iff_exists.mp hline
    exact ⟨name, value, by rw [if_pos (by rw [Tag.isTagLine_eq_isSome, hline]), hsplit]⟩
  · right
    rw [if_neg hline]
    rw [Bool.not_eq_true] at hline
    split
    · rename_i t _ hcurrent
      exact .inl ⟨hline, t, hcurrent, rfl⟩
    · exact .inr ⟨hline, rfl⟩

theorem roleOf_ne_unsplit (r : TagReader) (line : List Char) : r.roleOf line ≠ .unsplit := by
  intro hunsplit
  obtain ⟨-, name, value, h⟩ | ⟨-, t, -, h⟩ | ⟨-, h⟩ := roleOf_cases r line
  all_goals
    rw [h] at hunsplit
    cases hunsplit

/-! ## The states that are reached -/

/-- What the state of a reader says of the lines that it has been fed: whether there was a tag line
among them, and how many. -/
structure Tracks (fed : List (List Char)) (r : TagReader) : Prop where
  phase_iff : r.phase = .tags ↔ r.current.isSome = true
  current_iff : r.current.isSome = true ↔ ∃ l ∈ fed, Tag.isTagLine l = true
  count : r.tags.length + (if r.current.isSome then 1 else 0) = fed.countP Tag.isTagLine

theorem tracks_new : Tracks [] new where
  phase_iff := by simp [new]
  current_iff := by simp [new]
  count := rfl

theorem length_tags_closeCurrent (r : TagReader) :
    r.closeCurrent.tags.length = r.tags.length + if r.current.isSome then 1 else 0 := by
  unfold closeCurrent
  split <;> simp_all

/-- A line that is no tag line tells nothing new. -/
theorem Tracks.untagged {line : List Char} (h : Tracks fed r) (hline : Tag.isTagLine line = false)
    {r' : TagReader} (hphase : r'.phase = r.phase) (htags : r'.tags = r.tags)
    (hcurrent : r'.current.isSome = r.current.isSome) : Tracks (fed ++ [line]) r' where
  phase_iff := by rw [hphase, hcurrent, h.phase_iff]
  current_iff := by simp [hcurrent, h.current_iff, hline]
  count := by rw [htags, hcurrent, h.count, List.countP_append]; simp [hline]

/-- **A line keeps the state in step.** -/
theorem Tracks.feed (h : Tracks fed r) (line : List Char) :
    Tracks (fed ++ [line]) (r.feed line) := by
  rw [feed_eq_takeAs]
  obtain ⟨hline, name, value, hrole⟩ | ⟨hline, t, hcurrent, hrole⟩ | ⟨hline, hrole⟩ :=
    roleOf_cases r line
  · rw [hrole]
    refine ⟨by simp [takeAs], by simp [takeAs, hline], ?_⟩
    rw [List.countP_append, ← h.count, takeAs, length_tags_closeCurrent]
    simp [hline]
  · rw [hrole]
    exact h.untagged hline rfl rfl (by rw [hcurrent]; rfl)
  · rw [hrole]
    exact h.untagged hline rfl rfl rfl

/-- **The state is in step after every run.** -/
theorem tracks_foldl (lines : List (List Char)) :
    Tracks lines (lines.foldl TagReader.feed new) := by
  induction lines using List.reverseRecOn with
  | nil => exact tracks_new
  | append_singleton lines line ih =>
    rw [List.foldl_append, List.foldl_cons, List.foldl_nil]
    exact ih.feed line

/-- **Every tag line is split.** The lines that are recognised are those that can be split, into a
name and a value with nothing but blanks around them. So a reader that has been fed any lines never
meets a tag line that it cannot split, and its state tells whether and how many tag lines came. -/
theorem splits_every_tagLine :
    (∀ line, Tag.isTagLine line = true ↔ (Tag.splitTagLine? line).isSome = true) ∧
      (∀ line name value, Tag.splitTagLine? line = some (name, value) ↔
        ∃ w w', (∀ c ∈ w, Text.isBlank c = true) ∧ (∀ c ∈ w', Text.isBlank c = true) ∧
          line = w ++ Tag.marker :: (name ++ (w' ++ value)) ∧
          name ≠ [] ∧ (∀ c ∈ name, Tag.isIdentifier c = true) ∧
          (∀ c, (w' ++ value).head? = some c → Tag.isIdentifier c = false) ∧
          ∀ c, value.head? = some c → Text.isBlank c = false) ∧
      (∀ (r : TagReader) line, r.feed line = r.takeAs line (r.roleOf line)) ∧
      ∀ lines, Tracks lines (lines.foldl TagReader.feed new) ∧
        ∀ line, (lines.foldl TagReader.feed new).roleOf line ≠ .unsplit := by
  refine ⟨fun line => ?_, fun line name value => Tag.splitTagLine?_eq_some_iff, feed_eq_takeAs,
    fun lines => ⟨tracks_foldl lines, roleOf_ne_unsplit _⟩⟩
  rw [Tag.isTagLine_eq_isSome]

end ErrorDocs.TagReader
