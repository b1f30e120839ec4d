import ErrorDocs.Proofs.Comment.Content

/-!
# What is decoration

A comment loses nothing but its decoration when its content is taken: the characters that are
neither blanks nor stars stay as they are and in order, each line loses at most one star, and a
line of the content ends where a line of the comment does.

* `Text.filter_trimEnd` and others: what is left out at the ends of a text are blanks.
* `filter_contentLine`: a line loses blanks and at most one star.
* **`content_drops_decoration`**: the content of a comment, and what stands between its delimiters.
-/

namespace ErrorDocs

/-! ## Characters other than blanks -/

namespace Text

variable {p : Char → Bool} (hp : ∀ c, isBlank c = true → p c = false)

include hp

theorem filter_blank_append {u : List Char} (hu : ∀ c ∈ u, isBlank c = true) (s : List Char) :
    (u ++ s).filter p = s.filter p := by
  have hnone : u.filter p = [] := by
    rw [List.filter_eq_nil_iff]
    intro c hc
    rw [hp c (hu c hc)]
    exact Bool.false_ne_true
  rw [List.filter_append, hnone, List.nil_append]

theorem filter_append_blank {v : List Char} (hv : ∀ c ∈ v, isBlank c = true) (s : List Char) :
    (s ++ v).filter p = s.filter p := by
  rw [List.filter_append, ← List.append_nil v, filter_blank_append hp hv, List.filter_nil,
    List.append_nil]

theorem filter_trimStart (s : List Char) : (trimStart s).filter p = s.filter p := by
  obtain ⟨u, hu, hs⟩ := exists_eq_append_trimStart s
  conv_rhs => rw [hs, filter_blank_append hp hu]

theorem filter_dropBlank (s : List Char) : (dropBlank s).filter p = s.filter p := by
  obtain ⟨u, hu, hs⟩ := exists_eq_append_dropBlank s
  conv_rhs => rw [hs, filter_blank_append hp hu]

theorem filter_trimEnd (s : List Char) : (trimEnd s).filter p = s.filter p := by
  obtain ⟨v, hv, hs⟩ := exists_eq_trimEnd_append s
  conv_rhs => rw [hs, filter_append_blank hp hv]

theorem filter_dropReturn (line : List Char) : (dropReturn line).filter p = line.filter p := by
  unfold dropReturn
  split_ifs with hlast
  · obtain ⟨l, rfl⟩ := List.getLast?_eq_some_iff.mp hlast
    rw [List.dropLast_concat, filter_append_blank hp (by simp [isBlank])]
  · rfl

theorem filter_flatten_splitLines (s : List Char) :
    (splitLines s).flatten.filter p = s.filter p := by
  induction s with
  | nil => rfl
  | cons c s ih =>
    rw [splitLines_cons]
    by_cases hc : c = '\n'
    · rw [if_pos hc, List.flatten_cons, List.nil_append, ih, hc,
        List.filter_cons_of_neg (by rw [hp '\n' rfl]; exact Bool.false_ne_true)]
    · obtain ⟨l, ls, hs⟩ := List.exists_cons_of_ne_nil (splitLines_ne_nil s)
      rw [hs] at ih
      rw [if_neg hc, hs, List.modifyHead_cons, List.flatten_cons, List.cons_append,
        ← List.flatten_cons, List.filter_cons, ih, ← List.filter_cons]

end Text

namespace Comment

/-! ## Stars -/

/-- **A line loses blanks and at most one star.** -/
theorem filter_contentLine {p : Char → Bool} (hp : ∀ c, Text.isBlank c = true → p c = false)
    (line : List Char) :
    ∃ star, (star = [] ∨ star = [lineMarker]) ∧
      line.filter p = star.filter p ++ (contentLine line).filter p := by
  have htrim : line.filter p = (Text.trimStart (Text.dropReturn line)).filter p := by
    rw [Text.filter_trimStart hp, Text.filter_dropReturn hp]
  rw [htrim, contentLine]
  cases Text.trimStart (Text.dropReturn line) with
  | nil => exact ⟨[], .inl rfl, rfl⟩
  | cons c rest =>
    by_cases hc : c = lineMarker
    · refine ⟨[lineMarker], .inr rfl, ?_⟩
      rw [hc]
      dsimp only
      rw [if_pos rfl, Text.filter_dropBlank hp, ← List.filter_append]
      rfl
    · refine ⟨[], .inl rfl, ?_⟩
      dsimp only
      rw [if_neg hc]
      rfl

/-- The characters that are no decoration, wherever they stand in a comment. -/
def isPlain (c : Char) : Bool := !Text.isBlank c && c != lineMarker

theorem isPlain_of_isBlank (c : Char) (hc : Text.isBlank c = true) : isPlain c = false := by
  rw [isPlain, hc]
  rfl

theorem beq_lineMarker_of_isBlank (c : Char) (hc : Text.isBlank c = true) :
    (c == lineMarker) = false := by
  rw [beq_eq_false_iff_ne]
  rintro rfl
  exact absurd hc (by decide)

theorem filter_isPlain_contentLine (line : List Char) :
    (contentLine line).filter isPlain = line.filter isPlain := by
  obtain ⟨star, rfl | rfl, hline⟩ := filter_contentLine isPlain_of_isBlank line
  · exact hline.symm
  · exact hline.symm

theorem count_contentLine (line : List Char) :
    line.count lineMarker ≤ (contentLine line).count lineMarker + 1 := by
  obtain ⟨star, hstar, hline⟩ := filter_contentLine beq_lineMarker_of_isBlank line
  have hcount := congrArg List.length hline
  rw [List.length_append] at hcount
  simp only [← List.countP_eq_length_filter] at hcount
  have hone : star.countP (· == lineMarker) ≤ 1 := by
    rcases hstar with rfl | rfl <;> decide
  unfold List.count
  omega

/-! ## The content of a comment -/

/-- The lines of a comment have all that stands between its delimiters, blanks apart. -/
theorem filter_lines_inside {p : Char → Bool} (hp : ∀ c, Text.isBlank c = true → p c = false)
    (inner : List Char) :
    (Text.splitLines (inside (opening ++ inner ++ closing))).flatten.filter p =
      inner.filter p := by
  rw [Text.filter_flatten_splitLines hp, inside_block, Text.filter_trimEnd hp,
    Text.filter_dropBlank hp]

theorem filter_isPlain_content (inner : List Char) :
    (content (opening ++ inner ++ closing)).flatten.filter isPlain = inner.filter isPlain := by
  rw [← filter_lines_inside isPlain_of_isBlank inner, content]
  generalize Text.splitLines (inside (opening ++ inner ++ closing)) = lines
  induction lines with
  | nil => rfl
  | cons l ls ih =>
    rw [List.map_cons, List.flatten_cons, List.flatten_cons, List.filter_append,
      List.filter_append, filter_isPlain_contentLine, ih]

theorem count_lineMarker_content (inner : List Char) :
    inner.count lineMarker ≤ (content (opening ++ inner ++ closing)).flatten.count lineMarker +
      (content (opening ++ inner ++ closing)).length := by
  have hinner : inner.count lineMarker =
      (Text.splitLines (inside (opening ++ inner ++ closing))).flatten.count lineMarker := by
    simp only [List.count_eq_countP, List.countP_eq_length_filter]
    rw [filter_lines_inside beq_lineMarker_of_isBlank]
  rw [hinner, content]
  generalize Text.splitLines (inside (opening ++ inner ++ closing)) = lines
  induction lines with
  | nil => exact Nat.zero_le _
  | cons l ls ih =>
    have hl := count_contentLine l
    simp only [List.map_cons, List.flatten_cons, List.count_append, List.length_cons]
    omega

theorem length_content (inner : List Char) :
    (content (opening ++ inner ++ closing)).length =
      1 + (Text.trimEnd (Text.dropBlank inner)).count '\n' := by
  rw [content, List.length_map, inside_block, Text.length_splitLines, Nat.add_comm]

/-- **Nothing but decoration is dropped** from a comment of a text. Blanks and stars apart, the
content is what stands between the delimiters. It has lost at most one star for each of its lines,
no line of it breaks or closes the comment, and there is one more of them than line feeds in what
stands between the delimiters, after one blank and before the blanks at the end. -/
theorem content_drops_decoration {text : List Char} {b : Block Char} (hb : b ∈ blocks text) :
    b.raw = opening ++ body b.raw ++ closing ∧
      (content b.raw).flatten.filter isPlain = (body b.raw).filter isPlain ∧
      (body b.raw).count lineMarker ≤
        (content b.raw).flatten.count lineMarker + (content b.raw).length ∧
      (∀ l ∈ content b.raw, '\n' ∉ l ∧ ¬ closing <:+: l) ∧
      (content b.raw).length = 1 + (Text.trimEnd (Text.dropBlank (body b.raw))).count '\n' := by
  obtain ⟨-, inner, -, -, -, hraw, hinner⟩ := exists_of_mem_blocks hb
  rw [hraw, body_block]
  refine ⟨rfl, filter_isPlain_content inner, count_lineMarker_content inner, fun l hl => ?_,
    length_content inner⟩
  obtain ⟨hbreak, hpart⟩ := of_mem_content hl
  exact ⟨hbreak, fun hclosing => hinner (hclosing.trans hpart)⟩

/-- A comment with a line that is a star, and a line with two of them. -/
def starry : List Char :=
  ['/', '*', '*', ' ', '*', '\n', ' ', '*', '*', ' ', 'b', ' ', '*', '/']

/-- Each line loses one star and no more. -/
theorem content_drops_decoration_starry :
    ⟨0, starry⟩ ∈ blocks starry ∧ content starry = [[], ['*', ' ', 'b']] ∧
      (content starry).flatten.filter isPlain = (body starry).filter isPlain ∧
      (body starry).count lineMarker ≤
        (content starry).flatten.count lineMarker + (content starry).length := by
  have hb : (⟨0, starry⟩ : Block Char) ∈ blocks starry := by decide +kernel
  obtain ⟨-, hplain, hstars, -, -⟩ := content_drops_decoration hb
  exact ⟨hb, by decide, hplain, hstars⟩

end Comment

end ErrorDocs
