import ErrorDocs.Comment.Content
import ErrorDocs.Proofs.Comment.Block
import ErrorDocs.Proofs.Text.Blank
import ErrorDocs.Proofs.Text.Lines

/-!
# Content lines

The content lines of a comment are parts of what stands between its delimiters. The other way
round, lines that are decorated with a star each are the content of the comment they make, except
that the blanks at the end of the last line are lost.

* `inside_block`: what is left of a comment without its delimiters.
* `of_mem_content`: what a content line can be.
* **`content_decorate`**: the content of decorated lines.
-/

namespace ErrorDocs

namespace Text

theorem dropBlank_isSuffix (s : List Char) : dropBlank s <:+ s := by
  obtain ⟨u, -, hs⟩ := exists_eq_append_dropBlank s
  exact ⟨u, hs.symm⟩

theorem dropReturn_isPrefix (line : List Char) : dropReturn line <+: line := by
  unfold dropReturn
  split_ifs
  · exact List.dropLast_prefix line
  · exact List.prefix_rfl

theorem dropReturn_append_return (line : List Char) : dropReturn (line ++ ['\r']) = line := by
  simp [dropReturn]

/-- A text that does not end with a blank does not end with a carriage return. -/
theorem dropReturn_trimEnd (line : List Char) : dropReturn (trimEnd line) = trimEnd line := by
  unfold dropReturn
  rw [if_neg]
  intro h
  exact Bool.noConfusion (isBlank_getLast?_trimEnd h)

end Text

namespace Comment

/-! ## What content lines are -/

theorem contentLine_isInfix (line : List Char) : contentLine line <:+: line := by
  refine List.IsInfix.trans ?_ (Text.dropReturn_isPrefix line).isInfix
  refine List.IsInfix.trans ?_ (Text.trimStart_isSuffix _).isInfix
  unfold contentLine
  split
  · exact List.nil_infix
  · rename_i c rest hline
    rw [hline]
    split_ifs
    · exact (Text.dropBlank_isSuffix rest).isInfix.trans (List.suffix_cons c rest).isInfix
    · exact List.infix_rfl

theorem dropBlank_append_closing (inner : List Char) :
    Text.dropBlank (inner ++ closing) = Text.dropBlank inner ++ closing := by
  cases inner with
  | nil => rfl
  | cons c inner =>
    simp only [List.cons_append, Text.dropBlank]
    split_ifs <;> rfl

theorem trimEnd_append_closing (s : List Char) : Text.trimEnd (s ++ closing) = s ++ closing :=
  Text.trimEnd_append_solid (by decide)

/-- A comment without its delimiters. -/
def body (raw : List Char) : List Char :=
  (raw.drop opening.length).rdrop closing.length

@[simp]
theorem body_block (inner : List Char) : body (opening ++ inner ++ closing) = inner := by
  rw [body, List.append_assoc, List.drop_left, List.rdrop_append_length]

/-- What is left of a comment without its delimiters. -/
theorem inside_block (inner : List Char) :
    inside (opening ++ inner ++ closing) = Text.trimEnd (Text.dropBlank inner) := by
  rw [inside, List.append_assoc, Text.dropPrefix?_append, Option.getD_some,
    dropBlank_append_closing, trimEnd_append_closing, Text.dropSuffix?_append]

/-- A content line is a part of what stands between the delimiters, and has no line feed. -/
theorem of_mem_content {inner l : List Char} (h : l ∈ content (opening ++ inner ++ closing)) :
    '\n' ∉ l ∧ l <:+: inner := by
  rw [content, inside_block] at h
  obtain ⟨line, hline, rfl⟩ := List.mem_map.mp h
  refine ⟨fun hn => Text.not_mem_of_mem_splitLines hline ((contentLine_isInfix line).subset hn), ?_⟩
  refine (contentLine_isInfix line).trans ((Text.infix_of_mem_splitLines hline).trans ?_)
  exact (Text.trimEnd_isPrefix _).isInfix.trans (Text.dropBlank_isSuffix inner).isInfix

/-! ## Decorated lines -/

/-- A content line with a star in front of it. -/
def starred (l : List Char) : List Char := ' ' :: '*' :: ' ' :: l

/-- What stands between the delimiters of a comment with the given content lines: each of them is
starred and ended by a carriage return and a line feed. -/
def decorate (ls : List (List Char)) : List Char :=
  '\n' :: ((ls.flatMap fun l => starred l ++ ['\r', '\n']) ++ [' '])

theorem contentLine_starred (l : List Char) : contentLine (starred l ++ ['\r']) = l := by
  rw [contentLine, Text.dropReturn_append_return]
  rfl

theorem trimEnd_starred_ne_nil (l : List Char) : Text.trimEnd (starred l) ≠ [] := by
  obtain ⟨v, hv, he⟩ := Text.exists_eq_trimEnd_append (starred l)
  intro h
  rw [h, List.nil_append] at he
  have := hv '*' (by rw [← he]; simp [starred])
  exact absurd this (by decide)

theorem contentLine_trimEnd_starred (l : List Char) :
    contentLine (Text.trimEnd (starred l)) = Text.trimEnd l := by
  rw [contentLine, Text.dropReturn_trimEnd]
  by_cases hl : Text.trimEnd l = []
  · -- nothing but the star is left of the line
    obtain ⟨v, hv, he⟩ := Text.exists_eq_trimEnd_append l
    rw [hl, List.nil_append] at he
    subst he
    rw [show starred l = [' ', '*', ' '] ++ l from rfl, Text.trimEnd_append_blank hv, hl]
    rfl
  · rw [show starred l = [' ', '*', ' '] ++ l from rfl, Text.trimEnd_append_solid hl]
    rfl

theorem splitLines_starred (ls : List (List Char)) (hls : ∀ l ∈ ls, '\n' ∉ l) {s : List Char}
    (hs : '\n' ∉ s) :
    Text.splitLines ((ls.flatMap fun l => starred l ++ ['\r', '\n']) ++ s) =
      (ls.map fun l => starred l ++ ['\r']) ++ [s] := by
  induction ls with
  | nil => simpa using Text.splitLines_of_not_mem hs
  | cons l ls ih =>
    rw [List.forall_mem_cons] at hls
    have hl : '\n' ∉ starred l ++ ['\r'] := by simp [starred, hls.1]
    have he : (((l :: ls).flatMap fun l => starred l ++ ['\r', '\n']) ++ s) =
        (starred l ++ ['\r']) ++
          '\n' :: ((ls.flatMap fun l => starred l ++ ['\r', '\n']) ++ s) := by
      simp
    rw [he, Text.splitLines_append_newline, Text.splitLines_of_not_mem hl, ih hls.2]
    rfl

/-- **The content of decorated lines.** -/
theorem content_decorate {ls : List (List Char)} {last : List Char}
    (h : ∀ l ∈ ls ++ [last], '\n' ∉ l) :
    content (opening ++ decorate (ls ++ [last]) ++ closing) = ls ++ [Text.trimEnd last] := by
  rw [List.forall_mem_append, List.forall_mem_singleton] at h
  have hlast : '\n' ∉ Text.trimEnd (starred last) := fun hn => by
    have := (Text.trimEnd_isPrefix _).subset hn
    simp [starred, h.2] at this
  have htrim : Text.trimEnd (Text.dropBlank (decorate (ls ++ [last]))) =
      (ls.flatMap fun l => starred l ++ ['\r', '\n']) ++ Text.trimEnd (starred last) := by
    have he : Text.dropBlank (decorate (ls ++ [last])) =
        ((ls.flatMap fun l => starred l ++ ['\r', '\n']) ++ starred last) ++ ['\r', '\n', ' '] := by
      rw [decorate, Text.dropBlank, if_pos (by decide)]
      simp
    rw [he, Text.trimEnd_append_blank (List.all_eq_true.mp (by decide)),
      Text.trimEnd_append_solid (trimEnd_starred_ne_nil last)]
  rw [content, inside_block, htrim, splitLines_starred ls h.1 hlast]
  simp [contentLine_starred, contentLine_trimEnd_starred, Function.comp_def]

/-- Decorated lines have a closing delimiter in them only if one of the lines has. -/
theorem not_closing_infix_decorate {ls : List (List Char)} (h : ∀ l ∈ ls, ¬ closing <:+: l) :
    ¬ closing <:+: decorate ls := by
  have hstar : ∀ ls : List (List Char), (∀ l ∈ ls, ¬ closing <:+: l) →
      ¬ closing <:+: (ls.flatMap fun l => starred l ++ ['\r', '\n']) ++ [' '] := by
    intro ls h
    induction ls with
    | nil => simp [closing, Text.pair_infix_cons]
    | cons l ls ih =>
      rw [List.forall_mem_cons] at h
      have h1 : ¬ ['*', '/'] <:+: l := h.1
      have h2 : ¬ ['*', '/'] <:+: (ls.flatMap fun l => starred l ++ ['\r', '\n']) ++ [' '] := ih h.2
      rw [List.flatMap_cons, List.append_assoc, starred, closing]
      simp [Text.pair_infix_cons, Text.pair_infix_append, h1, h2]
  rw [decorate, closing, Text.pair_infix_cons]
  simp only [show '\n' ≠ '*' by decide, false_and, false_or]
  exact hstar ls h

end Comment

end ErrorDocs
