import ErrorDocs.Text.Lines
import ErrorDocs.Proofs.Text.Search

/-!
# Lines of a text

Cutting a text at its line feeds and joining the lines are inverse to each other. A line of a part
of a text is part of a line of the text, and only the first and the last line of the part can be
shorter than that.

* `joinLines_splitLines`, `splitLines_joinLines`: the two directions.
* `length_splitLines`: the number of lines.
* `splitLines_append`: the lines of two texts put together.
* `pair_infix_joinLines`: two characters that stand next to each other stand in one line.
-/

namespace ErrorDocs.Text

theorem splitLines_eq_splitOn (s : List Char) : splitLines s = s.splitOn '\n' := by
  induction s with
  | nil => rfl
  | cons c s ih =>
    rw [List.splitOn_cons_eq_if_modifyHead, ← ih]
    show consLine c (splitLines s) = _
    have hne : splitLines s ≠ [] := by rw [ih]; exact List.splitOn_ne_nil _ _
    obtain ⟨l, ls, hl⟩ := List.exists_cons_of_ne_nil hne
    rw [hl]
    by_cases hc : c = '\n' <;> simp [consLine, hc]

theorem splitLines_ne_nil (s : List Char) : splitLines s ≠ [] := by
  rw [splitLines_eq_splitOn]
  exact List.splitOn_ne_nil _ _

@[simp]
theorem splitLines_nil : splitLines [] = [[]] := rfl

theorem splitLines_cons (c : Char) (s : List Char) :
    splitLines (c :: s) =
      if c = '\n' then [] :: splitLines s else (splitLines s).modifyHead (c :: ·) := by
  rw [splitLines_eq_splitOn, List.splitOn_cons_eq_if_modifyHead, ← splitLines_eq_splitOn]
  simp

@[simp]
theorem joinLines_splitLines (s : List Char) : joinLines (splitLines s) = s := by
  rw [splitLines_eq_splitOn]
  exact List.intercalate_splitOn _

theorem splitLines_joinLines {ls : List (List Char)} (h : ∀ l ∈ ls, '\n' ∉ l) (hne : ls ≠ []) :
    splitLines (joinLines ls) = ls := by
  rw [splitLines_eq_splitOn]
  exact List.splitOn_intercalate _ h hne

theorem length_splitLines (s : List Char) : (splitLines s).length = s.count '\n' + 1 := by
  induction s with
  | nil => rfl
  | cons c s ih =>
    rw [splitLines_cons]
    split_ifs with hc
    · simp [ih, hc]
    · simp [ih, hc]

theorem splitLines_of_not_mem {s : List Char} (h : '\n' ∉ s) : splitLines s = [s] := by
  rw [splitLines_eq_splitOn, List.splitOn_eq_singleton h]

theorem splitLines_append_newline (s t : List Char) :
    splitLines (s ++ '\n' :: t) = splitLines s ++ splitLines t := by
  simp only [splitLines_eq_splitOn]
  exact List.splitOn_append_cons_self _ _

@[simp]
theorem joinLines_singleton (l : List Char) : joinLines [l] = l := List.intercalate_singleton

theorem joinLines_cons_cons (l l' : List Char) (ls : List (List Char)) :
    joinLines (l :: l' :: ls) = l ++ '\n' :: joinLines (l' :: ls) := by
  simp [joinLines, List.intercalate_cons_cons]

theorem head?_joinLines_cons (l : List Char) (ls : List (List Char)) :
    (joinLines (l :: ls)).head? = l.head?.or (if ls = [] then none else some '\n') := by
  cases ls with
  | nil => simp
  | cons l' ls => rw [joinLines_cons_cons, List.head?_append]; rfl

/-- All lines but the last are ended by a line feed. -/
theorem joinLines_concat (ls : List (List Char)) (l : List Char) :
    joinLines (ls ++ [l]) = ls.flatMap (· ++ ['\n']) ++ l := by
  induction ls with
  | nil => simp
  | cons l' ls ih =>
    rw [List.cons_append, joinLines, List.intercalate_cons_of_ne_nil (by simp), ← joinLines, ih]
    simp

theorem suffix_joinLines_concat (ls : List (List Char)) (l : List Char) :
    l <:+ joinLines (ls ++ [l]) := by
  rw [joinLines_concat]
  exact List.suffix_append _ _

/-- A text ends with its last line. -/
theorem suffix_of_splitLines_eq_concat {s l : List Char} {ls : List (List Char)}
    (h : splitLines s = ls ++ [l]) : l <:+ s := by
  rw [← joinLines_splitLines s, h]
  exact suffix_joinLines_concat ls l

/-! ## Lines of a part of a text -/

/-- **The lines of two texts put together**: the last line of the first and the first line of the
second are one. -/
theorem splitLines_append (s t : List Char) :
    ∃ init l l' rest, splitLines s = init ++ [l] ∧ splitLines t = l' :: rest ∧
      splitLines (s ++ t) = init ++ (l ++ l') :: rest := by
  obtain ⟨l', rest, ht⟩ := List.exists_cons_of_ne_nil (splitLines_ne_nil t)
  induction s with
  | nil => exact ⟨[], [], l', rest, rfl, ht, by simpa using ht⟩
  | cons c s ih =>
    obtain ⟨init, l, l'', rest', hs, ht', hst⟩ := ih
    rw [ht] at ht'
    obtain ⟨rfl, rfl⟩ := List.cons.inj ht'
    rw [List.cons_append, splitLines_cons, splitLines_cons, hs, hst]
    by_cases hc : c = '\n'
    · exact ⟨[] :: init, l, l', rest, by simp [hc], ht, by simp [hc]⟩
    · cases init with
      | nil => exact ⟨[], c :: l, l', rest, by simp [hc], ht, by simp [hc]⟩
      | cons i init => exact ⟨(c :: i) :: init, l, l', rest, by simp [hc], ht, by simp [hc]⟩

theorem splitLines_append_of_not_mem {s : List Char} (h : '\n' ∉ s) (t : List Char) :
    splitLines (s ++ t) = (splitLines t).modifyHead (s ++ ·) := by
  obtain ⟨init, l, l', rest, hs, ht, hst⟩ := splitLines_append s t
  rw [splitLines_of_not_mem h] at hs
  obtain ⟨rfl, rfl⟩ : init = [] ∧ l = s := by
    cases init <;> simp_all
  rw [hst, ht]
  rfl

theorem not_mem_of_mem_splitLines {s l : List Char} (h : l ∈ splitLines s) : '\n' ∉ l := by
  induction s generalizing l with
  | nil => simp_all
  | cons c s ih =>
    rw [splitLines_cons] at h
    obtain ⟨l', ls, hl⟩ := List.exists_cons_of_ne_nil (splitLines_ne_nil s)
    rw [hl] at h ih
    by_cases hc : c = '\n'
    · rw [if_pos hc] at h
      rcases List.mem_cons.mp h with rfl | h
      · exact List.not_mem_nil
      · exact ih h
    · rw [if_neg hc, List.modifyHead_cons] at h
      rcases List.mem_cons.mp h with rfl | h
      · simpa [Ne.symm hc] using ih List.mem_cons_self
      · exact ih (List.mem_cons_of_mem _ h)

/-- A line is followed by a line feed, or the text ends with it. -/
theorem suffix_or_infix_of_mem_splitLines {s l : List Char} (h : l ∈ splitLines s) :
    l <:+ s ∨ l ++ ['\n'] <:+: s := by
  rw [← joinLines_splitLines s]
  generalize splitLines s = ls at h
  induction ls with
  | nil => simp at h
  | cons l₁ ls ih =>
    cases ls with
    | nil => exact .inl (by simp_all)
    | cons l₂ ls =>
      rw [joinLines_cons_cons]
      rcases List.mem_cons.mp h with rfl | h
      · exact .inr ⟨[], joinLines (l₂ :: ls), by simp⟩
      · rcases ih h with h' | h'
        · exact .inl (h'.trans ⟨l₁ ++ ['\n'], by simp⟩)
        · exact .inr (h'.trans ⟨l₁ ++ ['\n'], [], by simp⟩)

theorem infix_of_mem_splitLines {s l : List Char} (h : l ∈ splitLines s) : l <:+: s := by
  rcases suffix_or_infix_of_mem_splitLines h with h | h
  · exact h.isInfix
  · exact List.IsInfix.trans ⟨[], ['\n'], rfl⟩ h

/-- A line of the first part of a text starts a line of the text. -/
theorem exists_append_mem_splitLines {s l : List Char} (h : l ∈ splitLines s) (t : List Char) :
    ∃ v, l ++ v ∈ splitLines (s ++ t) := by
  obtain ⟨init, l₁, l₂, rest, hs, -, hst⟩ := splitLines_append s t
  rw [hs] at h
  rw [hst]
  rcases List.mem_append.mp h with h | h
  · exact ⟨[], by simp [h]⟩
  · rw [List.mem_singleton.mp h]
    exact ⟨l₂, by simp⟩

/-- A line of the first part of a text that is not its first one starts a later line of the
text. -/
theorem exists_append_mem_tail_splitLines {s l : List Char} (h : l ∈ (splitLines s).tail)
    (t : List Char) : ∃ v, l ++ v ∈ (splitLines (s ++ t)).tail := by
  obtain ⟨init, l₁, l₂, rest, hs, -, hst⟩ := splitLines_append s t
  rw [hs] at h
  rw [hst]
  cases init with
  | nil => simp at h
  | cons i init =>
    rcases List.mem_append.mp h with h | h
    · exact ⟨[], by simp [h]⟩
    · rw [List.mem_singleton.mp h]
      exact ⟨l₂, by simp⟩

/-- A line of the second part of a text ends a line of the text, with the end of the first part
before it. -/
theorem exists_mem_splitLines_append {t l : List Char} (h : l ∈ splitLines t) (s : List Char) :
    ∃ u, u <:+: s ∧ u ++ l ∈ splitLines (s ++ t) := by
  obtain ⟨init, l₁, l₂, rest, hs, ht, hst⟩ := splitLines_append s t
  rw [ht] at h
  rw [hst]
  rcases List.mem_cons.mp h with rfl | h
  · exact ⟨l₁, infix_of_mem_splitLines (by simp [hs]), by simp⟩
  · exact ⟨[], List.nil_infix, by simp [h]⟩

/-- The later lines of the second part of a text are later lines of the text. -/
theorem mem_tail_splitLines_append {t l : List Char} (h : l ∈ (splitLines t).tail) (s : List Char) :
    l ∈ (splitLines (s ++ t)).tail := by
  obtain ⟨init, l₁, l₂, rest, hs, ht, hst⟩ := splitLines_append s t
  rw [ht] at h
  rw [hst]
  cases init with
  | nil => exact h
  | cons i init => exact List.mem_append_right _ (List.mem_cons_of_mem _ h)

/-! ## Characters next to each other -/

theorem pair_infix_joinLines {a b : Char} (ha : a ≠ '\n') (hb : b ≠ '\n') {ls : List (List Char)} :
    [a, b] <:+: joinLines ls ↔ ∃ l ∈ ls, [a, b] <:+: l := by
  induction ls with
  | nil => simp [joinLines]
  | cons l ls ih =>
    cases ls with
    | nil => simp
    | cons l' ls =>
      rw [joinLines_cons_cons, pair_infix_append, pair_infix_cons, ih]
      simp [ha.symm, hb.symm]

/-- A character in front of a line feed is a line feed or the last of a line. -/
theorem infix_newline_joinLines {a : Char} (ha : a ≠ '\n') {ls : List (List Char)}
    (hls : ∀ l ∈ ls, '\n' ∉ l) (h : [a, '\n'] <:+: joinLines ls) :
    ∃ l ∈ ls, l.getLast? = some a := by
  induction ls with
  | nil => simp [joinLines] at h
  | cons l ls ih =>
    have hl : ¬ [a, '\n'] <:+: l := fun hl =>
      hls l List.mem_cons_self (hl.subset (by simp))
    cases ls with
    | nil => exact absurd (by simpa using h) hl
    | cons l' ls =>
      rw [joinLines_cons_cons, pair_infix_append, pair_infix_cons] at h
      rcases h with h | (⟨h, -⟩ | h) | ⟨h, -⟩
      · exact absurd h hl
      · exact absurd h.symm ha
      · obtain ⟨m, hm, hm'⟩ := ih (fun m hm => hls m (List.mem_cons_of_mem _ hm)) h
        exact ⟨m, List.mem_cons_of_mem _ hm, hm'⟩
      · exact ⟨l, List.mem_cons_self, h⟩

end ErrorDocs.Text
