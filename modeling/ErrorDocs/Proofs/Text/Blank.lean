import ErrorDocs.Text.Blank
import Mathlib.Data.List.DropRight

/-!
# Trimming

A trimmed text neither starts nor ends with a blank, and trimming changes no other text. Trimming
the end of a text reaches into its first part only if the second part is blank throughout.

* `trimStart_eq_self_iff`, `trimEnd_eq_self_iff`, `trim_eq_self_iff`: the texts that trimming keeps.
* `trimEnd_append_solid`, `trimEnd_append_blank`: trimming the end of two texts put together.
-/

namespace ErrorDocs.Text

theorem dropEndWhile_eq_rdropWhile {α : Type} (p : α → Bool) (s : List α) :
    dropEndWhile p s = s.rdropWhile p := rfl

section DropEnd

variable {α : Type} {p : α → Bool} {s : List α}

theorem dropEndWhile_isPrefix : dropEndWhile p s <+: s := by
  rw [dropEndWhile_eq_rdropWhile]
  exact List.rdropWhile_prefix p s

/-- What is dropped from the end satisfies `p` throughout. -/
theorem exists_eq_dropEndWhile_append (p : α → Bool) (s : List α) :
    ∃ v, (∀ c ∈ v, p c = true) ∧ s = dropEndWhile p s ++ v := by
  rw [dropEndWhile_eq_rdropWhile]
  exact ⟨s.rtakeWhile p, fun _ hc => List.mem_rtakeWhile_imp hc,
    List.rdropWhile_append_rtakeWhile.symm⟩

theorem getLast?_dropEndWhile {c : α} (h : (dropEndWhile p s).getLast? = some c) :
    p c = false := by
  rw [dropEndWhile, List.getLast?_reverse] at h
  have := List.head?_dropWhile_not p s.reverse
  rw [h] at this
  simpa using this

theorem dropEndWhile_eq_self_iff :
    dropEndWhile p s = s ↔ ∀ c, s.getLast? = some c → p c = false := by
  constructor
  · intro h c hc
    exact getLast?_dropEndWhile (by rw [h]; exact hc)
  · intro h
    rw [dropEndWhile_eq_rdropWhile, List.rdropWhile_eq_self_iff]
    intro hs
    rw [h _ (List.getLast?_eq_getLast_of_ne_nil hs)]
    simp

theorem dropEndWhile_append_of_forall {v : List α} (h : ∀ c ∈ v, p c = true) :
    dropEndWhile p (s ++ v) = dropEndWhile p s := by
  rw [dropEndWhile, List.reverse_append, List.dropWhile_append_of_pos (by simpa using h)]
  rfl

theorem dropEndWhile_append_of_ne_nil {v : List α} (h : dropEndWhile p v ≠ []) :
    dropEndWhile p (s ++ v) = s ++ dropEndWhile p v := by
  have hv : (v.reverse.dropWhile p).isEmpty = false := by
    simpa [dropEndWhile] using h
  simp [dropEndWhile, List.dropWhile_append, hv]

end DropEnd

/-! ## Blanks at the start and at the end -/

theorem trimStart_isSuffix (s : List Char) : trimStart s <:+ s := List.dropWhile_suffix _

theorem trimEnd_isPrefix (s : List Char) : trimEnd s <+: s := dropEndWhile_isPrefix

theorem trim_isInfix (s : List Char) : trim s <:+: s :=
  (trimEnd_isPrefix _).isInfix.trans (trimStart_isSuffix s).isInfix

theorem exists_eq_append_trimStart (s : List Char) :
    ∃ u, (∀ c ∈ u, isBlank c = true) ∧ s = u ++ trimStart s :=
  ⟨s.takeWhile isBlank, fun _ hc => List.mem_takeWhile_imp hc,
    List.takeWhile_append_dropWhile.symm⟩

theorem exists_eq_trimEnd_append (s : List Char) :
    ∃ v, (∀ c ∈ v, isBlank c = true) ∧ s = trimEnd s ++ v :=
  exists_eq_dropEndWhile_append isBlank s

theorem isBlank_head?_trimStart {s : List Char} {c : Char} (h : (trimStart s).head? = some c) :
    isBlank c = false := by
  have := List.head?_dropWhile_not isBlank s
  rw [← trimStart, h] at this
  simpa using this

theorem isBlank_getLast?_trimEnd {s : List Char} {c : Char} (h : (trimEnd s).getLast? = some c) :
    isBlank c = false :=
  getLast?_dropEndWhile h

theorem trimStart_eq_self_iff {s : List Char} :
    trimStart s = s ↔ ∀ c, s.head? = some c → isBlank c = false := by
  constructor
  · intro h c hc
    exact isBlank_head?_trimStart (by rw [h]; exact hc)
  · intro h
    cases s with
    | nil => rfl
    | cons c s => rw [trimStart, List.dropWhile_cons_of_neg (by simp [h c rfl])]

theorem trimEnd_eq_self_iff {s : List Char} :
    trimEnd s = s ↔ ∀ c, s.getLast? = some c → isBlank c = false :=
  dropEndWhile_eq_self_iff

theorem trimStart_blank_append {u : List Char} (h : ∀ c ∈ u, isBlank c = true) (s : List Char) :
    trimStart (u ++ s) = trimStart s :=
  List.dropWhile_append_of_pos h

theorem trimEnd_append_blank {v : List Char} (h : ∀ c ∈ v, isBlank c = true) (s : List Char) :
    trimEnd (s ++ v) = trimEnd s :=
  dropEndWhile_append_of_forall h

theorem trimEnd_append_solid {s v : List Char} (h : trimEnd v ≠ []) :
    trimEnd (s ++ v) = s ++ trimEnd v :=
  dropEndWhile_append_of_ne_nil h

/-- The first character of a trimmed text, if there is one, is that of the text. -/
theorem head?_trimEnd {s : List Char} {c : Char} (h : (trimEnd s).head? = some c) :
    s.head? = some c := by
  obtain ⟨v, -, hv⟩ := exists_eq_trimEnd_append s
  rw [hv, List.head?_append, h, Option.some_or]

theorem isBlank_head?_trim {s : List Char} {c : Char} (h : (trim s).head? = some c) :
    isBlank c = false :=
  isBlank_head?_trimStart (head?_trimEnd h)

theorem trim_eq_self_iff {s : List Char} :
    trim s = s ↔ (∀ c, s.head? = some c → isBlank c = false) ∧
      ∀ c, s.getLast? = some c → isBlank c = false := by
  constructor
  · intro h
    exact ⟨fun c hc => isBlank_head?_trim (by rw [h]; exact hc),
      fun c hc => isBlank_getLast?_trimEnd (by rw [← trim, h]; exact hc)⟩
  · rintro ⟨h1, h2⟩
    rw [trim, trimStart_eq_self_iff.mpr h1, trimEnd_eq_self_iff.mpr h2]

theorem trim_trim (s : List Char) : trim (trim s) = trim s :=
  trim_eq_self_iff.mpr ⟨fun _ hc => isBlank_head?_trim hc, fun _ hc => isBlank_getLast?_trimEnd hc⟩

/-- Blanks around a trimmed text are trimmed away, and nothing else. -/
theorem trim_padded {u s v : List Char} (h : ∀ c ∈ u ++ v, isBlank c = true) (hs : trim s = s) :
    trim (u ++ s ++ v) = s := by
  rw [List.forall_mem_append] at h
  rw [trim, List.append_assoc, trimStart_blank_append h.1]
  cases s with
  | nil =>
    have hv : trimStart v = [] := List.dropWhile_eq_nil_iff.mpr h.2
    rw [List.nil_append, hv]
    rfl
  | cons c s =>
    obtain ⟨hfirst, hlast⟩ := trim_eq_self_iff.mp hs
    have hstart : trimStart (c :: s ++ v) = c :: s ++ v := trimStart_eq_self_iff.mpr hfirst
    rw [hstart, trimEnd_append_blank h.2, trimEnd_eq_self_iff.mpr hlast]

theorem exists_eq_append_dropBlank (s : List Char) :
    ∃ u, (∀ c ∈ u, isBlank c = true) ∧ s = u ++ dropBlank s := by
  cases s with
  | nil => exact ⟨[], by simp, rfl⟩
  | cons c s =>
    by_cases hc : isBlank c = true
    · exact ⟨[c], by simpa using hc, by simp [dropBlank, hc]⟩
    · exact ⟨[], by simp, by simp [dropBlank, hc]⟩

theorem trimStart_dropBlank (s : List Char) : trimStart (dropBlank s) = trimStart s := by
  obtain ⟨u, hu, hs⟩ := exists_eq_append_dropBlank s
  conv_rhs => rw [hs]
  rw [trimStart_blank_append hu]

end ErrorDocs.Text
