import ErrorDocs.Text.Search
import Mathlib.Data.List.Basic

/-!
# First occurrences

`breakOn?` is the search for the first occurrence of a pattern: it fails exactly on the texts that
do not contain the pattern, and cuts any other text where no earlier occurrence starts.

* `dropPrefix?_eq_some_iff`, `dropSuffix?_append`: a text that starts or ends with a pattern.
* **`breakOn?_eq_some_iff`**, **`breakOn?_eq_none_iff`**: what the search finds.
* `breakOn?_pair`: the search for two different units `a b` stops at the first cut that has no
  `a b` before it.
* `breakOn?_append_of_some`, `breakOn?_append_of_none`: the search of two texts put together.
-/

namespace ErrorDocs.Text

variable {α : Type} [DecidableEq α]

/-! ## Texts that start or end with a pattern -/

@[simp]
theorem dropPrefix?_append (pat rest : List α) : dropPrefix? pat (pat ++ rest) = some rest := by
  induction pat with
  | nil => rfl
  | cons p pat ih => simpa [dropPrefix?] using ih

theorem dropPrefix?_eq_some_iff {pat xs rest : List α} :
    dropPrefix? pat xs = some rest ↔ xs = pat ++ rest :=
  ⟨eq_append_of_dropPrefix?, fun h => by rw [h, dropPrefix?_append]⟩

theorem dropPrefix?_eq_none_iff {pat xs : List α} :
    dropPrefix? pat xs = none ↔ ¬ pat <+: xs := by
  rw [← Option.not_isSome_iff_eq_none, not_iff_not, Option.isSome_iff_exists]
  constructor
  · rintro ⟨rest, h⟩
    exact ⟨rest, (dropPrefix?_eq_some_iff.mp h).symm⟩
  · rintro ⟨rest, h⟩
    exact ⟨rest, dropPrefix?_eq_some_iff.mpr h.symm⟩

@[simp]
theorem dropSuffix?_append (pat xs : List α) : dropSuffix? pat (xs ++ pat) = some xs := by
  simp [dropSuffix?]

/-! ## The first occurrence -/

theorem breakFrom?_eq_map (pat seen xs : List α) :
    breakFrom? pat seen xs = (breakOn? pat xs).map fun p => (seen.reverse ++ p.1, p.2) := by
  have h : ∀ seen seen', breakFrom? pat (seen' ++ seen) xs =
      (breakFrom? pat seen' xs).map fun p => (seen.reverse ++ p.1, p.2) := by
    intro seen
    induction xs with
    | nil => intro seen'; simp only [breakFrom?]; split <;> simp
    | cons x xs ih =>
      intro seen'
      simp only [breakFrom?]
      split
      · simp
      · exact ih (x :: seen')
  exact h seen []

theorem breakOn?_cons (pat xs : List α) (x : α) :
    breakOn? pat (x :: xs) = match dropPrefix? pat (x :: xs) with
      | some rest => some ([], rest)
      | none => (breakOn? pat xs).map fun p => (x :: p.1, p.2) := by
  rw [breakOn?, breakFrom?]
  cases dropPrefix? pat (x :: xs) with
  | some rest => rfl
  | none => exact breakFrom?_eq_map pat [x] xs

/-- **The search fails exactly on texts without the pattern.** -/
theorem breakOn?_eq_none_iff {pat xs : List α} : breakOn? pat xs = none ↔ ¬ pat <:+: xs := by
  induction xs with
  | nil =>
    rw [breakOn?, breakFrom?]
    cases pat <;> simp [dropPrefix?]
  | cons x xs ih =>
    rw [breakOn?_cons, List.infix_cons_iff, not_or, ← ih, ← dropPrefix?_eq_none_iff]
    cases dropPrefix? pat (x :: xs) <;> simp

/-- No occurrence starts before the one that the search finds. -/
theorem length_le_of_breakOn? {pat xs gap rest : List α}
    (h : breakOn? pat xs = some (gap, rest)) (g r : List α) (hg : xs = g ++ pat ++ r) :
    gap.length ≤ g.length := by
  induction xs generalizing gap g with
  | nil =>
    have hx := eq_append_of_breakOn? h
    simp only [List.nil_eq, List.append_eq_nil_iff] at hx
    simp [hx.1.1]
  | cons x xs ih =>
    rw [breakOn?_cons] at h
    split at h
    · cases h; simp
    · rename_i hnone
      obtain ⟨p, hp, he⟩ := Option.map_eq_some_iff.mp h
      cases he
      cases g with
      | nil =>
        rw [dropPrefix?_eq_none_iff] at hnone
        exact absurd ⟨r, by simpa using hg.symm⟩ hnone
      | cons y g =>
        simp only [List.cons_append, List.cons.injEq] at hg
        have := ih hp g hg.2
        simpa using this

/-- **The search finds the first occurrence of the pattern.** -/
theorem breakOn?_eq_some_iff {pat xs gap rest : List α} :
    breakOn? pat xs = some (gap, rest) ↔
      xs = gap ++ pat ++ rest ∧ ∀ g r, xs = g ++ pat ++ r → gap.length ≤ g.length := by
  constructor
  · intro h
    exact ⟨eq_append_of_breakOn? h, length_le_of_breakOn? h⟩
  · rintro ⟨h, hmin⟩
    cases hb : breakOn? pat xs with
    | none => exact absurd ⟨gap, rest, h.symm⟩ (breakOn?_eq_none_iff.mp hb)
    | some p =>
      obtain ⟨gap', rest'⟩ := p
      have h' := eq_append_of_breakOn? hb
      have h1 := hmin _ _ h'
      have h2 := length_le_of_breakOn? hb _ _ h
      have he : gap ++ (pat ++ rest) = gap' ++ (pat ++ rest') := by
        rw [← List.append_assoc, ← List.append_assoc, ← h, ← h']
      obtain ⟨rfl, h3⟩ := List.append_inj he (by omega)
      rw [List.append_cancel_left h3]

/-! ## Texts put together -/

/-- What has been found is found again when more text follows. -/
theorem breakOn?_append_of_some {pat xs gap rest : List α} (h : breakOn? pat xs = some (gap, rest))
    (ys : List α) : breakOn? pat (xs ++ ys) = some (gap, rest ++ ys) := by
  obtain ⟨hxs, hmin⟩ := breakOn?_eq_some_iff.mp h
  refine breakOn?_eq_some_iff.mpr ⟨by rw [hxs, List.append_assoc], fun g r hg => ?_⟩
  by_contra hlt
  -- an earlier occurrence ends before the one that was found, so that it lies in `xs`
  have hpre : g ++ pat <+: xs ++ ys := ⟨r, hg.symm⟩
  have hlen : (g ++ pat).length ≤ xs.length := by
    rw [hxs]
    simp only [List.length_append]
    omega
  obtain ⟨r', hr'⟩ := List.prefix_of_prefix_length_le hpre (List.prefix_append xs ys) hlen
  exact hlt (hmin g r' hr'.symm)

/-- What is found where more text follows is found without it. -/
theorem breakOn?_of_append {pat gap rest : List α}
    (h : breakOn? pat (gap ++ pat ++ rest) = some (gap, rest)) :
    breakOn? pat (gap ++ pat) = some (gap, []) := by
  refine breakOn?_eq_some_iff.mpr ⟨(List.append_nil _).symm, fun g r hg => ?_⟩
  exact length_le_of_breakOn? h g (r ++ rest) (by rw [hg, List.append_assoc])

/-- A pattern that does not occur in the first text, and has no part in common with its end, is
looked for in the second. -/
theorem breakOn?_append_of_none {pat xs : List α} (h : breakOn? pat xs = none)
    (hlast : ∀ x, xs.getLast? = some x → x ∉ pat) (ys : List α) :
    breakOn? pat (xs ++ ys) = (breakOn? pat ys).map fun p => (xs ++ p.1, p.2) := by
  induction xs with
  | nil => simp
  | cons x xs ih =>
    have hno := breakOn?_eq_none_iff.mp h
    rw [List.infix_cons_iff, not_or] at hno
    have hpre : ¬ pat <+: x :: (xs ++ ys) := by
      intro hpat
      rcases List.prefix_or_prefix_of_prefix hpat (List.prefix_append (x :: xs) ys) with hp | hp
      · exact hno.1 hp
      · have hmem := List.getLast_mem (List.cons_ne_nil x xs)
        exact hlast _ (List.getLast?_eq_some_getLast _) (hp.subset hmem)
    have hlast' : ∀ y, xs.getLast? = some y → y ∉ pat := by
      intro y hy
      refine hlast y ?_
      rw [List.getLast?_cons, hy, Option.getD_some]
    rw [List.cons_append, breakOn?_cons, dropPrefix?_eq_none_iff.mpr hpre,
      ih (breakOn?_eq_none_iff.mpr hno.2) hlast', Option.map_map]
    rfl

/-! ## Patterns of two units -/

omit [DecidableEq α] in
theorem pair_infix_cons {a b x : α} {xs : List α} :
    [a, b] <:+: x :: xs ↔ (x = a ∧ xs.head? = some b) ∨ [a, b] <:+: xs := by
  rw [List.infix_cons_iff, List.cons_prefix_cons, List.head?_eq_some_iff, eq_comm]
  refine or_congr_left (and_congr_right fun _ => ?_)
  constructor
  · rintro ⟨t, rfl⟩; exact ⟨t, rfl⟩
  · rintro ⟨t, rfl⟩; exact ⟨t, rfl⟩

omit [DecidableEq α] in
theorem pair_infix_append {a b : α} {xs ys : List α} :
    [a, b] <:+: xs ++ ys ↔ [a, b] <:+: xs ∨ [a, b] <:+: ys ∨
      (xs.getLast? = some a ∧ ys.head? = some b) := by
  induction xs with
  | nil => simp
  | cons x xs ih =>
    rw [List.cons_append, pair_infix_cons, pair_infix_cons, ih]
    cases xs with
    | nil => simp; tauto
    | cons y xs => simp; tauto

/-- The search for `a b` stops at a cut exactly when there is no `a b` before the cut. -/
theorem breakOn?_pair {a b : α} (hab : a ≠ b) (inner rest : List α) :
    breakOn? [a, b] (inner ++ [a, b] ++ rest) = some (inner, rest) ↔ ¬ [a, b] <:+: inner := by
  rw [breakOn?_eq_some_iff]
  constructor
  · rintro ⟨-, hmin⟩ ⟨g, r, hg⟩
    have := hmin g (r ++ [a, b] ++ rest) (by rw [← hg]; simp)
    have hl := congrArg List.length hg
    simp only [List.length_append, List.length_cons, List.length_nil] at hl
    omega
  · intro hno
    refine ⟨rfl, fun g r hg => ?_⟩
    by_contra hlt
    -- an earlier occurrence would lie in `inner`, or share the unit after it
    have hin : [a, b] <:+: inner ++ [a] := by
      have h1 : g ++ [a, b] <+: inner ++ [a] ++ ([b] ++ rest) := ⟨r, by rw [← hg]; simp⟩
      have h2 : g ++ [a, b] <+: inner ++ [a] :=
        List.prefix_of_prefix_length_le h1 (List.prefix_append _ _) (by simp; omega)
      exact (List.suffix_append g [a, b]).isInfix.trans h2.isInfix
    rcases pair_infix_append.mp hin with h | h | ⟨-, h⟩
    · exact hno h
    · simpa using h.length_le
    · exact hab (Option.some.inj h)

end ErrorDocs.Text
