/-!
# Searching a text

A pattern is looked for from the left. The functions here do not depend on what a text is made
of, so that one search serves both characters and bytes.

* `breakOn?` cuts a text around the first occurrence of a pattern.
* `length_breakOn?` says that the pieces and the pattern make up the length of the text.
-/

namespace ErrorDocs.Text

variable {α : Type} [DecidableEq α]

/-- What follows `pat` in a text that starts with it. -/
def dropPrefix? : List α → List α → Option (List α)
  | [], xs => some xs
  | _ :: _, [] => none
  | p :: pat, x :: xs => if p = x then dropPrefix? pat xs else none

/-- What stands before `pat` in a text that ends with it. -/
def dropSuffix? (pat xs : List α) : Option (List α) :=
  (dropPrefix? pat.reverse xs.reverse).map List.reverse

/-- The search behind `breakOn?`: `seen` holds, last first, what has been passed over. -/
def breakFrom? (pat : List α) (seen : List α) : List α → Option (List α × List α)
  | [] =>
    match dropPrefix? pat [] with
    | some rest => some (seen.reverse, rest)
    | none => none
  | x :: xs =>
    match dropPrefix? pat (x :: xs) with
    | some rest => some (seen.reverse, rest)
    | none => breakFrom? pat (x :: seen) xs

/-- What stands before and what follows the first occurrence of `pat` in a text. -/
def breakOn? (pat xs : List α) : Option (List α × List α) :=
  breakFrom? pat [] xs

theorem eq_append_of_dropPrefix? {pat xs rest : List α} (h : dropPrefix? pat xs = some rest) :
    xs = pat ++ rest := by
  fun_induction dropPrefix? pat xs with
  | case1 xs => simpa using h
  | case2 => simp at h
  | case3 pat x xs ih => simp [ih h]
  | case4 => simp at h

theorem eq_append_of_breakFrom? {pat seen xs gap rest : List α}
    (h : breakFrom? pat seen xs = some (gap, rest)) : seen.reverse ++ xs = gap ++ pat ++ rest := by
  fun_induction breakFrom? pat seen xs with
  | case1 seen rest' hd =>
    have := eq_append_of_dropPrefix? hd
    simp only [Option.some.injEq, Prod.mk.injEq] at h
    obtain ⟨rfl, rfl⟩ := h
    simp [this]
  | case2 => simp at h
  | case3 seen x xs rest' hd =>
    have := eq_append_of_dropPrefix? hd
    simp only [Option.some.injEq, Prod.mk.injEq] at h
    obtain ⟨rfl, rfl⟩ := h
    simp [this]
  | case4 seen x xs hd ih => simpa using ih h

/-- The first occurrence cuts the text into what stands before it, the pattern, and the rest. -/
theorem eq_append_of_breakOn? {pat xs gap rest : List α} (h : breakOn? pat xs = some (gap, rest)) :
    xs = gap ++ pat ++ rest := by
  simpa using eq_append_of_breakFrom? h

theorem length_breakOn? {pat xs gap rest : List α} (h : breakOn? pat xs = some (gap, rest)) :
    xs.length = gap.length + pat.length + rest.length := by
  simp [eq_append_of_breakOn? h, Nat.add_assoc]

end ErrorDocs.Text
