import ErrorDocs.Json.Printer
import ErrorDocs.Proofs.Comment.Block
import ErrorDocs.Proofs.Text.Spelling

/-!
# What is written in JSON closes no comment

The printer writes no slash of its own, and escapes neither slashes nor stars. So the end of a
comment stands in what is written only if it stands in one of the texts of the value.

* `Comment.IsInert`: texts that close no comment, whatever they are put after.
* `Json.isFaithful_escapeChar`: the spelling of slashes and stars.
* **`Json.Unclosed.isInert_pretty`**: a value without the end of a comment in its texts.
-/

namespace ErrorDocs

namespace Comment

/-- Texts that close no comment, whatever they are put after. -/
structure IsInert (s : List Char) : Prop where
  noClosing : ¬ closing <:+: s
  head : s.head? ≠ some '/'

namespace IsInert

variable {s t : List Char}

theorem of_not_mem (h : '/' ∉ s) : IsInert s where
  noClosing hc := h (hc.subset (by decide))
  head hs := h (List.mem_of_head? hs)

theorem append (hs : IsInert s) (ht : IsInert t) : IsInert (s ++ t) where
  noClosing hc := by
    rcases Text.pair_infix_append.mp hc with h | h | ⟨-, h⟩
    · exact hs.noClosing h
    · exact ht.noClosing h
    · exact ht.head h
  head h := by
    rw [List.head?_append] at h
    rcases Option.or_eq_some_iff.mp h with h | ⟨-, h⟩
    · exact hs.head h
    · exact ht.head h

theorem cons {c : Char} (hc : c ≠ '/') (hs : IsInert s) : IsInert (c :: s) :=
  (of_not_mem (s := [c]) (by simpa using hc.symm)).append hs

theorem intercalate {sep : List Char} (hsep : IsInert sep) {ls : List (List Char)}
    (h : ∀ l ∈ ls, IsInert l) : IsInert (List.intercalate sep ls) := by
  induction ls with
  | nil => exact of_not_mem (by simp)
  | cons l ls ih =>
    rw [List.forall_mem_cons] at h
    cases ls with
    | nil =>
      rw [List.intercalate_singleton]
      exact h.1
    | cons l' ls =>
      rw [List.intercalate_cons_cons]
      exact (h.1.append hsep).append (ih h.2)

end IsInert

end Comment

namespace Json

open Comment (IsInert)

/-! ## Texts -/

theorem hexDigit_not_mem : ∀ n < 16, hexDigit n ∉ ['/', '*'] := by decide

/-- A character stands for itself or is written without slashes and stars. -/
theorem escapeChar_cases (c : Char) : escapeChar c = [c] ∨
    escapeChar c ≠ [] ∧ ∀ b ∈ escapeChar c, b ∉ ['/', '*'] := by
  unfold escapeChar
  iterate 7
    split
    · exact .inr ⟨List.cons_ne_nil _ _, by simp⟩
  split
  · -- a control character is written with the digits of its number
    rename_i hlow
    have hhigh := hexDigit_not_mem (c.toNat / 16) (by omega)
    have hdigit := hexDigit_not_mem (c.toNat % 16) (by omega)
    have hstart : ∀ b ∈ ['\\', 'u', '0', '0'], b ∉ ['/', '*'] := by simp
    refine .inr ⟨List.cons_ne_nil _ _, List.forall_mem_append.mpr ⟨hstart, ?_⟩⟩
    exact List.forall_mem_cons.mpr ⟨hhigh, List.forall_mem_singleton.mpr hdigit⟩
  · exact .inl rfl

/-- Slashes and stars are written as they are, and nothing else is written with them. -/
theorem isFaithful_escapeChar : Text.IsFaithful escapeChar id ['/', '*'] where
  spell_eq := List.forall_mem_cons.mpr ⟨rfl, List.forall_mem_singleton.mpr rfl⟩
  inj x _ y _ h := h
  ne_nil x _ := by
    rcases escapeChar_cases x with h | ⟨h, -⟩
    · rw [h]
      exact List.cons_ne_nil _ _
    · exact h
  not_mem x hx := by
    rw [List.map_id]
    rcases escapeChar_cases x with h | ⟨-, h⟩
    · rw [h]
      exact List.forall_mem_singleton.mpr hx
    · exact h

theorem isInert_quote {s : List Char} (h : ¬ Comment.closing <:+: s) : IsInert (quote s) where
  noClosing hc := by
    have hescaped : ¬ ['*', '/'] <:+: s.flatMap escapeChar := by
      have := isFaithful_escapeChar.infix_flatMap_iff Comment.closing (by decide) (by decide) s
      rw [List.map_id] at this
      exact mt this.mp h
    rw [quote, Comment.closing, Text.pair_infix_cons, Text.pair_infix_append] at hc
    simp [hescaped, Text.pair_infix_cons] at hc
  head := by simp [quote]

/-! ## Values -/

/-- Values made of texts, arrays and objects, no text of which has the end of a comment in it. -/
inductive Unclosed : Json → Prop where
  | string {s : String} (h : ¬ Comment.closing <:+: s.toList) : Unclosed (.string s)
  | array {items : List Json} (h : ∀ v ∈ items, Unclosed v) : Unclosed (.array items)
  | object {members : List (String × Json)}
      (names : ∀ x ∈ members, ¬ Comment.closing <:+: x.1.toList)
      (values : ∀ x ∈ members, Unclosed x.2) : Unclosed (.object members)

theorem prettyItems_eq_map (level : Nat) (items : List Json) :
    prettyItems level items = items.map (prettyAt level) := by
  induction items with
  | nil => rw [prettyItems, List.map_nil]
  | cons v items ih => rw [prettyItems, ih, List.map_cons]

theorem prettyMembers_eq_map (level : Nat) (members : List (String × Json)) :
    prettyMembers level members =
      members.map fun x => quote x.1.toList ++ ':' :: ' ' :: prettyAt level x.2 := by
  induction members with
  | nil => rw [prettyMembers, List.map_nil]
  | cons x members ih => rw [prettyMembers, ih, List.map_cons]

theorem isInert_lineStart (level : Nat) : IsInert (lineStart level) := by
  refine .cons (by decide) (.of_not_mem fun h => ?_)
  exact absurd (List.eq_of_mem_replicate h) (by decide)

theorem isInert_enclose (level : Nat) {left right : Char} (hleft : left ≠ '/') (hright : right ≠ '/')
    {parts : List (List Char)} (h : ∀ part ∈ parts, IsInert part) :
    IsInert (enclose level left right parts) := by
  have hend : IsInert [right] := .of_not_mem (by simpa using hright.symm)
  cases parts with
  | nil => exact hend.cons hleft
  | cons part parts =>
    refine .cons hleft (((IsInert.intercalate (.of_not_mem (by decide)) ?_).append
      (isInert_lineStart level)).append hend)
    intro line hline
    obtain ⟨part', hpart', rfl⟩ := List.mem_map.mp hline
    exact (isInert_lineStart _).append (h part' hpart')

theorem Unclosed.isInert_prettyAt {v : Json} (h : v.Unclosed) (level : Nat) :
    IsInert (prettyAt level v) := by
  induction h generalizing level with
  | string h =>
    rw [prettyAt]
    exact isInert_quote h
  | array h ih =>
    rw [prettyAt, prettyItems_eq_map]
    refine isInert_enclose level (by decide) (by decide) fun part hpart => ?_
    obtain ⟨v, hv, rfl⟩ := List.mem_map.mp hpart
    exact ih v hv (level + 1)
  | object names values ih =>
    rw [prettyAt, prettyMembers_eq_map]
    refine isInert_enclose level (by decide) (by decide) fun part hpart => ?_
    obtain ⟨x, hx, rfl⟩ := List.mem_map.mp hpart
    refine (isInert_quote (names x hx)).append (.cons (by decide) (.cons (by decide) ?_))
    exact ih x hx (level + 1)

/-- **A value is written without the end of a comment if its texts have none.** -/
theorem Unclosed.isInert_pretty {v : Json} (h : v.Unclosed) : IsInert (pretty v) :=
  h.isInert_prettyAt 0

end Json

end ErrorDocs
