import ErrorDocs.Proofs.Comment.Block
import ErrorDocs.Proofs.Text.Spelling

/-!
# Blocks of a text in another spelling

A text that is written in another form unit by unit has its blocks at the same places, as long as
the form is faithful to the units of the delimiters. The width of a unit is then that of what is
written for it.

* `Delimiters.map`: the delimiters in the other form.
* **`findBlocks_flatMap`**: the blocks of a text in another form.
-/

namespace ErrorDocs

variable {α β : Type}

/-- Delimiters in which every unit is replaced by another. -/
def Delimiters.map (own : α → β) (d : Delimiters α) : Delimiters β where
  opening := d.opening.map own
  closing := d.closing.map own
  opening_ne_nil := by simpa using d.opening_ne_nil

theorem extent_flatMap (width : β → Nat) (spell : α → List β) (xs : List α) :
    extent width (xs.flatMap spell) = extent (fun x => extent width (spell x)) xs := by
  induction xs with
  | nil => rfl
  | cons x xs ih => rw [List.flatMap_cons, extent_append, ih, extent_cons]

section Spelled

variable {spell : α → List β} {own : α → β} {d : Delimiters α}
  (h : Text.IsFaithful spell own (d.opening ++ d.closing))

include h

theorem flatMap_of_subset_units {xs : List α} (hxs : xs ⊆ d.opening ++ d.closing) :
    xs.flatMap spell = xs.map own := by
  rw [List.map_eq_flatMap]
  exact List.flatMap_congr fun x hx => h.spell_eq x (hxs hx)

theorem flatMap_block (inner : List α) :
    (d.opening ++ inner ++ d.closing).flatMap spell =
      (d.map own).opening ++ inner.flatMap spell ++ (d.map own).closing := by
  rw [List.flatMap_append, List.flatMap_append,
    flatMap_of_subset_units h (List.subset_append_left _ _),
    flatMap_of_subset_units h (List.subset_append_right _ _)]
  rfl

variable [DecidableEq α] [DecidableEq β]

theorem nextBlock?_flatMap (hclosing : d.closing ≠ []) (xs : List α) :
    nextBlock? (d.map own) (xs.flatMap spell) = (nextBlock? d xs).map fun p =>
      (p.1.flatMap spell, p.2.1.flatMap spell, p.2.2.flatMap spell) := by
  have hopen := h.breakOn?_flatMap d.opening d.opening_ne_nil (List.subset_append_left _ _) xs
  rw [nextBlock?_eq_bind, nextBlock?_eq_bind, Delimiters.map, hopen]
  cases Text.breakOn? d.opening xs with
  | none => rfl
  | some p =>
    have hclose := h.breakOn?_flatMap d.closing hclosing (List.subset_append_right _ _) p.2
    rw [Option.map_some, Option.bind_some, Option.bind_some, hclose, Option.map_map,
      Option.map_map]
    rfl

/-- **The blocks of a text in another form** are those of the text, in that form. -/
theorem findBlocks_flatMap (hclosing : d.closing ≠ []) (width : β → Nat) (xs : List α) :
    findBlocks width (d.map own) (xs.flatMap spell) =
      (findBlocks (fun x => extent width (spell x)) d xs).map fun b =>
        ⟨b.offset, b.raw.flatMap spell⟩ := by
  induction xs using blockInduction d with
  | none xs hnext =>
    have hnext' := nextBlock?_flatMap h hclosing xs
    rw [hnext, Option.map_none] at hnext'
    rw [findBlocks_of_none hnext, findBlocks_of_none hnext', List.map_nil]
  | some xs gap inner rest hnext ih =>
    have hnext' := nextBlock?_flatMap h hclosing xs
    rw [hnext, Option.map_some] at hnext'
    rw [findBlocks_of_some hnext, findBlocks_of_some hnext', ih, ← flatMap_block h,
      ← List.flatMap_append, extent_flatMap, extent_flatMap]
    simp [Block.shift]

end Spelled

end ErrorDocs
