import ErrorDocs.Comment.Block
import ErrorDocs.Proofs.Text.Search

/-!
# Where blocks are found

The search for blocks goes from one block to the next: `findFrom_of_none` and `findFrom_of_some`
are its two steps, and `blockInduction` is the induction along them.

* `findBlocks_of_none`, `findBlocks_of_some`: the blocks of a text in terms of the rest of it.
* `exists_eq_append_of_mem_findBlocks`: a block stands in the text at its offset.
* **`Comment.exists_of_mem_blocks`**: the inside of a comment has no closing delimiter in it, and
  the offset of the comment is the size of what comes before it.
-/

namespace ErrorDocs

variable {α : Type} [DecidableEq α] {width : α → Nat} {d : Delimiters α}

/-! ## Widths -/

section Extent

omit [DecidableEq α]

@[simp]
theorem extent_nil (width : α → Nat) : extent width [] = 0 := rfl

@[simp]
theorem extent_cons (width : α → Nat) (x : α) (xs : List α) :
    extent width (x :: xs) = width x + extent width xs := by
  have h : ∀ n, xs.foldl (fun n x => n + width x) n = n + extent width xs := by
    induction xs with
    | nil => intro n; rfl
    | cons y xs ih =>
      intro n
      have hy : extent width (y :: xs) = width y + extent width xs := by
        rw [extent, List.foldl_cons, ih, Nat.zero_add]
      rw [List.foldl_cons, ih, hy, Nat.add_assoc]
  rw [extent, List.foldl_cons, h, Nat.zero_add]

@[simp]
theorem extent_append (width : α → Nat) (xs ys : List α) :
    extent width (xs ++ ys) = extent width xs + extent width ys := by
  induction xs with
  | nil => simp
  | cons x xs ih => rw [List.cons_append, extent_cons, extent_cons, ih, Nat.add_assoc]

@[simp]
theorem extent_one (xs : List α) : extent (fun _ => 1) xs = xs.length := by
  induction xs with
  | nil => rfl
  | cons x xs ih => rw [extent_cons, ih, List.length_cons, Nat.add_comm]

end Extent

/-! ## The steps of the search -/

theorem nextBlock?_eq_bind (d : Delimiters α) (xs : List α) :
    nextBlock? d xs = (Text.breakOn? d.opening xs).bind fun p =>
      (Text.breakOn? d.closing p.2).map fun q => (p.1, q.1, q.2) := by
  unfold nextBlock?
  rcases Text.breakOn? d.opening xs with _ | ⟨gap, body⟩
  · rfl
  · dsimp only [Option.bind_some]
    cases Text.breakOn? d.closing body <;> rfl

theorem nextBlock?_eq_some_iff {xs gap inner rest : List α} :
    nextBlock? d xs = some (gap, inner, rest) ↔
      ∃ body, Text.breakOn? d.opening xs = some (gap, body) ∧
        Text.breakOn? d.closing body = some (inner, rest) := by
  simp [nextBlock?_eq_bind, Option.bind_eq_some_iff]

theorem eq_append_of_nextBlock? {xs gap inner rest : List α}
    (h : nextBlock? d xs = some (gap, inner, rest)) :
    xs = gap ++ (d.opening ++ inner ++ d.closing) ++ rest := by
  obtain ⟨body, h1, h2⟩ := nextBlock?_eq_some_iff.mp h
  rw [Text.eq_append_of_breakOn? h1, Text.eq_append_of_breakOn? h2]
  simp

theorem breakOn?_closing_of_nextBlock? {xs gap inner rest : List α}
    (h : nextBlock? d xs = some (gap, inner, rest)) :
    Text.breakOn? d.closing (inner ++ d.closing ++ rest) = some (inner, rest) := by
  obtain ⟨body, -, h2⟩ := nextBlock?_eq_some_iff.mp h
  rw [← Text.eq_append_of_breakOn? h2, h2]

theorem findFrom_of_none {offset : Nat} {found : List (Block α)} {xs : List α}
    (h : nextBlock? d xs = none) : findFrom width d offset found xs = found.reverse := by
  rw [findFrom]
  split
  · rfl
  · simp_all

theorem findFrom_of_some {offset : Nat} {found : List (Block α)} {xs gap inner rest : List α}
    (h : nextBlock? d xs = some (gap, inner, rest)) :
    findFrom width d offset found xs =
      findFrom width d (offset + extent width (gap ++ (d.opening ++ inner ++ d.closing)))
        (⟨offset + extent width gap, d.opening ++ inner ++ d.closing⟩ :: found) rest := by
  rw [findFrom]
  split
  · simp_all
  · rename_i gap' inner' rest' h'
    rw [h, Option.some.injEq, Prod.mk.injEq, Prod.mk.injEq] at h'
    obtain ⟨rfl, rfl, rfl⟩ := h'
    simp [Nat.add_assoc]

/-- Induction along the blocks of a text. -/
@[elab_as_elim]
theorem blockInduction {motive : List α → Prop} (d : Delimiters α)
    (none : ∀ xs, nextBlock? d xs = none → motive xs)
    (some : ∀ xs gap inner rest, nextBlock? d xs = some (gap, inner, rest) → motive rest →
      motive xs) (xs : List α) : motive xs := by
  induction h : xs.length using Nat.strongRecOn generalizing xs with
  | _ n ih =>
    cases hb : nextBlock? d xs with
    | none => exact none xs hb
    | some p =>
      obtain ⟨gap, inner, rest⟩ := p
      exact some xs gap inner rest hb (ih _ (h ▸ length_nextBlock? hb) rest rfl)

/-- What has been found before stays in front. -/
theorem findFrom_eq_append (offset : Nat) (found : List (Block α)) (xs : List α) :
    findFrom width d offset found xs = found.reverse ++ findFrom width d offset [] xs := by
  induction xs using blockInduction d generalizing offset found with
  | none xs h => simp [findFrom_of_none h]
  | some xs gap inner rest h ih =>
    rw [findFrom_of_some h, findFrom_of_some h, ih, ih _ [_]]
    simp

/-! ## The rest of the text -/

/-- A block with more before it. -/
def Block.shift (n : Nat) (b : Block α) : Block α :=
  { b with offset := n + b.offset }

theorem findFrom_eq_map_shift (offset : Nat) (xs : List α) :
    findFrom width d offset [] xs = (findBlocks width d xs).map (Block.shift offset) := by
  unfold findBlocks
  induction xs using blockInduction d generalizing offset with
  | none xs h => simp [findFrom_of_none h]
  | some xs gap inner rest h ih =>
    rw [findFrom_of_some h, findFrom_of_some h, findFrom_eq_append, findFrom_eq_append _ [_] rest,
      ih, ih (0 + _), List.map_append, List.map_map]
    simp [Block.shift, Function.comp_def, Nat.add_assoc]

theorem findBlocks_of_none {xs : List α} (h : nextBlock? d xs = none) :
    findBlocks width d xs = [] := findFrom_of_none h

theorem findBlocks_of_some {xs gap inner rest : List α}
    (h : nextBlock? d xs = some (gap, inner, rest)) :
    findBlocks width d xs =
      ⟨extent width gap, d.opening ++ inner ++ d.closing⟩ ::
        (findBlocks width d rest).map
          (Block.shift (extent width (gap ++ (d.opening ++ inner ++ d.closing)))) := by
  rw [findBlocks, findFrom_of_some h, findFrom_eq_append, findFrom_eq_map_shift]
  simp

/-! ## Where blocks stand -/

theorem exists_eq_append_of_mem_findFrom {offset : Nat} {xs : List α} {b : Block α}
    (hb : b ∈ findFrom width d offset [] xs) :
    ∃ before inner rest, xs = before ++ b.raw ++ rest ∧ b.offset = offset + extent width before ∧
      b.raw = d.opening ++ inner ++ d.closing ∧
      Text.breakOn? d.closing (inner ++ d.closing ++ rest) = some (inner, rest) := by
  induction xs using blockInduction d generalizing offset with
  | none xs h => simp [findFrom_of_none h] at hb
  | some xs gap inner rest h ih =>
    rw [findFrom_of_some h, findFrom_eq_append] at hb
    have hxs := eq_append_of_nextBlock? h
    rcases List.mem_append.mp hb with hb | hb
    · rw [List.reverse_singleton, List.mem_singleton] at hb
      subst hb
      exact ⟨gap, inner, rest, hxs, rfl, rfl, breakOn?_closing_of_nextBlock? h⟩
    · obtain ⟨before, inner', rest', hrest, ho, hraw, hclose⟩ := ih hb
      refine ⟨gap ++ (d.opening ++ inner ++ d.closing) ++ before, inner', rest', ?_, ?_, hraw,
        hclose⟩
      · rw [hxs, hrest]
        simp
      · rw [ho, extent_append _ _ before, Nat.add_assoc]

/-- **A block stands in the text at its offset.** -/
theorem exists_eq_append_of_mem_findBlocks {xs : List α} {b : Block α}
    (hb : b ∈ findBlocks width d xs) :
    ∃ before inner rest, xs = before ++ b.raw ++ rest ∧ b.offset = extent width before ∧
      b.raw = d.opening ++ inner ++ d.closing ∧
      Text.breakOn? d.closing (inner ++ d.closing ++ rest) = some (inner, rest) := by
  simpa using exists_eq_append_of_mem_findFrom hb

/-- Blocks are found from the left to the right. -/
theorem pairwise_offset_findBlocks (xs : List α) :
    (findBlocks width d xs).Pairwise fun a b => a.offset ≤ b.offset := by
  induction xs using blockInduction d with
  | none xs h =>
    rw [findBlocks_of_none h]
    exact List.Pairwise.nil
  | some xs gap inner rest h ih =>
    rw [findBlocks_of_some h, List.pairwise_cons, List.pairwise_map]
    constructor
    · intro b hb
      obtain ⟨b', -, rfl⟩ := List.mem_map.mp hb
      show extent width gap ≤ extent width (gap ++ (d.opening ++ inner ++ d.closing)) + b'.offset
      rw [extent_append]
      omega
    · exact ih.imp fun hab => Nat.add_le_add_left hab _

namespace Comment

/-- **The inside of a comment has no closing delimiter in it.** -/
theorem exists_of_mem_blocks {text : List Char} {b : Block Char} (hb : b ∈ blocks text) :
    ∃ before inner rest, text = before ++ b.raw ++ rest ∧
      b.offset = extent Char.utf8Size before ∧ b.raw = opening ++ inner ++ closing ∧
      ¬ closing <:+: inner := by
  obtain ⟨before, inner, rest, htext, ho, hraw, hclose⟩ := exists_eq_append_of_mem_findBlocks hb
  exact ⟨before, inner, rest, htext, ho, hraw,
    (Text.breakOn?_pair (by decide) inner rest).mp hclose⟩

/-- A text that is nothing but a comment has that comment as its only block. -/
theorem blocks_singleton {inner : List Char} (h : ¬ closing <:+: inner) :
    blocks (opening ++ inner ++ closing) = [⟨0, opening ++ inner ++ closing⟩] := by
  have hnext : nextBlock? delimiters (opening ++ inner ++ closing) = some ([], inner, []) := by
    refine nextBlock?_eq_some_iff.mpr ⟨inner ++ closing, ?_, ?_⟩
    · exact Text.breakOn?_eq_some_iff.mpr ⟨by simp [delimiters], by simp⟩
    · have := (Text.breakOn?_pair (show '*' ≠ '/' by decide) inner []).mpr h
      rwa [List.append_nil] at this
  rw [blocks, findBlocks, findFrom_of_some hnext, findFrom_of_none (by decide)]
  rfl

end Comment

end ErrorDocs
