import ErrorDocs.Proofs.Text.Search

/-!
# Texts spelled unit by unit

A text may be written in another form unit by unit: with escapes, or with other line ends. A
spelling is *faithful* to some units if each of them is written as one unit of its own that occurs
in no other spelling. A pattern made of such units is then found at the same places before and
after.

* `IsFaithful`: the rule.
* **`breakOn?_flatMap`**, `infix_flatMap_iff`: searching before and after spelling.
-/

namespace ErrorDocs.Text

variable {α β : Type}

/-- A spelling in which each of the given units is one unit of its own, which no other unit is
written with. -/
structure IsFaithful (spell : α → List β) (own : α → β) (units : List α) : Prop where
  spell_eq : ∀ x ∈ units, spell x = [own x]
  inj : ∀ x ∈ units, ∀ y ∈ units, own x = own y → x = y
  ne_nil : ∀ x ∉ units, spell x ≠ []
  not_mem : ∀ x ∉ units, ∀ b ∈ spell x, b ∉ units.map own

variable [DecidableEq α] [DecidableEq β] {spell : α → List β} {own : α → β} {units : List α}

theorem breakOn?_append_of_forall_not_mem {pat : List α} (hne : pat ≠ []) {xs : List α}
    (h : ∀ x ∈ xs, x ∉ pat) (ys : List α) :
    breakOn? pat (xs ++ ys) = (breakOn? pat ys).map fun p => (xs ++ p.1, p.2) := by
  refine breakOn?_append_of_none ?_ (fun x hx => h x (List.mem_of_getLast? hx)) ys
  rw [breakOn?_eq_none_iff]
  intro hfound
  have hhead := List.head_mem hne
  exact h _ (hfound.subset hhead) hhead

namespace IsFaithful

variable (h : IsFaithful spell own units)

include h

theorem dropPrefix?_flatMap {pat : List α} (hpat : pat ⊆ units) (xs : List α) :
    dropPrefix? (pat.map own) (xs.flatMap spell) =
      (dropPrefix? pat xs).map fun rest => rest.flatMap spell := by
  fun_induction dropPrefix? pat xs with
  | case1 xs => rfl
  | case2 p pat => rfl
  | case3 pat x xs ih =>
    have hx : x ∈ units := hpat List.mem_cons_self
    rw [List.flatMap_cons, h.spell_eq x hx, List.map_cons, List.singleton_append, dropPrefix?,
      if_pos rfl, ih fun y hy => hpat (List.mem_cons_of_mem _ hy)]
  | case4 p pat x xs hne =>
    have hp : p ∈ units := hpat List.mem_cons_self
    obtain ⟨b, bs, hb, hbp⟩ : ∃ b bs, spell x = b :: bs ∧ own p ≠ b := by
      by_cases hx : x ∈ units
      · exact ⟨own x, [], h.spell_eq x hx, fun he => hne (h.inj p hp x hx he)⟩
      · obtain ⟨b, bs, hb⟩ := List.exists_cons_of_ne_nil (h.ne_nil x hx)
        refine ⟨b, bs, hb, fun he => h.not_mem x hx b (by simp [hb]) ?_⟩
        exact he ▸ List.mem_map_of_mem hp
    rw [List.flatMap_cons, hb, List.map_cons, List.cons_append, dropPrefix?, if_neg hbp]
    rfl

/-- **A pattern of faithful units is found at the same place before and after spelling.** -/
theorem breakOn?_flatMap (pat : List α) (hne : pat ≠ []) (hpat : pat ⊆ units) (xs : List α) :
    breakOn? (pat.map own) (xs.flatMap spell) =
      (breakOn? pat xs).map fun p => (p.1.flatMap spell, p.2.flatMap spell) := by
  have hne' : pat.map own ≠ [] := by simpa using hne
  induction xs with
  | nil =>
    obtain ⟨p, pat, rfl⟩ := List.exists_cons_of_ne_nil hne
    rfl
  | cons x xs ih =>
    by_cases hx : x ∈ units
    · have hdrop := h.dropPrefix?_flatMap hpat (x :: xs)
      rw [List.flatMap_cons, h.spell_eq x hx, List.singleton_append] at hdrop ⊢
      rw [breakOn?_cons, breakOn?_cons, hdrop]
      cases dropPrefix? pat (x :: xs) with
      | some rest => rfl
      | none =>
        rw [Option.map_none, ih, Option.map_map, Option.map_map]
        simp [Function.comp_def, h.spell_eq x hx]
    · -- nothing that is written for `x` is part of the pattern
      have hspell : ∀ b ∈ spell x, b ∉ pat.map own := fun b hb hmem =>
        h.not_mem x hx b hb (List.map_subset own hpat hmem)
      have hskip : dropPrefix? pat (x :: xs) = none := by
        obtain ⟨p, pat, rfl⟩ := List.exists_cons_of_ne_nil hne
        rw [dropPrefix?, if_neg]
        rintro rfl
        exact hx (hpat List.mem_cons_self)
      rw [List.flatMap_cons, breakOn?_append_of_forall_not_mem hne' hspell, ih, breakOn?_cons,
        hskip, Option.map_map, Option.map_map]
      simp [Function.comp_def]

theorem infix_flatMap_iff (pat : List α) (hne : pat ≠ []) (hpat : pat ⊆ units) (xs : List α) :
    pat.map own <:+: xs.flatMap spell ↔ pat <:+: xs := by
  have := h.breakOn?_flatMap pat hne hpat xs
  rw [← not_iff_not, ← breakOn?_eq_none_iff, ← breakOn?_eq_none_iff, this, Option.map_eq_none_iff]

end IsFaithful

end ErrorDocs.Text
