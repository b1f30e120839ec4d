import Mathlib.Data.List.Infix
import ErrorDocs.Proofs.Comment.Cursor

/-!
# Dividing a text into blocks

The blocks of a text divide it into gaps and blocks, in turn, with a gap at the end. That no block
opens in a gap, and that a block closes where it first can, leaves only one way to do so, whatever
the delimiters are and whatever the text is made of.

* `IsBlock`, `Divides`: what is asked of the parts of a text.
* `divides_nil_iff`, `divides_cons_iff`: the first part, and the others as parts of the rest.
* `existsUnique_divides`, `findBlocks_of_divides`: there is one division, and the search finds its
  blocks.
* **`Comment.exists_unique_division`**: the comments of a text, and the search on byte indices.
* `Comment.existsUnique_divides_bytes`: the comments of a string of bytes.
-/

namespace ErrorDocs

variable {α : Type}

/-! ## Occurrences -/

/-- An occurrence that starts behind the first part of a text lies in the second part. -/
theorem exists_eq_append_of_length_le {a b u pat v : List α} (h : a ++ b = u ++ pat ++ v)
    (hle : a.length ≤ u.length) : ∃ u', u = a ++ u' ∧ b = u' ++ pat ++ v := by
  rw [List.append_assoc] at h
  obtain ⟨u', rfl⟩ := List.prefix_of_prefix_length_le (List.prefix_append a b)
    (h ▸ List.prefix_append u (pat ++ v)) hle
  rw [List.append_assoc, List.append_cancel_left_eq] at h
  exact ⟨u', rfl, by rw [h, List.append_assoc]⟩

section Width

variable {width : α → Nat} (hwidth : ∀ x, 0 < width x)

include hwidth

/-- A part that is shorter than the whole is less wide. -/
theorem extent_lt_of_sublist {xs ys : List α} (h : xs.Sublist ys) (hlt : xs.length < ys.length) :
    extent width xs < extent width ys := by
  induction h with
  | slnil => exact absurd hlt (Nat.lt_irrefl _)
  | @cons xs ys y h ih =>
    have hy := hwidth y
    rw [extent_cons]
    rcases Nat.lt_or_eq_of_le h.length_le with hlen | hlen
    · have := ih hlen
      omega
    · rw [h.eq_of_length hlen]
      omega
  | @cons_cons xs ys y h ih =>
    have := ih (Nat.lt_of_succ_lt_succ hlt)
    rw [extent_cons, extent_cons]
    omega

end Width

variable [DecidableEq α] {width : α → Nat} {d : Delimiters α}

/-- The search ends where no opening delimiter has a closing one behind it. -/
theorem nextBlock?_eq_none_iff {xs : List α} :
    nextBlock? d xs = none ↔ ∀ u v, xs = u ++ d.opening ++ v → ¬ d.closing <:+: v := by
  rw [nextBlock?_eq_bind]
  cases hopen : Text.breakOn? d.opening xs with
  | none =>
    rw [Text.breakOn?_eq_none_iff] at hopen
    refine iff_of_true rfl fun u v hxs => absurd ⟨u, v, hxs.symm⟩ hopen
  | some p =>
    obtain ⟨gap, body⟩ := p
    obtain ⟨hxs, hmin⟩ := Text.breakOn?_eq_some_iff.mp hopen
    rw [Option.bind_some, Option.map_eq_none_iff, Text.breakOn?_eq_none_iff]
    constructor
    · intro hbody u v huv hv
      -- the first opening delimiter comes before any other, so that more stands behind it
      have hsuffix : v <:+ body := by
        refine List.suffix_of_suffix_length_le ⟨u ++ d.opening, huv.symm⟩
          ⟨gap ++ d.opening, hxs.symm⟩ ?_
        have hlen := congrArg List.length (hxs.symm.trans huv)
        have hle := hmin u v huv
        simp only [List.length_append] at hlen
        omega
      exact hbody (hv.trans hsuffix.isInfix)
    · intro h
      exact h gap body hxs

/-! ## Blocks -/

/-- The text of a block: it opens, and the only place behind the opening delimiter at which it
closes is its end. It is as wide as the two delimiters at least, so that these do not overlap: in
bytes, a comment takes up five or more, of which the first three open it. -/
structure IsBlock (width : α → Nat) (d : Delimiters α) (raw : List α) : Prop where
  opens : d.opening <+: raw
  size : extent width d.opening + extent width d.closing ≤ extent width raw
  closes : d.closing <:+ raw
  once : ∀ u v, raw = u ++ d.closing ++ v → extent width d.opening ≤ extent width u → v = []

/-- **A block is an opening delimiter, an inside, and the first closing delimiter behind it.** -/
theorem isBlock_iff (hwidth : ∀ x, 0 < width x) {raw : List α} :
    IsBlock width d raw ↔ ∃ inner, raw = d.opening ++ inner ++ d.closing ∧
      Text.breakOn? d.closing (inner ++ d.closing) = some (inner, []) := by
  constructor
  · rintro ⟨⟨t, rfl⟩, hsize, hcloses, honce⟩
    rw [extent_append] at hsize
    have ht : d.closing.length ≤ t.length := by
      by_contra hlt
      have hshort : t <:+ d.closing := List.suffix_of_suffix_length_le
        (List.suffix_append d.opening t) hcloses (by omega)
      have := extent_lt_of_sublist hwidth hshort.sublist (by omega)
      omega
    obtain ⟨inner, rfl⟩ : d.closing <:+ t :=
      List.suffix_of_suffix_length_le hcloses (List.suffix_append d.opening t) ht
    refine ⟨inner, (List.append_assoc _ _ _).symm, ?_⟩
    refine Text.breakOn?_eq_some_iff.mpr ⟨(List.append_nil _).symm, fun u v huv => ?_⟩
    obtain rfl : v = [] :=
      honce (d.opening ++ u) v (by simp [huv]) (by rw [extent_append]; omega)
    have hlen := congrArg List.length huv
    simp only [List.length_append, List.length_nil] at hlen
    omega
  · rintro ⟨inner, rfl, hinner⟩
    have hopens : d.opening <+: d.opening ++ inner ++ d.closing :=
      ⟨inner ++ d.closing, (List.append_assoc _ _ _).symm⟩
    refine ⟨hopens, ?_, List.suffix_append _ _, fun u v huv hu => ?_⟩
    · simp only [extent_append]
      omega
    · have hlen : d.opening.length ≤ u.length := by
        by_contra hlt
        have hshort : u <+: d.opening := List.prefix_of_prefix_length_le
          ⟨d.closing ++ v, (huv.trans (List.append_assoc _ _ _)).symm⟩ hopens (by omega)
        have := extent_lt_of_sublist hwidth hshort.sublist (by omega)
        omega
      rw [List.append_assoc] at huv
      obtain ⟨u', rfl, hu'⟩ := exists_eq_append_of_length_le huv hlen
      have hle := Text.length_le_of_breakOn? hinner u' v hu'
      have hcount := congrArg List.length hu'
      simp only [List.length_append] at hcount
      exact List.length_eq_zero_iff.mp (by omega)

/-! ## Divisions -/

/-- Gaps, each with the block behind it, and the gap at the end. -/
structure Division (α : Type) where
  parts : List (List α × List α)
  last : List α

omit [DecidableEq α] in
/-- The text of gaps with their blocks. -/
def joined (parts : List (List α × List α)) : List α :=
  parts.flatMap fun part => part.1 ++ part.2

omit [DecidableEq α] in
theorem joined_cons (gap raw : List α) (parts : List (List α × List α)) :
    joined ((gap, raw) :: parts) = gap ++ raw ++ joined parts := rfl

/-- A division of a text: no opening delimiter of the text starts in a gap before a block, and
none that starts in the gap at the end has a closing one behind it. -/
structure Divides (width : α → Nat) (d : Delimiters α) (text : List α) (p : Division α) :
    Prop where
  whole : text = joined p.parts ++ p.last
  blocks : ∀ part ∈ p.parts, IsBlock width d part.2
  gaps : ∀ done gap raw rest, p.parts = done ++ (gap, raw) :: rest →
    ∀ u v, text = u ++ d.opening ++ v →
      ¬ ((joined done).length ≤ u.length ∧ u.length < (joined done ++ gap).length)
  last : ∀ u v, text = u ++ d.opening ++ v → (joined p.parts).length ≤ u.length →
    ¬ d.closing <:+: v

theorem divides_nil_iff {text last : List α} :
    Divides width d text ⟨[], last⟩ ↔ last = text ∧ nextBlock? d text = none := by
  rw [nextBlock?_eq_none_iff]
  constructor
  · intro h
    exact ⟨h.whole.symm, fun u v huv => h.last u v huv (Nat.zero_le _)⟩
  · rintro ⟨rfl, hnone⟩
    refine ⟨rfl, by simp, fun done gap raw rest hdone => ?_, fun u v huv _ => hnone u v huv⟩
    simp at hdone

section Positive

variable (hwidth : ∀ x, 0 < width x)

include hwidth

/-- **The first gap and the first block are those that the search meets next**, and the other parts
divide the rest of the text. -/
theorem divides_cons_iff {text gap raw last : List α} {parts : List (List α × List α)} :
    Divides width d text ⟨(gap, raw) :: parts, last⟩ ↔
      ∃ inner rest, nextBlock? d text = some (gap, inner, rest) ∧
        raw = d.opening ++ inner ++ d.closing ∧ Divides width d rest ⟨parts, last⟩ := by
  constructor
  · intro h
    obtain ⟨inner, rfl, hinner⟩ := (isBlock_iff hwidth).mp (h.blocks _ List.mem_cons_self)
    have htext : text = gap ++ (d.opening ++ inner ++ d.closing) ++ (joined parts ++ last) := by
      rw [h.whole, joined_cons, List.append_assoc]
    have hopen : Text.breakOn? d.opening text =
        some (gap, inner ++ d.closing ++ (joined parts ++ last)) := by
      refine Text.breakOn?_eq_some_iff.mpr ⟨by simp [htext], fun u v huv => ?_⟩
      have := h.gaps [] gap _ parts rfl u v huv
      simp [joined] at this
      exact this
    have hclose := Text.breakOn?_append_of_some hinner (joined parts ++ last)
    refine ⟨inner, joined parts ++ last, nextBlock?_eq_some_iff.mpr ⟨_, hopen, hclose⟩, rfl, rfl,
      fun part hpart => h.blocks part (List.mem_cons_of_mem _ hpart), ?_, ?_⟩
    · rintro done gap' raw' rest rfl u v huv ⟨hle, hlt⟩
      refine h.gaps ((gap, _) :: done) gap' raw' rest rfl
        (gap ++ (d.opening ++ inner ++ d.closing) ++ u) v (by simp [htext, huv]) ?_
      rw [joined_cons, List.append_assoc _ (joined done)]
      simp only [List.length_append] at hle hlt ⊢
      omega
    · intro u v huv hle
      refine h.last (gap ++ (d.opening ++ inner ++ d.closing) ++ u) v (by simp [htext, huv]) ?_
      rw [joined_cons]
      simp only [List.length_append] at hle ⊢
      omega
  · rintro ⟨inner, rest, hnext, rfl, h⟩
    have htext : text = gap ++ (d.opening ++ inner ++ d.closing) ++ rest :=
      eq_append_of_nextBlock? hnext
    obtain ⟨body, hopen, hclose⟩ := nextBlock?_eq_some_iff.mp hnext
    have hinner := Text.breakOn?_of_append (breakOn?_closing_of_nextBlock? hnext)
    refine ⟨?_, ?_, ?_, ?_⟩
    · rw [htext, h.whole, joined_cons]
      simp
    · exact List.forall_mem_cons.mpr ⟨(isBlock_iff hwidth).mpr ⟨inner, rfl, hinner⟩, h.blocks⟩
    · rintro done gap' raw' rest' hdone u v huv ⟨hle, hlt⟩
      cases done with
      | nil =>
        obtain ⟨hpart, -⟩ := List.cons.inj hdone
        obtain ⟨rfl, -⟩ := Prod.mk.inj hpart
        exact absurd (Text.length_le_of_breakOn? hopen u v huv) (by simpa [joined] using hlt)
      | cons part done =>
        obtain ⟨rfl, hparts⟩ := List.cons.inj hdone
        rw [joined_cons, List.append_assoc _ (joined done)] at hlt
        rw [joined_cons] at hle
        rw [htext] at huv
        obtain ⟨u', rfl, hrest⟩ := exists_eq_append_of_length_le huv
          (by simp only [List.length_append] at hle ⊢; omega)
        refine h.gaps done gap' raw' rest' hparts u' v hrest ?_
        simp only [List.length_append] at hle hlt ⊢
        omega
    · intro u v huv hle
      rw [joined_cons] at hle
      rw [htext] at huv
      obtain ⟨u', rfl, hrest⟩ := exists_eq_append_of_length_le huv
        (by simp only [List.length_append] at hle ⊢; omega)
      refine h.last u' v hrest ?_
      simp only [List.length_append] at hle ⊢
      omega

/-- **There is one way to divide a text into gaps and blocks.** -/
theorem existsUnique_divides (d : Delimiters α) (text : List α) :
    ∃! p, Divides width d text p := by
  induction text using blockInduction d with
  | none text hnext =>
    refine ⟨⟨[], text⟩, divides_nil_iff.mpr ⟨rfl, hnext⟩, ?_⟩
    rintro ⟨parts, last⟩ h
    cases parts with
    | nil => rw [(divides_nil_iff.mp h).1]
    | cons part parts =>
      obtain ⟨inner, rest, hsome, -⟩ := (divides_cons_iff hwidth).mp h
      rw [hnext] at hsome
      cases hsome
  | some text gap inner rest hnext ih =>
    obtain ⟨p, hp, hunique⟩ := ih
    refine ⟨⟨(gap, d.opening ++ inner ++ d.closing) :: p.parts, p.last⟩,
      (divides_cons_iff hwidth).mpr ⟨inner, rest, hnext, rfl, hp⟩, ?_⟩
    rintro ⟨parts, last⟩ h
    cases parts with
    | nil =>
      have hnone := (divides_nil_iff.mp h).2
      rw [hnext] at hnone
      cases hnone
    | cons part parts =>
      obtain ⟨inner', rest', hsome, hraw, hrest⟩ := (divides_cons_iff hwidth).mp h
      rw [hnext, Option.some.injEq, Prod.mk.injEq, Prod.mk.injEq] at hsome
      obtain ⟨hgap, rfl, rfl⟩ := hsome
      obtain rfl := hunique _ hrest
      rw [hgap, ← hraw]

/-- **The blocks of a division are those that the search finds**, each behind all that comes before
it. -/
theorem findBlocks_of_divides {text : List α} {p : Division α} (h : Divides width d text p) :
    (findBlocks width d text).length = p.parts.length ∧
      ∀ done gap raw rest, p.parts = done ++ (gap, raw) :: rest →
        (findBlocks width d text)[done.length]? =
          some ⟨extent width (joined done ++ gap), raw⟩ := by
  obtain ⟨parts, last⟩ := p
  dsimp only at h ⊢
  induction parts generalizing text with
  | nil =>
    rw [findBlocks_of_none (divides_nil_iff.mp h).2]
    exact ⟨rfl, fun done gap raw rest hdone => by simp at hdone⟩
  | cons part parts ih =>
    obtain ⟨gap, raw⟩ := part
    obtain ⟨inner, after, hnext, rfl, hafter⟩ := (divides_cons_iff hwidth).mp h
    obtain ⟨hlength, hblocks⟩ := ih hafter
    rw [findBlocks_of_some hnext]
    refine ⟨?_, fun done gap' raw' rest hdone => ?_⟩
    · rw [List.length_cons, List.length_map, List.length_cons, hlength]
    cases done with
    | nil =>
      obtain ⟨hpart, -⟩ := List.cons.inj hdone
      obtain ⟨rfl, rfl⟩ := Prod.mk.inj hpart
      rfl
    | cons part done =>
      obtain ⟨rfl, hparts⟩ := List.cons.inj hdone
      rw [List.length_cons, List.getElem?_cons_succ, List.getElem?_map,
        hblocks done gap' raw' rest hparts, Option.map_some, joined_cons,
        List.append_assoc _ (joined done),
        extent_append _ (gap ++ (d.opening ++ inner ++ d.closing))]
      rfl

end Positive

namespace Comment

/-! ## Comments -/

/-- **There is one way to divide a text into gaps and comments.** The search finds the comments of
the division, in order and behind all that comes before them. Run on byte indices, it never cuts the
text elsewhere than between two characters. -/
theorem exists_unique_division (text : List Char) :
    (∃! d, Divides Char.utf8Size delimiters text d) ∧
      (∀ d, Divides Char.utf8Size delimiters text d →
        (blocks text).length = d.parts.length ∧
        ∀ done gap raw rest, d.parts = done ++ (gap, raw) :: rest →
          (blocks text)[done.length]? =
            some ⟨extent Char.utf8Size (joined done ++ gap), raw⟩) ∧
      searchAt text 0 [] = some (blocks text) :=
  ⟨existsUnique_divides Char.utf8Size_pos delimiters text,
    fun _ h => findBlocks_of_divides Char.utf8Size_pos h, searchAt_eq_findFrom [] text []⟩

/-- The delimiters share characters here, and those of a comment have to be its own. -/
example : (blocks ['/', '*', '*', '/', '*', '*', '/', 'é', '/', '*', '*', '/']).map (·.offset) =
    [0] := by
  cbv

/-- **There is one way to divide a string of bytes into gaps and comments**, and the search finds
the comments of the division. -/
theorem existsUnique_divides_bytes (bytes : List UInt8) :
    (∃! d, Divides (fun _ => 1) byteDelimiters bytes d) ∧
      ∀ d, Divides (fun _ => 1) byteDelimiters bytes d →
        (byteBlocks bytes).length = d.parts.length ∧
        ∀ done gap raw rest, d.parts = done ++ (gap, raw) :: rest →
          (byteBlocks bytes)[done.length]? = some ⟨(joined done ++ gap).length, raw⟩ := by
  have hwidth : ∀ _ : UInt8, 0 < 1 := fun _ => Nat.one_pos
  refine ⟨existsUnique_divides hwidth byteDelimiters bytes, fun d h => ?_⟩
  obtain ⟨hlength, hblocks⟩ := findBlocks_of_divides hwidth h
  refine ⟨hlength, fun done gap raw rest hdone => ?_⟩
  rw [← extent_one (joined done ++ gap)]
  exact hblocks done gap raw rest hdone

end Comment

end ErrorDocs
