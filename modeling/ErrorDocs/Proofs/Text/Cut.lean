import ErrorDocs.Proofs.Text.Encoding
import ErrorDocs.Proofs.Text.Utf8
import Mathlib.Data.List.TakeWhile

/-!
# Cuts at one unit

A text can be cut at the last occurrence of a unit, and a cut is known by the number of times that
the unit occurs before it. So a cut of the bytes of a text at an ASCII byte is a cut of the text: no
character is cut through.

* `cutAtLast?`: the cut at the last occurrence; **`cutAtLast?_eq_some_iff`**: where it is.
* `append_cons_inj_of_count`: cuts with as many occurrences before them.
* **`Utf8.exists_of_encode_eq`**: cuts of the bytes of a text.
-/

namespace ErrorDocs

namespace Text

variable {α : Type} [DecidableEq α] {a : α}

/-- A list cut at the last occurrence of a unit, if it has one: what stands before and behind. -/
def cutAtLast? (a : α) (s : List α) : Option (List α × List α) :=
  match s.reverse.dropWhile (· != a) with
  | [] => none
  | _ :: before => some (before.reverse, (s.reverse.takeWhile (· != a)).reverse)

/-- **The cut at the last occurrence** has no other one behind it. -/
theorem cutAtLast?_eq_some_iff {s before after : List α} :
    cutAtLast? a s = some (before, after) ↔ s = before ++ a :: after ∧ a ∉ after := by
  constructor
  · intro h
    unfold cutAtLast? at h
    split at h
    · cases h
    · rename_i b rest hdrop
      obtain ⟨rfl, rfl⟩ := Prod.mk.inj (Option.some.inj h)
      have hb : b = a := by
        have hnot := List.head?_dropWhile_not (· != a) s.reverse
        rw [hdrop] at hnot
        simpa using hnot
      have hs := congrArg List.reverse
        (List.takeWhile_append_dropWhile (p := (· != a)) (l := s.reverse))
      rw [hdrop, hb] at hs
      refine ⟨by simpa using hs.symm, fun hmem => ?_⟩
      have hne := List.mem_takeWhile_imp (List.mem_reverse.mp hmem)
      simp at hne
  · rintro ⟨rfl, hafter⟩
    have hsolid : ∀ b ∈ after.reverse, (b != a) = true := by
      intro b hb
      rw [bne_iff_ne]
      rintro rfl
      exact hafter (List.mem_reverse.mp hb)
    have hrev : (before ++ a :: after).reverse = after.reverse ++ a :: before.reverse := by simp
    rw [cutAtLast?, hrev, List.dropWhile_append_of_pos hsolid, List.takeWhile_append_of_pos hsolid]
    simp

theorem cutAtLast?_eq_none_iff {s : List α} : cutAtLast? a s = none ↔ a ∉ s := by
  constructor
  · intro h hmem
    unfold cutAtLast? at h
    split at h
    · rename_i hdrop
      have hne := List.dropWhile_eq_nil_iff.mp hdrop a (List.mem_reverse.mpr hmem)
      simp at hne
    · cases h
  · intro h
    rw [Option.eq_none_iff_forall_ne_some]
    rintro ⟨before, after⟩ hcut
    obtain ⟨rfl, -⟩ := cutAtLast?_eq_some_iff.mp hcut
    exact h List.mem_append_cons_self

/-- Cuts with as many occurrences before them are one cut. -/
theorem append_cons_inj_of_count {u v u' v' : List α} (h : u ++ a :: v = u' ++ a :: v')
    (hcount : u.count a = u'.count a) : u = u' ∧ v = v' := by
  -- if one cut came first, the unit at which it is made would be counted before the other
  rcases List.append_eq_append_iff.mp h with ⟨w, rfl, hw⟩ | ⟨w, rfl, hw⟩
  all_goals
    cases w with
    | nil => simpa [eq_comm] using hw
    | cons b w =>
      obtain ⟨rfl, -⟩ := List.cons.inj hw
      simp at hcount

end Text

namespace Utf8

theorem utf8EncodeChar_asciiChar {a : UInt8} (ha : a < 128) :
    String.utf8EncodeChar (asciiChar a) = [a] := by
  have hval : (asciiChar a).val.toNat = a.toNat := toNat_asciiChar ha
  have hle : a.toNat ≤ 0x7f := Nat.le_of_lt_succ ha
  simp [String.utf8EncodeChar, hval, hle]

theorem count_encode {a : UInt8} (ha : a < 128) (s : List Char) :
    (encode s).count a = s.count (asciiChar a) := by
  rw [← count_decodeLossy ha, decodeLossy_encode]

/-- **A cut of the bytes of a text at an ASCII byte is a cut of the text.** -/
theorem exists_of_encode_eq {a : UInt8} (ha : a < 128) {s : List Char} {before after : List UInt8}
    (h : encode s = before ++ a :: after) :
    ∃ u v, s = u ++ asciiChar a :: v ∧ encode u = before ∧ encode v = after := by
  have hs : s = decodeLossy before ++ asciiChar a :: decodeLossy after := by
    rw [← decodeLossy_append_ascii _ _ ha, ← h, decodeLossy_encode]
  refine ⟨_, _, hs, ?_⟩
  refine Text.append_cons_inj_of_count (a := a) ?_ ?_
  · rw [← h]
    conv_rhs => rw [hs]
    simp [encode, utf8EncodeChar_asciiChar ha]
  · rw [count_encode ha, count_decodeLossy ha]

end Utf8

end ErrorDocs
