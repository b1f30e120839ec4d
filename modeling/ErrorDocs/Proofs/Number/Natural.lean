import ErrorDocs.Number.Numeral
import Mathlib.Data.List.Basic
import Mathlib.Data.List.TakeWhile

/-!
# Natural numbers are read back

The decimal digits of a natural number make a numeral: there is at least one, and the first is a
zero only if it is the only one. Below `2 ^ 64` every digit is collected, so the numeral stands
for the number itself.

* `Numeral.parse?_toDigits`: the digits are a numeral without fraction and exponent.
* **`Numeral.value?_parse?_toDigits`**: a number of 64 bits is read back.
-/

namespace ErrorDocs.Numeral

variable {n : Nat}

theorem isDigit_of_mem_toDigits {c : Char} (h : c ∈ Nat.toDigits 10 n) : isDigit c = true :=
  Nat.isDigit_of_mem_toDigits (by decide) (by decide) h

/-! ## The digits make a numeral -/

theorem head?_toDigits_ne (h : 0 < n) : (Nat.toDigits 10 n).head? ≠ some '0' := by
  induction n using Nat.strongRecOn with | _ n ih =>
  rw [Nat.toDigits_eq_if (by decide)]
  split_ifs with hlt
  · simp only [List.head?_cons, ne_eq, Option.some.injEq, Nat.digitChar_eq_zero]
    exact Nat.ne_of_gt h
  · rw [List.head?_append_of_ne_nil _ Nat.toDigits_ne_nil]
    exact ih (n / 10) (by omega) (by omega)

theorem parseWhole?_toDigits (n : Nat) :
    parseWhole? (Nat.toDigits 10 n) = some (Nat.toDigits 10 n, []) := by
  have hspan : spanDigits (Nat.toDigits 10 n) = (Nat.toDigits 10 n, []) := by
    rw [spanDigits, List.takeWhile_eq_self_iff.mpr fun c => isDigit_of_mem_toDigits,
      List.dropWhile_eq_nil_iff.mpr fun c => isDigit_of_mem_toDigits]
  rcases Nat.eq_zero_or_pos n with rfl | hpos
  · rfl
  · have hhead := head?_toDigits_ne hpos
    unfold parseWhole?
    rw [hspan]
    split
    · rename_i h
      exact absurd (congrArg Prod.fst h) Nat.toDigits_ne_nil
    · rename_i h
      exact absurd (congrArg (·.1.head?) h) hhead
    · rename_i h
      exact absurd (congrArg (·.1.head?) h) hhead
    · rename_i h
      exact congrArg some h.symm

theorem parse?_toDigits (n : Nat) :
    parse? (Nat.toDigits 10 n) = some { negative := false, whole := Nat.toDigits 10 n } := by
  have hunsigned : parse? (Nat.toDigits 10 n) = parseUnsigned? false (Nat.toDigits 10 n) := by
    unfold parse?
    split
    · rename_i h
      exact absurd (isDigit_of_mem_toDigits (h ▸ List.mem_cons_self)) (by decide)
    · rfl
  rw [hunsigned, parseUnsigned?, parseWhole?_toDigits]
  rfl

/-! ## The numeral stands for the number -/

theorem collectWhole_toDigits (h : n < Nat.pow 2 64) : collectWhole (Nat.toDigits 10 n) = (n, 0) := by
  have hdigit {d : Nat} (hd : d < 10) : digitValue d.digitChar = d :=
    Nat.toNat_digitChar_sub_48_of_lt_ten hd
  induction n using Nat.strongRecOn with | _ n ih =>
  have hexact : isExact n = true := decide_eq_true h
  rw [Nat.toDigits_eq_if (by decide)]
  split_ifs with hlt
  · simp [collectWhole, hdigit hlt, hexact]
  · have hlast : n / 10 * 10 + digitValue (n % 10).digitChar = n := by
      rw [hdigit (Nat.mod_lt n (by decide))]
      omega
    have hrest := ih (n / 10) (by omega) (by omega)
    unfold collectWhole at hrest ⊢
    rw [List.foldl_append, hrest]
    simp [hlast, hexact]

/-- **A natural number of 64 bits is read back from its digits.** -/
theorem value?_parse?_toDigits (h : n < Nat.pow 2 64) :
    (parse? (Nat.toDigits 10 n)).bind value? = some (.int n) := by
  rw [parse?_toDigits, Option.bind_some, value?, collectWhole_toDigits h]
  rfl

end ErrorDocs.Numeral
