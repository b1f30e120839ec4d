import ErrorDocs.Path
import Mathlib.Tactic.IntervalCases

/-!
# Well-formed bytes

The bytes of a text are read back as that text: each leading byte says how many bytes follow and
which the first of them may be, and the encoding of a character keeps to that. So reading loses
nothing just on the bytes that some text is encoded as.

* `foldl_step_utf8EncodeChar`: one character is read from its bytes.
* **`decodeLossy_encode`**: reading undoes encoding.
* `Path.IsUtf8`: paths that a text is encoded as, and `Path.toString?` on them.
-/

namespace ErrorDocs

namespace Utf8

variable (text : List Char)

/-! ## Leading bytes -/

theorem step_lead_two {n : Nat} (hlow : 2 ≤ n) (h : n < 32) :
    step ⟨.idle, text⟩ (UInt8.ofNat (n + 0xC0)) = ⟨.within 0x80 0xBF 1 n, text⟩ := by
  interval_cases n <;> rfl

theorem step_lead_three {n : Nat} (h : n < 16) :
    step ⟨.idle, text⟩ (UInt8.ofNat (n + 0xE0)) =
      ⟨.within (if n = 0 then 0xA0 else 0x80) (if n = 13 then 0x9F else 0xBF) 2 n, text⟩ := by
  interval_cases n <;> rfl

theorem step_lead_four {n : Nat} (h : n < 5) :
    step ⟨.idle, text⟩ (UInt8.ofNat (n + 0xF0)) =
      ⟨.within (if n = 0 then 0x90 else 0x80) (if n = 4 then 0x8F else 0xBF) 3 n, text⟩ := by
  interval_cases n <;> rfl

/-! ## Continuing bytes -/

theorem toNat_ofNat_of_lt {n : Nat} (h : n < 256) : (UInt8.ofNat n).toNat = n := by
  rw [UInt8.toNat_ofNat', Nat.mod_eq_of_lt h]

theorem add_le_last {n : Nat} (h : n < 64) : n + 0x80 ≤ (0xBF : UInt8).toNat :=
  Nat.le_of_lt_succ (Nat.add_lt_add_right h 0x80)

/-- A byte in the range that is waited for is taken. -/
theorem step_within {lo hi : UInt8} {n : Nat} (h : n < 64) (hlo : lo.toNat ≤ n + 0x80)
    (hhi : n + 0x80 ≤ hi.toNat) (missing value : Nat) :
    step ⟨.within lo hi missing value, text⟩ (UInt8.ofNat (n + 0x80)) =
      if missing ≤ 1 then ⟨.idle, Char.ofNat (value * 64 + n) :: text⟩
      else ⟨.within 0x80 0xBF (missing - 1) (value * 64 + n), text⟩ := by
  have hbyte : (UInt8.ofNat (n + 0x80)).toNat = n + 0x80 := toNat_ofNat_of_lt (by omega)
  have hrange : lo ≤ UInt8.ofNat (n + 0x80) ∧ UInt8.ofNat (n + 0x80) ≤ hi := by
    rw [UInt8.le_iff_toNat_le, UInt8.le_iff_toNat_le, hbyte]
    exact ⟨hlo, hhi⟩
  simp only [step, if_pos hrange, hbyte, Nat.add_sub_cancel]

/-- After some leading bytes the range of the next byte is narrower. -/
theorem step_second {lo hi : UInt8} {p q : Prop} [Decidable p] [Decidable q] {n : Nat} (h : n < 64)
    (hlo : p → lo.toNat ≤ n + 0x80) (hhi : q → n + 0x80 ≤ hi.toNat) (missing value : Nat) :
    step ⟨.within (if p then lo else 0x80) (if q then hi else 0xBF) missing value, text⟩
        (UInt8.ofNat (n + 0x80)) =
      if missing ≤ 1 then ⟨.idle, Char.ofNat (value * 64 + n) :: text⟩
      else ⟨.within 0x80 0xBF (missing - 1) (value * 64 + n), text⟩ := by
  refine step_within text h ?_ ?_ missing value
  · split_ifs with hp
    · exact hlo hp
    · exact Nat.le_add_left _ _
  · split_ifs with hq
    · exact hhi hq
    · exact add_le_last h

theorem step_last {n : Nat} (h : n < 64) (value : Nat) :
    step ⟨.within 0x80 0xBF 1 value, text⟩ (UInt8.ofNat (n + 0x80)) =
      ⟨.idle, Char.ofNat (value * 64 + n) :: text⟩ :=
  step_within text h (Nat.le_add_left _ _) (add_le_last h) 1 value

theorem step_next {n : Nat} (h : n < 64) (missing value : Nat) :
    step ⟨.within 0x80 0xBF (missing + 2) value, text⟩ (UInt8.ofNat (n + 0x80)) =
      ⟨.within 0x80 0xBF (missing + 1) (value * 64 + n), text⟩ :=
  step_within text h (Nat.le_add_left _ _) (add_le_last h) (missing + 2) value

/-! ## Characters and texts -/

theorem foldl_step_two {a b : Nat} (ha : 2 ≤ a) (ha' : a < 32) (hb : b < 64) :
    [UInt8.ofNat (a + 0xC0), UInt8.ofNat (b + 0x80)].foldl step ⟨.idle, text⟩ =
      ⟨.idle, Char.ofNat (a * 64 + b) :: text⟩ := by
  rw [List.foldl_cons, List.foldl_cons, List.foldl_nil, step_lead_two text ha ha',
    step_last text hb]

/-- A character of three bytes needs all of them and is no surrogate. -/
theorem foldl_step_three {a b c : Nat} (ha : a < 16) (hb : b < 64) (hc : c < 64)
    (hlong : a = 0 → 32 ≤ b) (hsurrogate : a = 13 → b < 32) :
    [UInt8.ofNat (a + 0xE0), UInt8.ofNat (b + 0x80), UInt8.ofNat (c + 0x80)].foldl step
        ⟨.idle, text⟩ =
      ⟨.idle, Char.ofNat ((a * 64 + b) * 64 + c) :: text⟩ := by
  have hlo : a = 0 → (0xA0 : UInt8).toNat ≤ b + 0x80 := fun h =>
    Nat.add_le_add_right (hlong h) 0x80
  have hhi : a = 13 → b + 0x80 ≤ (0x9F : UInt8).toNat := fun h =>
    Nat.le_of_lt_succ (Nat.add_lt_add_right (hsurrogate h) 0x80)
  rw [List.foldl_cons, List.foldl_cons, List.foldl_cons, List.foldl_nil,
    step_lead_three text ha, step_second text hb hlo hhi]
  exact step_last text hc _

/-- A character of four bytes needs all of them and is not beyond the last one. -/
theorem foldl_step_four {a b c d : Nat} (ha : a < 5) (hb : b < 64) (hc : c < 64) (hd : d < 64)
    (hlong : a = 0 → 16 ≤ b) (hlast : a = 4 → b < 16) :
    [UInt8.ofNat (a + 0xF0), UInt8.ofNat (b + 0x80), UInt8.ofNat (c + 0x80),
        UInt8.ofNat (d + 0x80)].foldl step ⟨.idle, text⟩ =
      ⟨.idle, Char.ofNat (((a * 64 + b) * 64 + c) * 64 + d) :: text⟩ := by
  have hlo : a = 0 → (0x90 : UInt8).toNat ≤ b + 0x80 := fun h =>
    Nat.add_le_add_right (hlong h) 0x80
  have hhi : a = 4 → b + 0x80 ≤ (0x8F : UInt8).toNat := fun h =>
    Nat.le_of_lt_succ (Nat.add_lt_add_right (hlast h) 0x80)
  rw [List.foldl_cons, List.foldl_cons, List.foldl_cons, List.foldl_cons, List.foldl_nil,
    step_lead_four text ha, step_second text hb hlo hhi, if_neg (by decide), step_next text hc]
  exact step_last text hd _

/-- A character is read from its bytes. -/
theorem foldl_step_utf8EncodeChar (c : Char) :
    (String.utf8EncodeChar c).foldl step ⟨.idle, text⟩ = ⟨.idle, c :: text⟩ := by
  have hvalid : c.val.toNat < 0xD800 ∨ 0xDFFF < c.val.toNat ∧ c.val.toNat < 0x110000 := c.valid
  have hofNat : ∀ n, n = c.val.toNat → Char.ofNat n = c := by
    rintro n rfl
    exact Char.ofNat_toNat c
  simp only [String.utf8EncodeChar]
  generalize c.val.toNat = v at hvalid hofNat
  -- one case for each number of bytes
  split_ifs with h1 h2 h3
  · have hbyte : (UInt8.ofNat v).toNat = v := toNat_ofNat_of_lt (by omega)
    have hascii : UInt8.ofNat v < 0x80 := by
      rw [UInt8.lt_iff_toNat_lt, hbyte]
      exact Nat.lt_succ_of_le h1
    rw [List.foldl_cons, List.foldl_nil, step, start, if_pos hascii, hbyte, hofNat v rfl]
  · rw [foldl_step_two text (by omega) (by omega) (by omega), hofNat _ (by omega)]
  · rw [foldl_step_three text (by omega) (by omega) (by omega) (by omega) (by omega),
      hofNat _ (by omega)]
  · rw [foldl_step_four text (by omega) (by omega) (by omega) (by omega) (by omega) (by omega),
      hofNat _ (by omega)]

theorem foldl_step_encode (s : List Char) :
    (encode s).foldl step ⟨.idle, text⟩ = ⟨.idle, s.reverse ++ text⟩ := by
  induction s generalizing text with
  | nil => rfl
  | cons c s ih =>
    rw [encode, List.flatMap_cons, List.foldl_append, foldl_step_utf8EncodeChar, ← encode, ih,
      List.reverse_cons, List.append_assoc, List.singleton_append]

/-- **A text is read back from its bytes.** -/
theorem decodeLossy_encode (s : List Char) : decodeLossy (encode s) = s := by
  rw [decodeLossy, foldl_step_encode, finish, List.append_nil, List.reverse_reverse]

theorem decode?_eq_some_iff {bytes : List UInt8} {s : List Char} :
    decode? bytes = some s ↔ bytes = encode s := by
  simp only [decode?, Option.ite_none_right_eq_some, Option.some.injEq]
  constructor
  · rintro ⟨h, rfl⟩
    exact h.symm
  · rintro rfl
    rw [decodeLossy_encode]
    exact ⟨rfl, rfl⟩

end Utf8

/-! ## Paths -/

namespace Path

/-- Paths that a text is encoded as. -/
def IsUtf8 (p : Path) : Prop :=
  ∃ s, p.bytes = Utf8.encode s

theorem isUtf8_ofString (s : String) : (ofString s).IsUtf8 := ⟨s.toList, rfl⟩

theorem toString?_eq_some_iff {p : Path} {s : String} : p.toString? = some s ↔ p = ofString s := by
  rw [toString?, Option.map_eq_some_iff, ofString]
  constructor
  · rintro ⟨cs, h, rfl⟩
    rw [String.toList_ofList, ← Utf8.decode?_eq_some_iff.mp h]
  · rintro rfl
    exact ⟨s.toList, Utf8.decode?_eq_some_iff.mpr rfl, String.ofList_toList⟩

theorem toString?_eq_none_iff {p : Path} : p.toString? = none ↔ ¬ p.IsUtf8 := by
  rw [toString?, Option.map_eq_none_iff, Option.eq_none_iff_forall_ne_some, IsUtf8, not_exists]
  exact forall_congr' fun s => not_congr Utf8.decode?_eq_some_iff

theorem IsUtf8.exists_toString? {p : Path} (h : p.IsUtf8) : ∃ s, p.toString? = some s := by
  rw [← Option.ne_none_iff_exists']
  exact fun hnone => toString?_eq_none_iff.mp hnone h

end Path

end ErrorDocs
