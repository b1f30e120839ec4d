import ErrorDocs.Text.Utf8
import ErrorDocs.Proofs.Text.Search
import Mathlib.Tactic.Ring

/-!
# Lossy reading and ASCII

Lossy reading neither makes nor takes away an ASCII character: each one in the text comes from the
byte that stands for it, and reading starts afresh after it. A text may therefore be cut at ASCII
characters before or after it is read.

* `Progress.Sound`: however the character being read is completed, it is a character and not an
  ASCII one. `stepped_step` says what a step from such a state does; it keeps the state sound.
* **`decodeLossy_append_ascii`**: reading goes through a cut at an ASCII byte.
* **`exists_of_decodeLossy_eq`**: an ASCII character that has been read comes from a byte.
* **`breakOn?_decodeLossy`**: searching before and after reading finds the same.
-/

namespace ErrorDocs.Utf8

/-! ## Characters in progress -/

/-- The numbers from `low` up to and without `high` are those of characters that are not ASCII:
they lie on one side of the surrogates. -/
def OnOneSide (low high : Nat) : Prop :=
  (128 ≤ low ∧ high ≤ 0xD800) ∨ (0xE000 ≤ low ∧ high ≤ 0x110000)

theorem OnOneSide.mono {low high low' high' : Nat} (h : OnOneSide low high) (h1 : low ≤ low')
    (h2 : high' ≤ high) : OnOneSide low' high' := by
  unfold OnOneSide at h ⊢
  omega

theorem OnOneSide.low {low high : Nat} (h : OnOneSide low high) : 128 ≤ low := by
  unfold OnOneSide at h
  omega

theorem OnOneSide.toNat_ofNat {n : Nat} (h : OnOneSide n (n + 1)) : (Char.ofNat n).toNat = n := by
  have hv : n.isValidChar := by
    unfold OnOneSide at h
    unfold Nat.isValidChar
    omega
  rw [Char.ofNat, dif_pos hv]
  rfl

/-- However the character being read is completed, it is one and not ASCII. -/
def Progress.Sound : Progress → Prop
  | .idle => True
  | .within lo hi missing value =>
    128 ≤ lo.toNat ∧
      OnOneSide ((value * 64 + (lo.toNat - 128)) * 64 ^ (missing - 1))
        ((value * 64 + (hi.toNat - 128) + 1) * 64 ^ (missing - 1))

/-- The character that an ASCII byte stands for. -/
def asciiChar (b : UInt8) : Char := Char.ofNat b.toNat

/-- What can come of a byte at which a character may start. -/
inductive Started (b : UInt8) (text : List Char) : Reading → Prop
  | ascii : b < 128 → Started b text ⟨.idle, asciiChar b :: text⟩
  | alone : ¬ b < 128 → Started b text ⟨.idle, replacement :: text⟩
  | leading {p : Progress} : ¬ b < 128 → p ≠ .idle → p.Sound → Started b text ⟨p, text⟩

theorem started_start (text : List Char) (b : UInt8) : Started b text (start text b) := by
  have hnot {n : UInt8} (h : ¬ b = n) : b.toNat ≠ n.toNat := fun he => h (UInt8.toNat_inj.mp he)
  unfold start
  refine iteInduction (fun h1 => .ascii h1) fun h1 => ?_
  refine iteInduction (fun h2 => .alone h1) fun h2 => ?_
  refine iteInduction (fun h3 => ?_) fun h3 => ?_
  · have h2 : ¬ b.toNat < 194 := h2
    have h3 : b.toNat < 224 := h3
    exact .leading h1 (by simp) ⟨by decide, by simp [OnOneSide]; omega⟩
  refine iteInduction (fun h4 => ?_) fun h4 => ?_
  · exact .leading h1 (by simp) ⟨by decide, .inl (by decide)⟩
  refine iteInduction (fun h5 => ?_) fun h5 => ?_
  · exact .leading h1 (by simp) ⟨by decide, .inl (by decide)⟩
  refine iteInduction (fun h6 => ?_) fun h6 => ?_
  · have h3 : ¬ b.toNat < 224 := h3
    have h4 : b.toNat ≠ 224 := hnot h4
    have h5 : b.toNat ≠ 237 := hnot h5
    have h6 : b.toNat < 240 := h6
    exact .leading h1 (by simp) ⟨by decide, by simp [OnOneSide]; omega⟩
  refine iteInduction (fun h7 => ?_) fun h7 => ?_
  · exact .leading h1 (by simp) ⟨by decide, .inr (by decide)⟩
  refine iteInduction (fun h8 => ?_) fun h8 => ?_
  · have h6 : ¬ b.toNat < 240 := h6
    have h7 : b.toNat ≠ 240 := hnot h7
    have h8 : b.toNat < 244 := h8
    exact .leading h1 (by simp) ⟨by decide, by simp [OnOneSide]; omega⟩
  refine iteInduction (fun h9 => ?_) fun h9 => ?_
  · exact .leading h1 (by simp) ⟨by decide, .inr (by decide)⟩
  · exact .alone h1

/-- What a character that is cut short is read as. -/
def Progress.pending : Progress → List Char
  | .idle => []
  | .within .. => [replacement]

theorem finish_eq (r : Reading) : finish r = r.text.reverse ++ r.progress.pending := by
  obtain ⟨progress, text⟩ := r
  cases progress <;> simp [finish, Progress.pending]

/-- What can come of a byte: it starts a character after all that is there, or it completes or
continues the character being read. -/
inductive Stepped (r : Reading) (b : UInt8) : Reading → Prop
  | starts {r' : Reading} : Started b (finish r).reverse r' → Stepped r b r'
  | completes {c : Char} : ¬ b < 128 → 128 ≤ c.toNat → Stepped r b ⟨.idle, c :: r.text⟩
  | continues {p : Progress} : ¬ b < 128 → p ≠ .idle → p.Sound → Stepped r b ⟨p, r.text⟩

/-- **What a step does.** -/
theorem stepped_step {r : Reading} (h : r.progress.Sound) (b : UInt8) :
    Stepped r b (step r b) := by
  obtain ⟨progress, text⟩ := r
  cases progress with
  | idle =>
    refine .starts ?_
    rw [finish, List.reverse_reverse]
    exact started_start text b
  | within lo hi missing value =>
    obtain ⟨hlo, hside⟩ := h
    refine iteInduction (fun hin => ?_) fun _ => ?_
    · rw [UInt8.le_iff_toNat_le, UInt8.le_iff_toNat_le] at hin
      have hb : ¬ b.toNat < 128 := by omega
      refine iteInduction (fun hm => ?_) fun hm => ?_
      · rw [show missing - 1 = 0 by omega, Nat.pow_zero, Nat.mul_one, Nat.mul_one] at hside
        have hside' : OnOneSide (value * 64 + (b.toNat - 128))
            (value * 64 + (b.toNat - 128) + 1) := hside.mono (by omega) (by omega)
        refine .completes hb ?_
        rw [hside'.toNat_ofNat]
        exact hside'.low
      · obtain ⟨k, rfl⟩ : ∃ k, missing = k + 2 := ⟨missing - 2, by omega⟩
        refine .continues hb (by simp) ⟨by decide, hside.mono ?_ ?_⟩
        · calc (value * 64 + (lo.toNat - 128)) * 64 ^ (k + 1)
              ≤ (value * 64 + (b.toNat - 128)) * 64 ^ (k + 1) :=
                Nat.mul_le_mul_right _ (by omega)
            _ = ((value * 64 + (b.toNat - 128)) * 64 + 0) * 64 ^ k := by ring
        · calc ((value * 64 + (b.toNat - 128)) * 64 + 63 + 1) * 64 ^ k
              = (value * 64 + (b.toNat - 128) + 1) * 64 ^ (k + 1) := by ring
            _ ≤ (value * 64 + (hi.toNat - 128) + 1) * 64 ^ (k + 1) :=
                Nat.mul_le_mul_right _ (by omega)
    · refine .starts ?_
      rw [finish, List.reverse_reverse]
      exact started_start _ b

theorem sound_step {r : Reading} (h : r.progress.Sound) (b : UInt8) :
    (step r b).progress.Sound := by
  have hs := stepped_step h b
  generalize step r b = r' at hs ⊢
  cases hs with
  | starts hs => cases hs with
    | ascii => trivial
    | alone => trivial
    | leading _ _ hp => exact hp
  | completes => trivial
  | continues _ _ hp => exact hp

theorem sound_foldl {r : Reading} (h : r.progress.Sound) (bytes : List UInt8) :
    (bytes.foldl step r).progress.Sound := by
  induction bytes generalizing r with
  | nil => exact h
  | cons b bytes ih => exact ih (sound_step h b)

theorem sound_run (bytes : List UInt8) : (bytes.foldl step ⟨.idle, []⟩).progress.Sound :=
  sound_foldl (r := ⟨.idle, []⟩) trivial bytes

/-! ## The text of a run -/

/-- A reading with more text before it. -/
def Reading.after (r : Reading) (text : List Char) : Reading := ⟨r.progress, r.text ++ text⟩

theorem start_eq (text : List Char) (b : UInt8) : start text b = (start [] b).after text := by
  unfold start
  simp only [apply_ite (Reading.after · text)]
  rfl

theorem step_eq (p : Progress) (text : List Char) (b : UInt8) :
    step ⟨p, text⟩ b = (step ⟨p, []⟩ b).after text := by
  cases p with
  | idle => exact start_eq text b
  | within lo hi missing value =>
    simp only [step, apply_ite (Reading.after · text)]
    rw [start_eq (replacement :: text), start_eq [replacement]]
    simp [Reading.after]

/-- What has been read before stays where it is. -/
theorem foldl_step_eq (p : Progress) (text : List Char) (bytes : List UInt8) :
    bytes.foldl step ⟨p, text⟩ = (bytes.foldl step ⟨p, []⟩).after text := by
  induction bytes generalizing p text with
  | nil => rfl
  | cons b bytes ih =>
    rw [List.foldl_cons, List.foldl_cons, step_eq p text, Reading.after, ih,
      ih _ (step ⟨p, []⟩ b).text]
    simp [Reading.after]

/-! ## Cuts at ASCII bytes -/

theorem toNat_asciiChar {a : UInt8} (h : a < 128) : (asciiChar a).toNat = a.toNat := by
  have h : a.toNat < 128 := h
  have hv : a.toNat.isValidChar := .inl (by omega)
  rw [asciiChar, Char.ofNat, dif_pos hv]
  rfl

theorem asciiChar_inj {a b : UInt8} (ha : a < 128) (hb : b < 128) :
    asciiChar a = asciiChar b ↔ a = b := by
  constructor
  · intro h
    have := congrArg Char.toNat h
    rw [toNat_asciiChar ha, toNat_asciiChar hb] at this
    exact UInt8.toNat_inj.mp this
  · rintro rfl; rfl

/-- An ASCII byte ends the character being read. -/
theorem step_ascii {r : Reading} (h : r.progress.Sound) {a : UInt8} (ha : a < 128) :
    step r a = ⟨.idle, asciiChar a :: (finish r).reverse⟩ := by
  have hs := stepped_step h a
  generalize step r a = r' at hs ⊢
  cases hs with
  | starts hs => cases hs with
    | ascii => rfl
    | alone hn => exact absurd ha hn
    | leading hn => exact absurd ha hn
  | completes hn => exact absurd ha hn
  | continues hn => exact absurd ha hn

/-- **Reading goes through a cut at an ASCII byte.** -/
theorem decodeLossy_append_ascii (xs ys : List UInt8) {a : UInt8} (ha : a < 128) :
    decodeLossy (xs ++ a :: ys) = decodeLossy xs ++ asciiChar a :: decodeLossy ys := by
  rw [decodeLossy, List.foldl_append, List.foldl_cons, step_ascii (sound_run xs) ha,
    foldl_step_eq, finish_eq, decodeLossy, decodeLossy, finish_eq (ys.foldl _ _), Reading.after]
  simp

theorem decodeLossy_ascii_append {pat : List UInt8} (h : ∀ a ∈ pat, a < 128) (ys : List UInt8) :
    decodeLossy (pat ++ ys) = pat.map asciiChar ++ decodeLossy ys := by
  induction pat with
  | nil => rfl
  | cons a pat ih =>
    rw [List.forall_mem_cons] at h
    have := decodeLossy_append_ascii [] (pat ++ ys) h.1
    rw [List.nil_append] at this
    rw [List.cons_append, this, ih h.2]
    rfl

/-- Reading goes through a part that is ASCII. -/
theorem decodeLossy_append_asciis {pat : List UInt8} (hne : pat ≠ []) (h : ∀ a ∈ pat, a < 128)
    (xs ys : List UInt8) :
    decodeLossy (xs ++ pat ++ ys) = decodeLossy xs ++ pat.map asciiChar ++ decodeLossy ys := by
  obtain ⟨a, pat, rfl⟩ := List.exists_cons_of_ne_nil hne
  rw [List.forall_mem_cons] at h
  rw [List.append_assoc, List.cons_append, decodeLossy_append_ascii _ _ h.1,
    decodeLossy_ascii_append h.2]
  simp

/-! ## Where ASCII characters come from -/

theorem pending_of_ne_idle {p : Progress} (h : p ≠ .idle) : p.pending = [replacement] := by
  cases p with
  | idle => exact absurd rfl h
  | within => rfl

theorem mem_pending {p : Progress} {c : Char} (h : c ∈ p.pending) : c = replacement := by
  cases p with
  | idle => simp [Progress.pending] at h
  | within => simpa [Progress.pending] using h

theorem finish_step_ne_nil {r : Reading} (h : r.progress.Sound) (b : UInt8) :
    finish (step r b) ≠ [] := by
  rw [finish_eq]
  have hs := stepped_step h b
  generalize step r b = r' at hs ⊢
  cases hs with
  | starts hs => cases hs with
    | ascii => simp
    | alone => simp
    | leading _ hp => simp [pending_of_ne_idle hp]
  | completes => simp
  | continues _ hp => simp [pending_of_ne_idle hp]

/-- Bytes are read as something. -/
theorem decodeLossy_eq_nil_iff {bytes : List UInt8} : decodeLossy bytes = [] ↔ bytes = [] := by
  constructor
  · intro h
    rcases List.eq_nil_or_concat' bytes with rfl | ⟨xs, b, rfl⟩
    · rfl
    · rw [decodeLossy, List.foldl_append] at h
      exact absurd h (finish_step_ne_nil (sound_run xs) b)
  · rintro rfl; rfl

/-- A byte that is not ASCII adds no ASCII character. -/
theorem text_step {r : Reading} (h : r.progress.Sound)
    (htext : ∀ c ∈ r.text, 128 ≤ c.toNat) {b : UInt8} (hb : ¬ b < 128) :
    ∀ c ∈ (step r b).text, 128 ≤ c.toNat := by
  have hrep : ∀ c, c = replacement → 128 ≤ c.toNat := by rintro c rfl; decide
  have hfinish : ∀ c ∈ (finish r).reverse, 128 ≤ c.toNat := by
    intro c hc
    rw [List.mem_reverse, finish_eq, List.mem_append, List.mem_reverse] at hc
    rcases hc with hc | hc
    · exact htext c hc
    · exact hrep c (mem_pending hc)
  have hs := stepped_step h b
  generalize step r b = r' at hs ⊢
  cases hs with
  | starts hs => cases hs with
    | ascii ha => exact absurd ha hb
    | alone => exact List.forall_mem_cons.mpr ⟨hrep _ rfl, hfinish⟩
    | leading => exact hfinish
  | completes _ hc => exact List.forall_mem_cons.mpr ⟨hc, htext⟩
  | continues => exact htext

theorem text_foldl {r : Reading} (h : r.progress.Sound) (htext : ∀ c ∈ r.text, 128 ≤ c.toNat)
    {bytes : List UInt8} (hb : ∀ b ∈ bytes, ¬ b < 128) :
    ∀ c ∈ (bytes.foldl step r).text, 128 ≤ c.toNat := by
  induction bytes generalizing r with
  | nil => exact htext
  | cons b bytes ih =>
    rw [List.forall_mem_cons] at hb
    exact ih (sound_step h b) (text_step h htext hb.1) hb.2

/-- **Bytes that are not ASCII are read as characters that are not.** -/
theorem toNat_of_mem_decodeLossy {bytes : List UInt8} (hb : ∀ b ∈ bytes, ¬ b < 128) {c : Char}
    (hc : c ∈ decodeLossy bytes) : 128 ≤ c.toNat := by
  rw [decodeLossy, finish_eq, List.mem_append, List.mem_reverse] at hc
  rcases hc with hc | hc
  · exact text_foldl (r := ⟨.idle, []⟩) trivial (by simp) hb c hc
  · rw [mem_pending hc]
    decide

/-- Induction along the ASCII bytes of a string of bytes. -/
@[elab_as_elim]
theorem asciiInduction {motive : List UInt8 → Prop}
    (high : ∀ xs, (∀ b ∈ xs, ¬ b < 128) → motive xs)
    (ascii : ∀ xs a ys, (∀ b ∈ xs, ¬ b < 128) → a < 128 → motive ys → motive (xs ++ a :: ys))
    (bytes : List UInt8) : motive bytes := by
  -- `xs` holds what has been passed over since the last ASCII byte
  have h : ∀ (ys xs : List UInt8), (∀ b ∈ xs, ¬ b < 128) → motive (xs ++ ys) := by
    intro ys
    induction ys with
    | nil => intro xs hxs; rw [List.append_nil]; exact high xs hxs
    | cons b ys ih =>
      intro xs hxs
      by_cases hb : b < 128
      · exact ascii xs b ys hxs hb (ih [] (by simp))
      · have := ih (xs ++ [b]) (List.forall_mem_append.mpr ⟨hxs, by simpa using hb⟩)
        rwa [List.append_assoc] at this
  exact h bytes [] (by simp)

theorem toNat_asciiChar_lt {a : UInt8} (ha : a < 128) : (asciiChar a).toNat < 128 := by
  rw [toNat_asciiChar ha]
  exact ha

theorem asciiChar_not_mem {a : UInt8} (ha : a < 128) {bytes : List UInt8}
    (hb : ∀ b ∈ bytes, ¬ b < 128) : asciiChar a ∉ decodeLossy bytes := fun hmem => by
  have := toNat_of_mem_decodeLossy hb hmem
  have := toNat_asciiChar_lt ha
  omega

/-- **Reading keeps the number of times an ASCII character occurs.** -/
theorem count_decodeLossy {a : UInt8} (ha : a < 128) (bytes : List UInt8) :
    (decodeLossy bytes).count (asciiChar a) = bytes.count a := by
  induction bytes using asciiInduction with
  | high xs hxs =>
    rw [List.count_eq_zero_of_not_mem (asciiChar_not_mem ha hxs),
      List.count_eq_zero_of_not_mem fun hmem => hxs a hmem ha]
  | ascii xs b ys hxs hb ih =>
    rw [decodeLossy_append_ascii _ _ hb, List.count_append, List.count_append,
      List.count_eq_zero_of_not_mem (asciiChar_not_mem ha hxs),
      List.count_eq_zero_of_not_mem fun hmem => hxs a hmem ha, List.count_cons, List.count_cons, ih]
    simp [asciiChar_inj hb ha]

/-- **An ASCII character that has been read comes from its byte.** -/
theorem exists_of_decodeLossy_eq {bytes : List UInt8} {a : UInt8} (ha : a < 128) {u v : List Char}
    (h : decodeLossy bytes = u ++ asciiChar a :: v) :
    ∃ xs ys, bytes = xs ++ a :: ys ∧ decodeLossy xs = u ∧ decodeLossy ys = v := by
  induction bytes using asciiInduction generalizing u with
  | high xs hxs => exact absurd (by rw [h]; simp) (asciiChar_not_mem ha hxs)
  | ascii xs b ys hxs hb ih =>
    rw [decodeLossy_append_ascii _ _ hb] at h
    rcases List.append_eq_append_iff.mp h with ⟨w, hu, hw⟩ | ⟨w, hxs', hw⟩
    · cases w with
      | nil =>
        obtain ⟨hc, hv⟩ := List.cons.inj hw
        obtain rfl := (asciiChar_inj hb ha).mp hc
        exact ⟨xs, ys, rfl, by simpa using hu.symm, hv⟩
      | cons c w =>
        obtain ⟨rfl, hys⟩ := List.cons.inj hw
        obtain ⟨xs', ys', rfl, hw', hys'⟩ := ih hys
        refine ⟨xs ++ b :: xs', ys', by simp, ?_, hys'⟩
        rw [decodeLossy_append_ascii _ _ hb, hw', hu]
    · cases w with
      | nil =>
        obtain ⟨hc, hv⟩ := List.cons.inj hw
        obtain rfl := (asciiChar_inj ha hb).mp hc
        exact ⟨xs, ys, rfl, by simpa using hxs', hv.symm⟩
      | cons c w =>
        obtain ⟨rfl, -⟩ := List.cons.inj hw
        exact absurd (by rw [hxs']; simp) (asciiChar_not_mem ha hxs)

theorem exists_of_decodeLossy_eq_append {pat : List UInt8} (h : ∀ a ∈ pat, a < 128)
    {bytes : List UInt8} {v : List Char} (hd : decodeLossy bytes = pat.map asciiChar ++ v) :
    ∃ ys, bytes = pat ++ ys ∧ decodeLossy ys = v := by
  induction pat generalizing bytes with
  | nil => exact ⟨bytes, rfl, hd⟩
  | cons a pat ih =>
    rw [List.forall_mem_cons] at h
    obtain ⟨xs, ys, rfl, hxs, hys⟩ := exists_of_decodeLossy_eq (u := []) h.1 hd
    rw [decodeLossy_eq_nil_iff] at hxs
    obtain ⟨zs, rfl, hzs⟩ := ih h.2 hys
    exact ⟨zs, by rw [hxs]; rfl, hzs⟩

/-- An ASCII part of a text that has been read comes from its bytes. -/
theorem exists_of_decodeLossy_eq_asciis {pat : List UInt8} (hne : pat ≠ [])
    (h : ∀ a ∈ pat, a < 128) {bytes : List UInt8} {u v : List Char}
    (hd : decodeLossy bytes = u ++ pat.map asciiChar ++ v) :
    ∃ xs ys, bytes = xs ++ pat ++ ys ∧ decodeLossy xs = u ∧ decodeLossy ys = v := by
  obtain ⟨a, pat, rfl⟩ := List.exists_cons_of_ne_nil hne
  rw [List.forall_mem_cons] at h
  rw [List.append_assoc] at hd
  obtain ⟨xs, ys, rfl, hxs, hys⟩ := exists_of_decodeLossy_eq h.1 hd
  obtain ⟨zs, rfl, hzs⟩ := exists_of_decodeLossy_eq_append h.2 hys
  exact ⟨xs, zs, by simp, hxs, hzs⟩

/-! ## Searching before and after reading -/

/-- **Searching for an ASCII pattern before and after reading finds the same.** -/
theorem breakOn?_decodeLossy {pat : List UInt8} (hne : pat ≠ []) (h : ∀ a ∈ pat, a < 128)
    (bytes : List UInt8) :
    Text.breakOn? (pat.map asciiChar) (decodeLossy bytes) =
      (Text.breakOn? pat bytes).map fun p => (decodeLossy p.1, decodeLossy p.2) := by
  cases hb : Text.breakOn? pat bytes with
  | none =>
    rw [Option.map_none, Text.breakOn?_eq_none_iff]
    rintro ⟨u, v, huv⟩
    obtain ⟨xs, ys, hxy, -, -⟩ := exists_of_decodeLossy_eq_asciis hne h huv.symm
    exact Text.breakOn?_eq_none_iff.mp hb ⟨xs, ys, hxy.symm⟩
  | some p =>
    obtain ⟨gap, rest⟩ := p
    obtain ⟨hcut, hmin⟩ := Text.breakOn?_eq_some_iff.mp hb
    refine Text.breakOn?_eq_some_iff.mpr ⟨?_, fun u v huv => ?_⟩
    · rw [hcut, decodeLossy_append_asciis hne h]
    · -- an earlier occurrence in the text would be one in the bytes
      obtain ⟨xs, ys, hxy, rfl, -⟩ := exists_of_decodeLossy_eq_asciis hne h huv
      have hle := hmin xs ys hxy
      obtain ⟨a, pat, rfl⟩ := List.exists_cons_of_ne_nil hne
      rw [List.forall_mem_cons] at h
      have hgap : gap <+: bytes := ⟨a :: pat ++ rest, by rw [hcut, List.append_assoc]⟩
      have hxs : xs <+: bytes := ⟨a :: pat ++ ys, by rw [hxy, List.append_assoc]⟩
      obtain ⟨t, rfl⟩ := List.prefix_of_prefix_length_le hgap hxs hle
      cases t with
      | nil => simp
      | cons b t =>
        have hsame : gap ++ a :: (pat ++ rest) = gap ++ b :: (t ++ a :: (pat ++ ys)) := by
          simpa using hcut.symm.trans hxy
        obtain ⟨rfl, -⟩ := List.cons.inj (List.append_cancel_left hsame)
        rw [decodeLossy_append_ascii _ _ h.1]
        simp

end ErrorDocs.Utf8
