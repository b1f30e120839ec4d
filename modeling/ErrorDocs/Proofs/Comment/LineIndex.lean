import ErrorDocs.Comment.LineIndex
import ErrorDocs.Proofs.Comment.Block

/-!
# The line of an offset

The binary search among the line breaks counts the breaks below an offset, and the breaks of a text
are the positions of its line feeds among its bytes, in ascending order. The line of an offset at
which a text is cut is thus one more than the number of line feeds before the cut.

* `searchBelow_spec`: what the search keeps; **`countBelow_eq_countP`**: what it counts.
* `lineOf_le_lineOf`: a later offset is on no earlier line.
* `toList_breaks_ofText`, `breaksFrom_eq_findIdxs`: the breaks of a text.
* **`lineOf_extent`**: the line at a cut.
-/

namespace ErrorDocs.LineIndex

/-! ## The search -/

theorem getD_le_getD {a : Array Nat} (h : a.toList.Pairwise (· ≤ ·)) {i j : Nat} (hij : i ≤ j)
    (hj : j < a.size) : a.getD i 0 ≤ a.getD j 0 := by
  rcases Nat.eq_or_lt_of_le hij with rfl | hlt
  · exact Nat.le_refl _
  · have := List.pairwise_iff_getElem.mp h i j (by simp; omega) (by simpa using hj) hlt
    simpa [Array.getD, hj, show i < a.size by omega] using this

/-- **The search ends where the entries stop being below `x`.** -/
theorem searchBelow_spec {a : Array Nat} (h : a.toList.Pairwise (· ≤ ·)) {x lo hi : Nat}
    (hle : lo ≤ hi) (hsize : hi ≤ a.size) (hlo : ∀ i < lo, a.getD i 0 < x)
    (hhi : ∀ i, hi ≤ i → i < a.size → x ≤ a.getD i 0) :
    searchBelow a x lo hi ≤ a.size ∧ (∀ i < searchBelow a x lo hi, a.getD i 0 < x) ∧
      ∀ i, searchBelow a x lo hi ≤ i → i < a.size → x ≤ a.getD i 0 := by
  fun_induction searchBelow a x lo hi with
  | case1 lo hi hlt mid hmid ih =>
    refine ih (by omega) hsize (fun i hi' => ?_) hhi
    exact Nat.lt_of_le_of_lt (getD_le_getD h (by omega) (by omega)) hmid
  | case2 lo hi hlt mid hmid ih =>
    refine ih (by omega) (by omega) hlo (fun i hi' hi'' => ?_)
    exact Nat.le_trans (Nat.le_of_not_lt hmid) (getD_le_getD h hi' hi'')
  | case3 lo hi hlt =>
    obtain rfl : lo = hi := by omega
    exact ⟨hsize, hlo, hhi⟩

/-- **The search counts the entries below `x`.** -/
theorem countBelow_eq_countP {a : Array Nat} (h : a.toList.Pairwise (· ≤ ·)) (x : Nat) :
    countBelow a x = a.toList.countP (· < x) := by
  obtain ⟨hsize, hbelow, habove⟩ :=
    searchBelow_spec h (x := x) (Nat.zero_le _) (Nat.le_refl a.size) (by omega) (by omega)
  rw [countBelow]
  generalize searchBelow a x 0 a.size = r at hsize hbelow habove
  have htake : (a.toList.take r).countP (· < x) = r := by
    rw [List.countP_eq_length.mpr, List.length_take, Array.length_toList, Nat.min_eq_left hsize]
    intro y hy
    obtain ⟨i, hi, rfl⟩ := List.mem_take_iff_getElem.mp hy
    simp only [Array.length_toList] at hi
    simpa [Array.getD, show i < a.size by omega] using hbelow i (by omega)
  have hdrop : (a.toList.drop r).countP (· < x) = 0 := by
    rw [List.countP_eq_zero]
    intro y hy
    obtain ⟨i, hi, rfl⟩ := List.mem_drop_iff_getElem.mp hy
    simp only [Array.length_toList] at hi
    simpa [Array.getD, show r + i < a.size by omega] using habove (r + i) (by omega) (by omega)
  rw [← List.take_append_drop r a.toList, List.countP_append, htake, hdrop, Nat.add_zero]

theorem lineOf_eq {index : LineIndex} (h : index.breaks.toList.Pairwise (· ≤ ·)) (offset : Nat) :
    index.lineOf offset = 1 + index.breaks.toList.countP (· < offset) := by
  rw [lineOf, countBelow_eq_countP h, Nat.add_comm]

theorem lineOf_le_lineOf {index : LineIndex} (h : index.breaks.toList.Pairwise (· ≤ ·)) {x y : Nat}
    (hxy : x ≤ y) : index.lineOf x ≤ index.lineOf y := by
  rw [lineOf_eq h, lineOf_eq h]
  apply Nat.add_le_add_left
  apply List.countP_mono_left
  intro i _ hi
  rw [decide_eq_true_iff] at hi ⊢
  omega

/-! ## The breaks of a text -/

/-- The offsets of the line feeds of a text that starts at a given offset. -/
def breaksFrom : Nat → List Char → List Nat
  | _, [] => []
  | n, c :: s =>
    if c = '\n' then n :: breaksFrom (n + c.utf8Size) s else breaksFrom (n + c.utf8Size) s

theorem toList_foldl_note (s : List Char) (n : Nat) (acc : Array Nat) :
    (s.foldl note (n, acc)).2.toList = acc.toList ++ breaksFrom n s := by
  induction s generalizing n acc with
  | nil => simp [breaksFrom]
  | cons c s ih =>
    rw [List.foldl_cons, note, ih, breaksFrom]
    split_ifs <;> simp

theorem toList_breaks_ofText (s : List Char) : (ofText s).breaks.toList = breaksFrom 0 s := by
  rw [ofText, toList_foldl_note]
  rfl

theorem breaksFrom_append (n : Nat) (s t : List Char) :
    breaksFrom n (s ++ t) = breaksFrom n s ++ breaksFrom (n + extent Char.utf8Size s) t := by
  induction s generalizing n with
  | nil => rfl
  | cons c s ih =>
    rw [List.cons_append, breaksFrom, breaksFrom, ih]
    simp only [extent_cons, Nat.add_assoc]
    split_ifs <;> rfl

/-- A line feed takes up room behind its offset. -/
theorem bounds_of_mem_breaksFrom {n i : Nat} {s : List Char} (h : i ∈ breaksFrom n s) :
    n ≤ i ∧ i < n + extent Char.utf8Size s := by
  induction s generalizing n with
  | nil => simp [breaksFrom] at h
  | cons c s ih =>
    have hc := Char.utf8Size_pos c
    simp only [extent_cons] at ih ⊢
    rw [breaksFrom] at h
    split_ifs at h
    · rcases List.mem_cons.mp h with rfl | h
      · omega
      · have := ih h; omega
    · have := ih h; omega

theorem newline_not_mem_utf8EncodeChar {c : Char} (hc : c ≠ '\n') :
    (0x0A : UInt8) ∉ String.utf8EncodeChar c := by
  have hval : c.val.toNat ≠ 0x0A := fun h => hc (Char.ext (UInt32.toNat_inj.mp h))
  simp only [String.utf8EncodeChar]
  generalize c.val.toNat = v at hval
  -- one case for each number of bytes
  split_ifs <;> simp [← UInt8.toNat_inj] <;> omega

/-- **The breaks of a text are the positions of its line feeds among its bytes.** -/
theorem breaksFrom_eq_findIdxs (n : Nat) (s : List Char) :
    breaksFrom n s = (Utf8.encode s).findIdxs (· == 0x0A) n := by
  induction s generalizing n with
  | nil => rfl
  | cons c s ih =>
    rw [breaksFrom, Utf8.encode, List.flatMap_cons, List.findIdxs_append,
      String.length_utf8EncodeChar, ih, Utf8.encode]
    by_cases hc : c = '\n'
    · rw [if_pos hc, hc]
      rfl
    · have hnone : (String.utf8EncodeChar c).findIdxs (· == 0x0A) n = [] := by
        rw [List.findIdxs_eq_nil_iff]
        intro b hb
        rw [beq_eq_false_iff_ne]
        rintro rfl
        exact newline_not_mem_utf8EncodeChar hc hb
      rw [if_neg hc, hnone, List.nil_append]

theorem mem_breaks_ofText_iff {text : List Char} {i : Nat} :
    i ∈ (ofText text).breaks.toList ↔ (Utf8.encode text)[i]? = some 0x0A := by
  rw [toList_breaks_ofText, breaksFrom_eq_findIdxs, List.mem_findIdxs_iff_exists_getElem_pos,
    List.getElem?_eq_some_iff]
  simp only [beq_iff_eq]

theorem pairwise_breaks_ofText (text : List Char) :
    (ofText text).breaks.toList.Pairwise (· < ·) := by
  rw [toList_breaks_ofText, breaksFrom_eq_findIdxs]
  exact List.pairwise_findIdxs

theorem length_breaksFrom (n : Nat) (s : List Char) : (breaksFrom n s).length = s.count '\n' := by
  induction s generalizing n with
  | nil => rfl
  | cons c s ih =>
    rw [breaksFrom]
    split_ifs with hc <;> simp [ih, hc]

/-- **The line at a cut** is one more than the number of line feeds before it. -/
theorem lineOf_extent (s t : List Char) :
    (ofText (s ++ t)).lineOf (extent Char.utf8Size s) = s.count '\n' + 1 := by
  have hsorted := (pairwise_breaks_ofText (s ++ t)).imp Nat.le_of_lt
  rw [lineOf_eq hsorted, toList_breaks_ofText, breaksFrom_append, List.countP_append, Nat.zero_add,
    ← length_breaksFrom 0 s]
  rw [List.countP_eq_length.mpr, List.countP_eq_zero.mpr, Nat.add_zero, Nat.add_comm]
  · intro i hi
    simpa using (bounds_of_mem_breaksFrom hi).1
  · intro i hi
    simpa using (bounds_of_mem_breaksFrom hi).2

end ErrorDocs.LineIndex
