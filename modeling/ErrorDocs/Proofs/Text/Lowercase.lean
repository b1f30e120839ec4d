import ErrorDocs.Proofs.Text.Blank
import ErrorDocs.Proofs.Text.Utf8
import ErrorDocs.Text.Lowercase

/-!
# Lower case

A text in lower case stays as it is, although the lower case of a character may depend on what
stands around it: a character that is the lower case of another has no other lower case itself. No
blank and no dot comes out of a character that is none.

* `isClear_of_mem`: the table of capitals, checked run by run.
* `mem_lowerChar_cases`: what comes out of a character.
* **`lower_lower`**: lower case again changes nothing.
* `trim_lower`, `lower_dot_cons`: blanks at the ends, and a dot in front.
-/

namespace ErrorDocs.Text

/-! ## The table of capitals -/

/-- An entry of the table of capitals. -/
abbrev CapitalRun := Nat × Nat × Nat × Int

namespace CapitalRun

/-- The code points of a run. -/
def Has (r : CapitalRun) (n : Nat) : Prop :=
  r.1 ≤ n ∧ n ≤ r.2.1 ∧ (n - r.1) % r.2.2.1 = 0

/-- The lower case of a code point of a run. -/
def lowerOf (r : CapitalRun) (n : Nat) : Nat :=
  ((n : Int) + r.2.2.2).toNat

/-- The first run has no lower case among the capitals of the second: it lies on one side of them,
or steps over them. -/
def isApart (r r' : CapitalRun) : Bool :=
  Nat.blt (r.lowerOf r.2.1) r'.1 || Nat.blt r'.2.1 (r.lowerOf r.1) ||
    ((Nat.beq r.2.2.1 2 || Nat.beq r.1 r.2.1) && Nat.beq r'.2.2.1 2 &&
      Nat.beq ((r.lowerOf r.1 + r'.1) % 2) 1)

/-- The blanks from U+0080 on and the capital with a lower case of two characters, as ranges. -/
def barred : List (Nat × Nat) :=
  [(0x85, 0x85), (0xA0, 0xA0), (0x130, 0x130), (0x1680, 0x1680), (0x2000, 0x200A),
    (0x2028, 0x2029), (0x202F, 0x202F), (0x205F, 0x205F), (0x3000, 0x3000)]

/-- Runs whose lower cases are characters, and neither blanks nor capitals. One capital has an
ASCII letter as its lower case. -/
def isClear (r : CapitalRun) : Bool :=
  (Nat.ble 0x80 (r.lowerOf r.1) ||
      Nat.beq (r.lowerOf r.1) 'k'.toNat && Nat.beq (r.lowerOf r.2.1) 'k'.toNat) &&
    (Nat.blt (r.lowerOf r.2.1) 0xD800 ||
      Nat.ble 0xE000 (r.lowerOf r.1) && Nat.blt (r.lowerOf r.2.1) 0x110000) &&
    barred.all (fun b => Nat.blt (r.lowerOf r.2.1) b.1 || Nat.blt b.2 (r.lowerOf r.1)) &&
    lowercaseRuns.toList.all r.isApart

theorem isClear_of_mem {r : CapitalRun} (h : r ∈ lowercaseRuns.toList) : r.isClear = true := by
  have hall : lowercaseRuns.toList.all isClear = true := by decide +kernel
  exact List.all_eq_true.mp hall r h

/-- The lower cases of a run lie between those of its ends. -/
theorem lowerOf_bounds {r : CapitalRun} {n : Nat} (h : r.Has n) :
    r.lowerOf r.1 ≤ r.lowerOf n ∧ r.lowerOf n ≤ r.lowerOf r.2.1 := by
  obtain ⟨hfirst, hlast, -⟩ := h
  unfold lowerOf
  omega

theorem not_has_of_isApart {r r' : CapitalRun} {n : Nat} (h : r.Has n) (hpos : 0 < r.lowerOf r.1)
    (hapart : r.isApart r' = true) : ¬ r'.Has (r.lowerOf n) := by
  rintro ⟨hfirst', hlast', hstep'⟩
  obtain ⟨hlow, hhigh⟩ := lowerOf_bounds h
  simp only [isApart, Bool.or_eq_true, Bool.and_eq_true, Nat.blt_eq, Nat.beq_eq] at hapart
  rcases hapart with (habove | hbelow) | ⟨⟨hsteps, htwo'⟩, hodd⟩
  · omega
  · omega
  · -- both go in steps of two, from an even and from an odd code point
    rw [htwo'] at hstep'
    obtain ⟨hfirst, hlast, hstep⟩ := h
    have heven : (n - r.1) % 2 = 0 := by
      rcases hsteps with htwo | hsingle
      · rw [htwo] at hstep
        exact hstep
      · omega
    unfold lowerOf at *
    omega

end CapitalRun

open CapitalRun (barred)

theorem lowerCode_cases (n : Nat) :
    (lowerCode n = n ∧ ∀ r ∈ lowercaseRuns.toList, ¬ CapitalRun.Has r n) ∨
      ∃ r ∈ lowercaseRuns.toList, CapitalRun.Has r n ∧ lowerCode n = CapitalRun.lowerOf r n := by
  have hhas (r : CapitalRun) :
      (r.1 ≤ n && n ≤ r.2.1 && (n - r.1) % r.2.2.1 == 0) = true ↔ r.Has n := by
    simp [CapitalRun.Has, and_assoc]
  unfold lowerCode
  rw [← Array.find?_toList]
  split
  · rename_i r hr
    have hn := List.find?_some hr
    exact .inr ⟨r, List.mem_of_find?_eq_some hr, (hhas r).mp hn, rfl⟩
  · rename_i hnone
    rw [List.find?_eq_none] at hnone
    exact .inl ⟨rfl, fun r hr hn => hnone r hr ((hhas r).mpr hn)⟩

theorem lowerCode_of_not_has {n : Nat} (h : ∀ r ∈ lowercaseRuns.toList, ¬ CapitalRun.Has r n) :
    lowerCode n = n := by
  rcases lowerCode_cases n with ⟨hn, -⟩ | ⟨r, hr, hn, -⟩
  · exact hn
  · exact absurd hn (h r hr)

/-! ## Characters -/

/-- Characters in lower case that are neither a blank nor a dot. -/
structure IsSettled (c : Char) : Prop where
  lowerChar_eq : lowerChar c = [c]
  not_blank : isBlank c = false
  ne_dot : c ≠ '.'

/-- What the table gives is a character in lower case. -/
theorem isSettled_lowerOf {r : CapitalRun} {n : Nat} (hr : r ∈ lowercaseRuns.toList)
    (hn : r.Has n) : IsSettled (Char.ofNat (r.lowerOf n)) := by
  have hclear := CapitalRun.isClear_of_mem hr
  obtain ⟨hlow, hhigh⟩ := CapitalRun.lowerOf_bounds hn
  simp only [CapitalRun.isClear, Bool.and_eq_true, Bool.or_eq_true, Nat.ble_eq, Nat.blt_eq,
    Nat.beq_eq, List.all_eq_true] at hclear
  obtain ⟨⟨⟨hascii, hside⟩, hbarred⟩, hapart⟩ := hclear
  have hk : 'k'.toNat = 0x6B := rfl
  have hcode : lowerCode (r.lowerOf n) = r.lowerOf n := lowerCode_of_not_has fun r' hr' =>
    CapitalRun.not_has_of_isApart hn (by omega) (hapart r' hr')
  set m := r.lowerOf n
  rcases Nat.lt_or_ge m 0x80 with hm | hm
  · have hletter : m = 'k'.toNat := by omega
    rw [hletter]
    exact ⟨by decide, by decide, by decide⟩
  · have hchar : (Char.ofNat m).toNat = m := Utf8.OnOneSide.toNat_ofNat (by
      unfold Utf8.OnOneSide
      omega)
    have hne {d : Char} (hd : d.toNat ≠ m) : Char.ofNat m ≠ d := by
      rintro rfl
      exact hd hchar
    have haway : ∀ b ∈ barred, m < b.1 ∨ b.2 < m := fun b hb => by
      have := hbarred b hb
      omega
    simp only [barred, List.forall_mem_cons] at haway
    refine ⟨?_, ?_, hne (by have : '.'.toNat = 0x2E := rfl; omega)⟩
    · have hdotted : '\u0130'.toNat = 0x130 := rfl
      rw [lowerChar, hchar, if_neg (by omega), if_neg (hne (by omega)), hcode]
    · simp only [isBlank, hchar, Bool.or_eq_false_iff, Bool.and_eq_false_iff,
        decide_eq_false_iff_not, beq_eq_false_iff_ne]
      omega

/-- The characters outside all runs are in lower case. -/
theorem isSettled_of_outside {c : Char} (hascii : 0x80 ≤ c.toNat) (hdotted : c ≠ '\u0130')
    (hblank : isBlank c = false)
    (h : lowercaseRuns.toList.all (fun r => Nat.blt c.toNat r.1 || Nat.blt r.2.1 c.toNat) = true) :
    IsSettled c := by
  have hcode : lowerCode c.toNat = c.toNat := lowerCode_of_not_has fun r hr ⟨hfirst, hlast, _⟩ => by
    have houtside := List.all_eq_true.mp h r hr
    simp only [Bool.or_eq_true, Nat.blt_eq] at houtside
    omega
  refine ⟨?_, hblank, ?_⟩
  · rw [lowerChar, if_neg (by omega), if_neg hdotted, hcode, Char.ofNat_toNat]
  · rintro rfl
    exact absurd hascii (by decide)

instance (c : Char) : Decidable (IsSettled c) :=
  decidable_of_iff (lowerChar c = [c] ∧ isBlank c = false ∧ c ≠ '.')
    ⟨fun h => ⟨h.1, h.2.1, h.2.2⟩, fun h => ⟨h.lowerChar_eq, h.not_blank, h.ne_dot⟩⟩

/-- What comes out of a character: itself, if it is in lower case, or a settled character. -/
theorem mem_lowerChar_cases {c d : Char} (h : d ∈ lowerChar c) :
    (lowerChar c = [c] ∧ d = c) ∨ IsSettled d := by
  have hascii : ∀ n < 0x80, (Char.ofNat n).toLower = Char.ofNat n ∨
      IsSettled (Char.ofNat n).toLower := by decide
  unfold lowerChar at h ⊢
  split_ifs at h ⊢ with hc hdotted
  · have hcases := hascii c.toNat hc
    rw [Char.ofNat_toNat] at hcases
    rw [List.mem_singleton.mp h]
    exact hcases.imp_left fun heq => ⟨by rw [heq], heq⟩
  · refine .inr ?_
    rcases List.mem_pair.mp h with rfl | rfl
    · decide
    · exact isSettled_of_outside (by decide) (by decide) (by decide) (by decide +kernel)
  · rw [List.mem_singleton.mp h]
    rcases lowerCode_cases c.toNat with ⟨hsame, -⟩ | ⟨r, hr, hn, hlower⟩
    · rw [hsame, Char.ofNat_toNat]
      exact .inl ⟨rfl, rfl⟩
    · rw [hlower]
      exact .inr (isSettled_lowerOf hr hn)

/-! ## Texts -/

/-- What a character becomes between what stands before it, last first, and what follows. -/
def lowerAt (before : List Char) (c : Char) (after : List Char) : List Char :=
  if c = '\u03a3' then [lowerSigma before after] else lowerChar c

theorem lowerFrom_cons (before : List Char) (c : Char) (after : List Char) :
    lowerFrom before (c :: after) = lowerAt before c after ++ lowerFrom (c :: before) after := rfl

variable {before after s : List Char} {c d : Char}

theorem mem_lowerAt_cases (h : d ∈ lowerAt before c after) :
    (lowerChar c = [c] ∧ d = c) ∨ IsSettled d := by
  unfold lowerAt at h
  split_ifs at h with hc
  · rw [List.mem_singleton.mp h, lowerSigma]
    refine .inr ?_
    split_ifs
    · exact isSettled_of_outside (by decide) (by decide) (by decide) (by decide +kernel)
    · exact isSettled_of_outside (by decide) (by decide) (by decide) (by decide +kernel)
  · exact mem_lowerChar_cases h

theorem lowerAt_ne_nil (before : List Char) (c : Char) (after : List Char) :
    lowerAt before c after ≠ [] := by
  unfold lowerAt lowerChar
  split_ifs <;> simp

theorem lowerChar_of_mem_lowerFrom (h : d ∈ lowerFrom before s) : lowerChar d = [d] := by
  induction s generalizing before with
  | nil => cases h
  | cons c after ih =>
    rw [lowerFrom_cons] at h
    rcases List.mem_append.mp h with h | h
    · rcases mem_lowerAt_cases h with ⟨hc, rfl⟩ | hsettled
      · exact hc
      · exact hsettled.lowerChar_eq
    · exact ih h

/-- Where every character is in lower case, no context changes one. -/
theorem lowerFrom_eq_self (before : List Char) (h : ∀ c ∈ s, lowerChar c = [c]) :
    lowerFrom before s = s := by
  induction s generalizing before with
  | nil => rfl
  | cons c after ih =>
    rw [List.forall_mem_cons] at h
    have hsigma : c ≠ '\u03a3' := by
      rintro rfl
      exact absurd h.1 (by decide +kernel)
    rw [lowerFrom_cons, lowerAt, if_neg hsigma, h.1, ih _ h.2, List.singleton_append]

/-- **Lower case again changes nothing.** -/
theorem lower_lower (s : List Char) : lower (lower s) = lower s :=
  lowerFrom_eq_self [] fun _ hd => lowerChar_of_mem_lowerFrom hd

theorem head?_lowerFrom (h : (lowerFrom before s).head? = some d) :
    ∃ c, s.head? = some c ∧ ((lowerChar c = [c] ∧ d = c) ∨ IsSettled d) := by
  cases s with
  | nil => cases h
  | cons c after =>
    rw [lowerFrom_cons, List.head?_append_of_ne_nil _ (lowerAt_ne_nil before c after)] at h
    exact ⟨c, rfl, mem_lowerAt_cases (List.mem_of_mem_head? h)⟩

theorem getLast?_lowerFrom (h : (lowerFrom before s).getLast? = some d) :
    ∃ c, s.getLast? = some c ∧ ((lowerChar c = [c] ∧ d = c) ∨ IsSettled d) := by
  induction s generalizing before with
  | nil => cases h
  | cons c after ih =>
    rw [lowerFrom_cons] at h
    cases after with
    | nil =>
      rw [lowerFrom, List.append_nil] at h
      exact ⟨c, rfl, mem_lowerAt_cases (List.mem_of_getLast? h)⟩
    | cons c' after =>
      have hne : lowerFrom (c :: before) (c' :: after) ≠ [] := by
        rw [lowerFrom_cons]
        exact List.append_ne_nil_of_left_ne_nil (lowerAt_ne_nil _ _ _) _
      rw [List.getLast?_append_of_ne_nil _ hne] at h
      obtain ⟨c'', hc'', hd⟩ := ih h
      exact ⟨c'', by rw [List.getLast?_cons_cons, hc''], hd⟩

/-- Lower case puts no blanks at the ends of a text. -/
theorem trim_lower (h : trim s = s) : trim (lower s) = lower s := by
  obtain ⟨hhead, hlast⟩ := trim_eq_self_iff.mp h
  have hsolid {c d : Char} (hc : isBlank c = false)
      (hd : (lowerChar c = [c] ∧ d = c) ∨ IsSettled d) : isBlank d = false := by
    rcases hd with ⟨-, rfl⟩ | hsettled
    · exact hc
    · exact hsettled.not_blank
  refine trim_eq_self_iff.mpr ⟨fun d hd => ?_, fun d hd => ?_⟩
  · obtain ⟨c, hc, hcases⟩ := head?_lowerFrom hd
    exact hsolid (hhead c hc) hcases
  · obtain ⟨c, hc, hcases⟩ := getLast?_lowerFrom hd
    exact hsolid (hlast c hc) hcases

/-! ## A dot in front -/

/-- A dot at the far end of a context has no case and hides nothing. -/
theorem meetsCased_append_dot (s : List Char) : meetsCased (s ++ ['.']) = meetsCased s := by
  unfold meetsCased
  rw [List.dropWhile_append]
  cases hs : s.dropWhile isCaseIgnorable with
  | nil => decide
  | cons c rest => rfl

theorem lowerFrom_append_dot (before s : List Char) :
    lowerFrom (before ++ ['.']) s = lowerFrom before s := by
  induction s generalizing before with
  | nil => rfl
  | cons c after ih =>
    have hrest : lowerFrom (c :: (before ++ ['.'])) after = lowerFrom (c :: before) after :=
      ih (c :: before)
    rw [lowerFrom_cons, lowerFrom_cons, hrest, lowerAt, lowerAt, lowerSigma, lowerSigma,
      meetsCased_append_dot]

theorem lower_dot_cons (s : List Char) : lower ('.' :: s) = '.' :: lower s := by
  have hdot : lowerAt [] '.' s = ['.'] := rfl
  rw [lower, lowerFrom_cons, hdot, List.singleton_append]
  exact congrArg _ (lowerFrom_append_dot [] s)

theorem head?_lower_ne_dot (h : s.head? ≠ some '.') : (lower s).head? ≠ some '.' := by
  intro hdot
  obtain ⟨c, hc, ⟨-, rfl⟩ | hsettled⟩ := head?_lowerFrom hdot
  · exact h hc
  · exact hsettled.ne_dot rfl

end ErrorDocs.Text
