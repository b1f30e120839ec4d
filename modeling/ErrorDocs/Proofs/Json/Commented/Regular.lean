import ErrorDocs.Json.Commented.Reader
import Mathlib.Data.List.Basic

/-!
# The values of the commented dialect

Whatever a text says, the integers of the value that is read from it have 64 bits, and the members
of each object are in the strict order of their names, so that there is one for each name.

* `Number.Fits`, `Json.IsRegular`: such numbers and values.
* `fits_of_numberValue?`: the numbers of the dialect.
* `fits_of_mem_scan`: the tokens of a text.
* **`isRegular_of_read`**: the value of a text.
-/

namespace ErrorDocs

/-! ## Numbers -/

/-- Numbers that are no integers of more than 64 bits, with a sign or without one. -/
def Number.Fits : Number → Prop
  | .int n => -(Nat.pow 2 63 : Int) ≤ n ∧ n < Nat.pow 2 64
  | .float _ => True

theorem Numeral.collectWhole_lt (digits : List Char) : (collectWhole digits).1 < Nat.pow 2 64 := by
  suffices h : ∀ acc : Nat × Nat, acc.1 < Nat.pow 2 64 →
      (digits.foldl
        (fun acc c =>
          let n := acc.1 * 10 + digitValue c
          if acc.2 == 0 && isExact n then (n, 0) else (acc.1, acc.2 + 1)) acc).1 < Nat.pow 2 64 from
    h (0, 0) (by decide)
  induction digits with
  | nil => exact fun acc hacc => hacc
  | cons c digits ih =>
    intro acc hacc
    rw [List.foldl_cons]
    refine ih _ ?_
    dsimp only
    split_ifs with hexact
    · rw [Bool.and_eq_true] at hexact
      exact of_decide_eq_true hexact.2
    · exact hacc

theorem Numeral.fits_of_value? {l : Numeral} {n : Number} (h : l.value? = some n) : n.Fits := by
  have hfloat {s : Nat} {e : Int}
      (h : (magnitude? s e).map (fun m => Number.float ⟨l.negative, m⟩) = some n) : n.Fits := by
    obtain ⟨m, -, rfl⟩ := Option.map_eq_some_iff.mp h
    trivial
  have hlt := collectWhole_lt l.whole
  unfold value? at h
  dsimp only at h
  split at h
  · split_ifs at h with homitted hsign hsmall
    · exact hfloat h
    · obtain rfl := Option.some.inj h
      exact ⟨by omega, by omega⟩
    · obtain rfl := Option.some.inj h
      exact ⟨by omega, by omega⟩
    · exact hfloat h
  · exact hfloat h

theorem Number.fits_of_ofHex? {negative : Bool} {digits : List Char} {n : Number}
    (h : ofHex? negative digits = some n) : n.Fits := by
  have hpow : Nat.pow 2 63 ≤ Nat.pow 2 64 := by decide
  unfold ofHex? at h
  dsimp only at h
  split_ifs at h with hlt hsign
  · obtain rfl := Option.some.inj h
    exact ⟨by omega, by omega⟩
  · obtain rfl := Option.some.inj h
    exact ⟨by omega, by omega⟩

namespace Json

/-- Values all integers of which have 64 bits, and the members of whose objects are in the strict
order of their names. -/
inductive IsRegular : Json → Prop where
  | null : IsRegular .null
  | bool (b : Bool) : IsRegular (.bool b)
  | number {n : Number} (h : n.Fits) : IsRegular (.number n)
  | string (s : String) : IsRegular (.string s)
  | array {items : List Json} (h : ∀ v ∈ items, IsRegular v) : IsRegular (.array items)
  | object {members : List (String × Json)} (sorted : members.Pairwise (·.1 < ·.1))
      (h : ∀ x ∈ members, IsRegular x.2) : IsRegular (.object members)

theorem mem_insertMember {name : String} {v : Json} {members : List (String × Json)}
    {x : String × Json} (h : x ∈ insertMember name v members) : x = (name, v) ∨ x ∈ members := by
  fun_induction insertMember name v members with
  | case1 => exact .inl (List.mem_singleton.mp h)
  | case2 w rest =>
    rcases List.mem_cons.mp h with h | h
    · exact .inl h
    · exact .inr (List.mem_cons_of_mem _ h)
  | case3 n w rest hne hlt =>
    rcases List.mem_cons.mp h with h | h
    · exact .inl h
    · exact .inr h
  | case4 n w rest hne hlt ih =>
    rcases List.mem_cons.mp h with h | h
    · exact .inr (h ▸ List.mem_cons_self)
    · exact (ih h).imp_right (List.mem_cons_of_mem _)

theorem pairwise_insertMember (name : String) (v : Json) {members : List (String × Json)}
    (h : members.Pairwise (·.1 < ·.1)) : (insertMember name v members).Pairwise (·.1 < ·.1) := by
  fun_induction insertMember name v members with
  | case1 => exact List.pairwise_singleton _ _
  | case2 w rest => exact List.pairwise_cons.mpr (List.pairwise_cons.mp h)
  | case3 n w rest hne hlt =>
    refine List.pairwise_cons.mpr ⟨List.forall_mem_cons.mpr ⟨hlt, fun x hx => ?_⟩, h⟩
    exact String.lt_trans hlt ((List.pairwise_cons.mp h).1 x hx)
  | case4 n w rest hne hlt ih =>
    rw [List.pairwise_cons] at h
    refine List.pairwise_cons.mpr ⟨fun x hx => ?_, ih h.2⟩
    rcases mem_insertMember hx with rfl | hx
    · exact Std.lt_of_le_of_ne hlt (Ne.symm hne)
    · exact h.1 x hx

theorem IsRegular.insertMember {members : List (String × Json)} {v : Json}
    (h : IsRegular (.object members)) (hv : v.IsRegular) (name : String) :
    IsRegular (.object (Json.insertMember name v members)) := by
  cases h with
  | object sorted h =>
    refine .object (pairwise_insertMember name v sorted) fun x hx => ?_
    rcases mem_insertMember hx with rfl | hx
    · exact hv
    · exact h x hx

namespace Commented

theorem fits_of_numberValue? {text : List Char} {n : Number} (h : numberValue? text = some n) :
    n.Fits := by
  have hunsigned {negative : Bool} {text : List Char}
      (h : unsignedValue? negative text = some n) : n.Fits := by
    unfold unsignedValue? at h
    split at h
    · exact Number.fits_of_ofHex? h
    · exact Number.fits_of_ofHex? h
    · obtain ⟨l, -, hl⟩ := Option.bind_eq_some_iff.mp h
      exact Numeral.fits_of_value? hl
  unfold numberValue? at h
  split at h <;> exact hunsigned h

/-! ## Tokens -/

/-- Tokens that are no numbers of more than 64 bits. -/
def FitToken : Token → Prop
  | .number _ (some n) => n.Fits
  | _ => True

theorem fitToken_numberToken (text : List Char) : FitToken (numberToken text) := by
  unfold numberToken
  cases h : numberValue? text with
  | none => trivial
  | some n => exact fits_of_numberValue? h

theorem fitToken_of_punctuation? {c : Char} {t : Token} (h : punctuation? c = some t) :
    FitToken t := by
  unfold punctuation? at h
  split_ifs at h <;> cases h <;> trivial

theorem fitToken_of_keyword? {text : List Char} {t : Token} (h : keyword? text = some t) :
    FitToken t := by
  unfold keyword? at h
  split_ifs at h <;> cases h <;> trivial

variable {found : List Located} {position : Nat}

theorem fits_lexBetween (h : ∀ t ∈ found, FitToken t.token) (c : Char) :
    ∀ t ∈ (lexBetween position found c).found, FitToken t.token := by
  fun_cases lexBetween position found c with
  | case2 _ t ht => exact List.forall_mem_cons.mpr ⟨fitToken_of_punctuation? ht, h⟩
  | case1 | case3 | case4 | case5 | case6 | case7 | case8 => exact h

/-- A character leaves the tokens as they are, or completes one. -/
theorem fits_lexStep (position : Nat) (mode : Mode) (h : ∀ t ∈ found, FitToken t.token) (c : Char) :
    ∀ t ∈ (lexStep position mode found c).found, FitToken t.token := by
  cases mode with
  | between => exact fits_lexBetween h c
  | slash start =>
    rw [lexStep]
    split_ifs <;> exact h
  | lineComment => exact h
  | blockComment start star => exact h
  | quoted q =>
    rw [lexStep]
    split_ifs
    · exact List.forall_mem_cons.mpr ⟨trivial, h⟩
    · exact h
    · exact h
  | escape q backslash => exact h
  | code q backslash high digits => exact h
  | pair q backslash high =>
    rw [lexStep]
    split_ifs <;> exact h
  | pairEscape q backslash high =>
    rw [lexStep]
    split_ifs <;> exact h
  | number start text part =>
    rw [lexStep]
    split
    · exact h
    · split
      · exact h
      · exact fits_lexBetween (List.forall_mem_cons.mpr ⟨fitToken_numberToken _, h⟩) c
  | word start text =>
    rw [lexStep]
    split
    · rename_i ht
      split
      · exact h
      · exact fits_lexBetween (List.forall_mem_cons.mpr ⟨fitToken_of_keyword? ht, h⟩) c
    · split
      · refine fits_lexBetween (List.forall_mem_cons.mpr ⟨?_, h⟩) c
        trivial
      · split <;> exact h

theorem fits_lexEnd {mode : Mode} {found' : List Located} (h : ∀ t ∈ found, FitToken t.token)
    (hend : lexEnd position mode found = .ok found') : ∀ t ∈ found', FitToken t.token := by
  cases mode with
  | between => exact Except.ok.inj hend ▸ h
  | lineComment => exact Except.ok.inj hend ▸ h
  | number start text part =>
    rw [lexEnd] at hend
    split at hend
    · cases hend
    · exact Except.ok.inj hend ▸ List.forall_mem_cons.mpr ⟨fitToken_numberToken _, h⟩
  | word start text =>
    have hword : FitToken ((keyword? text.reverse).getD (.word text.reverse)) := by
      cases ht : keyword? text.reverse with
      | none => trivial
      | some t => exact fitToken_of_keyword? ht
    exact Except.ok.inj hend ▸ List.forall_mem_cons.mpr ⟨hword, h⟩
  | slash start => cases hend
  | blockComment start star => cases hend
  | quoted q => cases hend
  | escape q backslash => cases hend
  | code q backslash high digits => cases hend
  | pair q backslash high => cases hend
  | pairEscape q backslash high => cases hend

theorem fits_scanFrom (mode : Mode) (h : ∀ t ∈ found, FitToken t.token) (text : List Char) :
    ∀ t ∈ (scanFrom position mode found text).tokens, FitToken t.token := by
  induction text generalizing position mode found with
  | nil =>
    unfold scanFrom
    split
    · rename_i hend
      exact fun t ht => fits_lexEnd h hend t (List.mem_reverse.mp ht)
    · exact fun t ht => h t (List.mem_reverse.mp ht)
  | cons c rest ih =>
    have hstep := fits_lexStep position mode h c
    unfold scanFrom
    split
    · rename_i heq
      rw [heq] at hstep
      exact ih _ hstep
    · rename_i heq
      rw [heq] at hstep
      exact fun t ht => hstep t (List.mem_reverse.mp ht)

/-! ## Reading -/

/-- Containers all whose parts so far are regular. -/
def RegularFrame : Frame → Prop
  | .items _ done => ∀ v ∈ done, IsRegular v
  | .members _ done => IsRegular (.object done)
  | .member _ done _ => IsRegular (.object done)

/-- States in which all that has been read is regular. -/
structure RegularState (s : State) : Prop where
  stack : ∀ f ∈ s.stack, RegularFrame f
  finished : ∀ v, s.phase = .finished v → v.IsRegular

variable {stack : List Frame}

theorem regularState_of_phase {phase : Phase} (h : ∀ f ∈ stack, RegularFrame f)
    (hphase : ∀ v, phase ≠ .finished v) : RegularState ⟨stack, phase⟩ :=
  ⟨h, fun v hv => absurd hv (hphase v)⟩

theorem regularState_deliver {v : Json} (hv : v.IsRegular) (h : ∀ f ∈ stack, RegularFrame f) :
    RegularState (deliver v stack) := by
  cases stack with
  | nil =>
    refine ⟨h, ?_⟩
    rintro _ ⟨⟩
    exact hv
  | cons f stack =>
    rw [List.forall_mem_cons] at h
    cases f with
    | items start done =>
      refine regularState_of_phase (List.forall_mem_cons.mpr ⟨?_, h.2⟩) (by simp)
      exact List.forall_mem_cons.mpr ⟨hv, h.1⟩
    | members start done =>
      exact regularState_of_phase (List.forall_mem_cons.mpr h) (by simp)
    | member start done name =>
      refine regularState_of_phase (List.forall_mem_cons.mpr ⟨?_, h.2⟩) (by simp)
      exact IsRegular.insertMember h.1 hv name

theorem regularState_beginValue {t : Located} {s : State} (ht : FitToken t.token)
    (h : ∀ f ∈ stack, RegularFrame f) (hs : beginValue stack t = .ok s) : RegularState s := by
  have hempty : IsRegular (.object []) := .object .nil (by simp)
  unfold beginValue at hs
  split at hs <;> cases hs
  · exact regularState_of_phase (List.forall_mem_cons.mpr ⟨by simp [RegularFrame], h⟩) (by simp)
  · exact regularState_of_phase (List.forall_mem_cons.mpr ⟨hempty, h⟩) (by simp)
  · exact regularState_deliver (.string _) h
  · rename_i value heq
    rw [heq] at ht
    cases value with
    | none => exact regularState_deliver (.string _) h
    | some n => exact regularState_deliver (.number ht) h
  · exact regularState_deliver (.bool _) h
  · exact regularState_deliver .null h

theorem regularState_takeItem {t : Located} {s : State} (ht : FitToken t.token)
    (h : ∀ f ∈ stack, RegularFrame f) (hs : takeItem stack t = .ok s) : RegularState s := by
  unfold takeItem at hs
  split at hs
  · cases hs
    rw [List.forall_mem_cons] at h
    exact regularState_deliver (.array fun v hv => h.1 v (List.mem_reverse.mp hv)) h.2
  · exact regularState_beginValue ht h hs

theorem regularState_takeName {t : Located} {s : State} (h : ∀ f ∈ stack, RegularFrame f)
    (hs : takeName stack t = .ok s) : RegularState s := by
  unfold takeName at hs
  split at hs <;> cases hs
  · rw [List.forall_mem_cons] at h
    exact regularState_deliver h.1 h.2
  · rw [List.forall_mem_cons] at h
    exact regularState_of_phase (List.forall_mem_cons.mpr h) (by simp)

/-- A token keeps what has been read regular. -/
theorem regularState_readStep {s s' : State} {t : Located} (h : RegularState s)
    (ht : FitToken t.token) (hs : readStep s t = .ok s') : RegularState s' := by
  unfold readStep at hs
  split at hs
  · exact regularState_beginValue ht h.stack hs
  · exact regularState_takeItem ht h.stack hs
  · split_ifs at hs
    · cases hs
      exact regularState_of_phase h.stack (by simp)
    · exact regularState_takeItem ht h.stack hs
  · exact regularState_takeName h.stack hs
  · split_ifs at hs
    · cases hs
      exact regularState_of_phase h.stack (by simp)
    · exact regularState_takeName h.stack hs
  · split_ifs at hs
    cases hs
    exact regularState_of_phase h.stack (by simp)
  · exact regularState_beginValue ht h.stack hs
  · cases hs

theorem isRegular_of_readFrom {length : Nat} {trouble : Option Trouble} {s : State}
    {ts : List Located} {v : Json} (h : RegularState s) (hts : ∀ t ∈ ts, FitToken t.token)
    (hread : readFrom length trouble s ts = .ok (some v)) : v.IsRegular := by
  induction ts generalizing s with
  | nil =>
    unfold readFrom readEnd at hread
    split at hread
    · cases hread
    · split at hread <;> cases hread
      rename_i hphase
      exact h.finished v hphase
  | cons t ts ih =>
    rw [List.forall_mem_cons] at hts
    unfold readFrom at hread
    split at hread
    · rename_i hstep
      exact ih (regularState_readStep h hts.1 hstep) hts.2 hread
    · cases hread

/-- **The value of a text is regular.** -/
theorem isRegular_of_read {text : List Char} {v : Json} (h : read text = .ok (some v)) :
    v.IsRegular := by
  refine isRegular_of_readFrom (s := ⟨[], .start⟩) ?_ ?_ h
  · exact regularState_of_phase (by simp) (by simp)
  · exact fits_scanFrom .between (by simp) text

end Commented

end Json

end ErrorDocs
