import ErrorDocs.Proofs.Json.Commented.Annotation

/-!
# Reading an annotated text

The reader keeps places for its messages only. Between the end of a value and the end of the
container it is in, a comma leads to a state that takes the end of the container in the same way.
So an annotated text has the value of the text it is made from.

* `AlikeStack`, `Alike`: states that differ in places only.
* `Alike.readStep`, `exists_readStep_comma`: one token, and a comma before it.
* `readFrom_of_loosens`: all tokens that are left.
* **`read_of_annotates`**: the value of an annotated text.
-/

namespace ErrorDocs.Json.Commented

/-! ## Places -/

/-- The same containers, opened at other places. -/
inductive AlikeStack : List Frame → List Frame → Prop where
  | nil : AlikeStack [] []
  | items (start start' : Nat) (done : List Json) {stack stack' : List Frame}
      (h : AlikeStack stack stack') :
      AlikeStack (.items start done :: stack) (.items start' done :: stack')
  | members (start start' : Nat) (done : List (String × Json)) {stack stack' : List Frame}
      (h : AlikeStack stack stack') :
      AlikeStack (.members start done :: stack) (.members start' done :: stack')
  | member (start start' : Nat) (done : List (String × Json)) (name : String)
      {stack stack' : List Frame} (h : AlikeStack stack stack') :
      AlikeStack (.member start done name :: stack) (.member start' done name :: stack')

/-- States that differ in places only. -/
structure Alike (s s' : State) : Prop where
  stack : AlikeStack s.stack s'.stack
  phase : s.phase = s'.phase

variable {p p' q : Nat} {t : Token} {stack stack' : List Frame} {s s' u : State}

theorem alike_deliver (v : Json) (h : AlikeStack stack stack') :
    Alike (deliver v stack) (deliver v stack') := by
  cases h with
  | nil => exact ⟨.nil, rfl⟩
  | items start start' done h => exact ⟨.items start start' (v :: done) h, rfl⟩
  | members start start' done h => exact ⟨.members start start' done h, rfl⟩
  | member start start' done name h =>
    exact ⟨.members start start' (insertMember name v done) h, rfl⟩

/-- The second run takes its token, and the states after it are alike. -/
def TakesAlike (u : State) (step : Except Trouble State) : Prop :=
  ∃ u', step = .ok u' ∧ Alike u u'

theorem alike_beginValue (h : AlikeStack stack stack') (hstep : beginValue stack ⟨p, t⟩ = .ok u) :
    TakesAlike u (beginValue stack' ⟨p', t⟩) := by
  have hscalar {v : Json} (hv : .ok (deliver v stack) = (.ok u : Except Trouble State)) :
      TakesAlike u (.ok (deliver v stack')) :=
    ⟨_, rfl, Except.ok.inj hv ▸ alike_deliver v h⟩
  cases t with
  | openBracket =>
    obtain rfl := Except.ok.inj hstep
    exact ⟨_, rfl, .items p p' [] h, rfl⟩
  | openBrace =>
    obtain rfl := Except.ok.inj hstep
    exact ⟨_, rfl, .members p p' [] h, rfl⟩
  | string _ => exact hscalar hstep
  | number _ _ => exact hscalar hstep
  | boolean _ => exact hscalar hstep
  | null => exact hscalar hstep
  | _ => cases hstep

theorem alike_takeItem (h : AlikeStack stack stack') (hstep : takeItem stack ⟨p, t⟩ = .ok u) :
    TakesAlike u (takeItem stack' ⟨p', t⟩) := by
  by_cases ht : t = .closeBracket
  · subst ht
    cases h with
    | items start start' done h =>
      obtain rfl := Except.ok.inj hstep
      exact ⟨_, rfl, alike_deliver _ h⟩
    | _ => cases hstep
  · have hbegin (stack : List Frame) (p : Nat) :
        takeItem stack ⟨p, t⟩ = beginValue stack ⟨p, t⟩ := by
      unfold takeItem
      split
      · exact (ht ‹_›).elim
      · rfl
    rw [hbegin] at hstep ⊢
    exact alike_beginValue h hstep

theorem alike_takeName (h : AlikeStack stack stack') (hstep : takeName stack ⟨p, t⟩ = .ok u) :
    TakesAlike u (takeName stack' ⟨p', t⟩) := by
  have hmember {start start' : Nat} {done : List (String × Json)} {name : String}
      {stack stack' : List Frame} (h : AlikeStack stack stack')
      (hu : .ok ⟨.member start done name :: stack, .colon⟩ = (.ok u : Except Trouble State)) :
      TakesAlike u (.ok ⟨.member start' done name :: stack', .colon⟩) :=
    ⟨_, rfl, Except.ok.inj hu ▸ ⟨.member start start' done name h, rfl⟩⟩
  cases h with
  | members start start' done h =>
    cases t with
    | closeBrace =>
      obtain rfl := Except.ok.inj hstep
      exact ⟨_, rfl, alike_deliver _ h⟩
    | string _ => exact hmember h hstep
    | number _ _ => exact hmember h hstep
    | word _ => exact hmember h hstep
    | _ => cases hstep
  | _ => cases hstep

/-- **Places do not matter to a step.** -/
theorem Alike.readStep (h : Alike s s') (hstep : readStep s ⟨p, t⟩ = .ok u) (p' : Nat) :
    TakesAlike u (readStep s' ⟨p', t⟩) := by
  obtain ⟨stack, phase⟩ := s
  obtain ⟨stack', phase'⟩ := s'
  obtain ⟨hstack, rfl⟩ := h
  cases phase with
  | start => exact alike_beginValue hstack hstep
  | item => exact alike_takeItem hstack hstep
  | afterItem =>
    unfold Commented.readStep at hstep ⊢
    dsimp only at hstep ⊢
    split_ifs at hstep ⊢ with ht
    · obtain rfl := Except.ok.inj hstep
      exact ⟨_, rfl, hstack, rfl⟩
    · exact alike_takeItem hstack hstep
  | name => exact alike_takeName hstack hstep
  | afterMember =>
    unfold Commented.readStep at hstep ⊢
    dsimp only at hstep ⊢
    split_ifs at hstep ⊢ with ht
    · obtain rfl := Except.ok.inj hstep
      exact ⟨_, rfl, hstack, rfl⟩
    · exact alike_takeName hstack hstep
  | colon =>
    unfold Commented.readStep at hstep ⊢
    dsimp only at hstep ⊢
    split_ifs at hstep ⊢ with ht
    obtain rfl := Except.ok.inj hstep
    exact ⟨_, rfl, hstack, rfl⟩
  | value => exact alike_beginValue hstack hstep
  | finished v => cases hstep

/-! ## Commas -/

/-- The phases after a value or a name. -/
def Phase.IsAfterValue : Phase → Prop
  | afterItem => True
  | afterMember => True
  | colon => True
  | finished _ => True
  | _ => False

theorem endsValue_of_closes (ht : closes t = true) : endsValue t = true := by
  cases t with
  | closeBrace => rfl
  | closeBracket => rfl
  | _ => cases ht

theorem ne_of_endsValue (ht : endsValue t = true) : t ≠ .comma ∧ t ≠ .colon := by
  constructor <;> rintro rfl <;> cases ht

theorem isAfterValue_deliver (v : Json) (stack : List Frame) :
    (deliver v stack).phase.IsAfterValue := by
  unfold deliver
  split <;> trivial

theorem isAfterValue_of_beginValue (ht : endsValue t = true)
    (hstep : beginValue stack ⟨p, t⟩ = .ok u) : u.phase.IsAfterValue := by
  have hscalar {v : Json} (hv : .ok (deliver v stack) = (.ok u : Except Trouble State)) :
      u.phase.IsAfterValue :=
    Except.ok.inj hv ▸ isAfterValue_deliver v stack
  cases t with
  | string _ => exact hscalar hstep
  | number _ _ => exact hscalar hstep
  | boolean _ => exact hscalar hstep
  | null => exact hscalar hstep
  | closeBrace => cases hstep
  | closeBracket => cases hstep
  | _ => cases ht

theorem isAfterValue_of_takeItem (ht : endsValue t = true)
    (hstep : takeItem stack ⟨p, t⟩ = .ok u) : u.phase.IsAfterValue := by
  unfold takeItem at hstep
  split at hstep
  · exact Except.ok.inj hstep ▸ isAfterValue_deliver _ _
  · exact isAfterValue_of_beginValue ht hstep

theorem isAfterValue_of_takeName (hstep : takeName stack ⟨p, t⟩ = .ok u) :
    u.phase.IsAfterValue := by
  unfold takeName at hstep
  split at hstep
  · exact Except.ok.inj hstep ▸ isAfterValue_deliver _ _
  · exact Except.ok.inj hstep ▸ trivial
  · cases hstep

/-- A token that ends a value or a name is the last of it. -/
theorem isAfterValue_of_readStep (ht : endsValue t = true)
    (hstep : readStep s ⟨p, t⟩ = .ok u) : u.phase.IsAfterValue := by
  obtain ⟨hcomma, hcolon⟩ := ne_of_endsValue ht
  unfold readStep at hstep
  split at hstep
  · exact isAfterValue_of_beginValue ht hstep
  · exact isAfterValue_of_takeItem ht hstep
  · exact isAfterValue_of_takeItem ht ((if_neg hcomma).symm.trans hstep)
  · exact isAfterValue_of_takeName hstep
  · exact isAfterValue_of_takeName ((if_neg hcomma).symm.trans hstep)
  · cases (if_neg hcolon).symm.trans hstep
  · exact isAfterValue_of_beginValue ht hstep
  · cases hstep

/-- **After a value, a comma makes no difference to the end of the container.** -/
theorem exists_readStep_comma (hs : s.phase.IsAfterValue) (ht : closes t = true)
    (hstep : readStep s ⟨p, t⟩ = .ok u) (q : Nat) :
    ∃ s₁, readStep s ⟨q, .comma⟩ = .ok s₁ ∧ readStep s₁ ⟨p, t⟩ = .ok u := by
  obtain ⟨hcomma, hcolon⟩ := ne_of_endsValue (endsValue_of_closes ht)
  obtain ⟨stack, phase⟩ := s
  cases phase with
  | afterItem => exact ⟨⟨stack, .item⟩, rfl, (if_neg hcomma).symm.trans hstep⟩
  | afterMember => exact ⟨⟨stack, .name⟩, rfl, (if_neg hcomma).symm.trans hstep⟩
  | colon => cases (if_neg hcolon).symm.trans hstep
  | finished v => cases hstep
  | _ => exact hs.elim

/-! ## Texts -/

variable {length : Nat} {trouble : Option Trouble} {ts ts' : List Located} {v : Option Json}

theorem readFrom_cons_eq_ok_iff {t : Located} :
    readFrom length trouble s (t :: ts) = .ok v ↔
      ∃ u, readStep s t = .ok u ∧ readFrom length trouble u ts = .ok v := by
  rw [readFrom]
  split
  · rename_i u hstep
    simp [hstep]
  · rename_i hstep
    simp [hstep]

/-- A text with trouble has no value. -/
theorem trouble_eq_none_of_readFrom (h : readFrom length trouble s ts = .ok v) :
    trouble = none := by
  induction ts generalizing s with
  | nil =>
    cases trouble with
    | none => rfl
    | some t => cases h
  | cons t ts ih =>
    obtain ⟨u, -, hread⟩ := readFrom_cons_eq_ok_iff.mp h
    exact ih hread

theorem Alike.readEnd (h : Alike s s') (hread : readEnd length s = .ok v) (length' : Nat) :
    readEnd length' s' = .ok v := by
  obtain ⟨stack, phase⟩ := s
  obtain ⟨stack', phase'⟩ := s'
  obtain ⟨-, rfl⟩ := h
  cases phase with
  | start => exact hread
  | finished w => exact hread
  | _ => cases hread

/-- What the tokens that are left lead to, the same tokens with commas lead to. -/
theorem readFrom_of_loosens {after : Bool} (hts : Loosens after ts ts') (h : Alike s s')
    (hafter : after = true → s.phase.IsAfterValue) (hread : readFrom length none s ts = .ok v)
    (length' : Nat) : readFrom length' none s' ts' = .ok v := by
  induction hts generalizing s s' with
  | nil after => exact h.readEnd hread length'
  | cons after p p' _ ih =>
    obtain ⟨u, hu, hrest⟩ := readFrom_cons_eq_ok_iff.mp hread
    obtain ⟨u', hu', halike⟩ := h.readStep hu p'
    refine readFrom_cons_eq_ok_iff.mpr ⟨u', hu', ?_⟩
    exact ih halike (fun ht => isAfterValue_of_readStep ht hu) hrest
  | comma p p' q ht _ ih =>
    obtain ⟨u, hu, hrest⟩ := readFrom_cons_eq_ok_iff.mp hread
    obtain ⟨u', hu', halike⟩ := h.readStep hu p'
    obtain ⟨s₁, hcomma, hclose⟩ := exists_readStep_comma (h.phase ▸ hafter rfl) ht hu' q
    refine readFrom_cons_eq_ok_iff.mpr ⟨s₁, hcomma, ?_⟩
    refine readFrom_cons_eq_ok_iff.mpr ⟨u', hclose, ?_⟩
    exact ih halike (fun ht => isAfterValue_of_readStep ht hu) hrest

/-- **An annotated text has the value of the text.** -/
theorem read_of_annotates {text text' : List Char} (h : Annotates .text text text')
    (hread : read text = .ok v) : read text' = .ok v := by
  have htrouble : (scan text).trouble = none := trouble_eq_none_of_readFrom hread
  obtain ⟨htrouble', hloosens⟩ := loosens_of_annotates h htrouble
  rw [read, htrouble] at hread
  rw [read, htrouble']
  exact readFrom_of_loosens hloosens ⟨.nil, rfl⟩ (fun ht => absurd ht Bool.false_ne_true) hread _

end ErrorDocs.Json.Commented
