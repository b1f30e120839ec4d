import ErrorDocs.Json.Record
import ErrorDocs.Proofs.Json.Lexing
import ErrorDocs.Proofs.Json.Printer
import Mathlib.Data.List.Forall2

/-!
# Written values are read back

A value is written with each part on a line of its own, and what is written spells the tokens of
the value. So it is read back, and from the settled value a record gets its fields by name, whatever
order they were written in.

* `Plain`: values whose numbers are natural numbers of 64 bits.
* `Plain.spells_prettyAt`, `Plain.spells_compact`: what is written spells the tokens of the value.
* `fields?_settled`: the fields of a record after its members were settled.
* `Carries`: a value holds a datum that a reader gets from it.
* **`Carries.parse?_pretty`**: the datum is read back from the text that is written.
-/

namespace ErrorDocs

theorem Number.render_natCast (n : Nat) : (Number.int n).render = Nat.toDigits 10 n := by
  rw [render, renderInt, if_neg (by omega)]
  rfl

namespace Json

/-! ## Numbers -/

theorem isSeparator_of_isDigit {c : Char} (h : c.isDigit = true) : isSeparator c = false := by
  have hne {d : Char} (hd : d.isDigit = false) : c ≠ d := by
    rintro rfl
    exact absurd (h.symm.trans hd) (by decide)
  simp [isSeparator, isSpace, punctuation?, hne]

theorem atomToken?_toDigits {n : Nat} (h : n < Nat.pow 2 64) :
    atomToken? (Nat.toDigits 10 n) = some (.number (Nat.toDigits 10 n) (some (.int n))) := by
  have hword {c : Char} (hc : c.isDigit = false) (w : List Char) : Nat.toDigits 10 n ≠ c :: w := by
    intro he
    have hdigit : c.isDigit = true := Numeral.isDigit_of_mem_toDigits (he ▸ List.mem_cons_self)
    exact absurd (hdigit.symm.trans hc) (by decide)
  rw [atomToken?, if_neg (hword (by decide) _), if_neg (hword (by decide) _),
    if_neg (hword (by decide) _), Numeral.value?_parse?_toDigits h]

theorem spells_toDigits {n : Nat} (h : n < Nat.pow 2 64) :
    Spells (Nat.toDigits 10 n) [.number (Nat.toDigits 10 n) (some (.int n))] := by
  refine .of_atomToken? Nat.toDigits_ne_nil (List.any_eq_false.mpr fun c hc => ?_)
    (atomToken?_toDigits h)
  exact Bool.eq_false_iff.mp (isSeparator_of_isDigit (Numeral.isDigit_of_mem_toDigits hc))

/-! ## Layout -/

/-- Values whose numbers are natural numbers of 64 bits. -/
inductive Plain : Json → Prop where
  | null : Plain .null
  | bool (b : Bool) : Plain (.bool b)
  | nat {n : Nat} (h : n < Nat.pow 2 64) : Plain (.ofNat n)
  | string (s : String) : Plain (.string s)
  | array {items : List Json} (h : ∀ v ∈ items, Plain v) : Plain (.array items)
  | object {members : List (String × Json)} (h : ∀ x ∈ members, Plain x.2) :
      Plain (.object members)

theorem Spells.lineStart_append {s : List Char} {ts : List Token} (h : Spells s ts) (level : Nat) :
    Spells (lineStart level ++ s) ts := by
  refine .space rfl ?_
  induction 2 * level with
  | zero => exact h
  | succ k ih => exact .space rfl ih

section Parts

variable {α : Type} {text : α → List Char} {spelled : α → List Token}

theorem spells_intercalate {x : α} {xs : List α} (h : ∀ y ∈ x :: xs, Spells (text y) (spelled y))
    {s : List Char} {ts : List Token} (hs : Spells s ts) (hbreak : Breaks s) :
    Spells (List.intercalate [','] ((x :: xs).map text) ++ s)
      (List.intercalate [.comma] ((x :: xs).map spelled) ++ ts) := by
  induction xs generalizing x with
  | nil =>
    rw [List.map_singleton, List.map_singleton, List.intercalate_singleton,
      List.intercalate_singleton]
    exact (h x List.mem_cons_self).append hs hbreak
  | cons y xs ih =>
    rw [List.forall_mem_cons] at h
    rw [List.map_cons, List.map_cons, List.map_cons, List.map_cons, List.intercalate_cons_cons,
      List.intercalate_cons_cons, List.append_assoc, List.append_assoc, List.append_assoc,
      List.append_assoc]
    exact h.1.append (.punctuation rfl (ih h.2)) (breaks_cons rfl _)

theorem spells_enclose {left right : Char} {opening closing : Token}
    (hleft : punctuation? left = some opening) (hright : punctuation? right = some closing)
    {xs : List α} (h : ∀ y ∈ xs, Spells (text y) (spelled y)) (level : Nat) :
    Spells (enclose level left right (xs.map text))
      (opening :: (List.intercalate [.comma] (xs.map spelled) ++ [closing])) := by
  have hend : Spells [right] [closing] := .punctuation hright .nil
  cases xs with
  | nil => exact .punctuation hleft hend
  | cons x xs =>
    refine .punctuation hleft ?_
    rw [List.map_map, List.append_assoc]
    exact spells_intercalate (fun y hy => (h y hy).lineStart_append _) (hend.lineStart_append _)
      (breaks_cons rfl _)

end Parts

theorem Plain.spells_prettyAt {v : Json} (h : v.Plain) (level : Nat) :
    Spells (prettyAt level v) (tokens v) := by
  induction h generalizing level with
  | null =>
    show Spells ['n', 'u', 'l', 'l'] [.null]
    exact .of_atomToken? (by decide) (by decide) rfl
  | bool b =>
    cases b with
    | true =>
      show Spells ['t', 'r', 'u', 'e'] [.boolean true]
      exact .of_atomToken? (by decide) (by decide) rfl
    | false =>
      show Spells ['f', 'a', 'l', 's', 'e'] [.boolean false]
      exact .of_atomToken? (by decide) (by decide) rfl
  | @nat n h =>
    rw [ofNat, prettyAt, scalarText, tokens, Number.render_natCast]
    exact spells_toDigits h
  | string s =>
    rw [prettyAt, scalarText, tokens]
    exact .of_quote _
  | array h ih =>
    rw [prettyAt, prettyItems_eq_map, tokens, itemTokens_eq_map]
    exact spells_enclose rfl rfl (fun v hv => ih v hv (level + 1)) level
  | object h ih =>
    rw [prettyAt, prettyMembers_eq_map, tokens, memberTokens_eq_map]
    refine spells_enclose rfl rfl (fun x hx => ?_) level
    exact .quoted _ (.punctuation rfl (.space rfl (ih x hx (level + 1))))

theorem compactItems_eq_map (items : List Json) : compactItems items = items.map compact := by
  induction items with
  | nil => rw [compactItems, List.map_nil]
  | cons v items ih => rw [compactItems, ih, List.map_cons]

theorem compactMembers_eq_map (members : List (String × Json)) :
    compactMembers members = members.map fun x => quote x.1.toList ++ ':' :: compact x.2 := by
  induction members with
  | nil => rw [compactMembers, List.map_nil]
  | cons x members ih => rw [compactMembers, ih, List.map_cons]

/-- A value without parts is written the same in both layouts. -/
theorem compact_eq_prettyAt_of_scalar {v : Json} (harray : ∀ items, v ≠ .array items)
    (hobject : ∀ members, v ≠ .object members) (level : Nat) : compact v = prettyAt level v := by
  cases v with
  | array items => exact absurd rfl (harray items)
  | object members => exact absurd rfl (hobject members)
  | _ => rw [compact, prettyAt]

theorem spells_between {α : Type} {text : α → List Char} {spelled : α → List Token}
    {left right : Char} {opening closing : Token} (hleft : punctuation? left = some opening)
    (hright : punctuation? right = some closing) {xs : List α}
    (h : ∀ y ∈ xs, Spells (text y) (spelled y)) :
    Spells (left :: (List.intercalate [','] (xs.map text) ++ [right]))
      (opening :: (List.intercalate [.comma] (xs.map spelled) ++ [closing])) := by
  have hend : Spells [right] [closing] := .punctuation hright .nil
  refine .punctuation hleft ?_
  cases xs with
  | nil => exact hend
  | cons x xs =>
    refine spells_intercalate h hend (breaks_cons ?_ _)
    rw [isSeparator, hright, Option.isSome_some, Bool.or_true]

theorem Plain.spells_compact {v : Json} (h : v.Plain) : Spells (compact v) (tokens v) := by
  induction h with
  | null =>
    rw [compact_eq_prettyAt_of_scalar (by simp) (by simp) 0]
    exact Plain.null.spells_prettyAt 0
  | bool b =>
    rw [compact_eq_prettyAt_of_scalar (by simp) (by simp) 0]
    exact (Plain.bool b).spells_prettyAt 0
  | nat h =>
    rw [compact_eq_prettyAt_of_scalar (by simp [ofNat]) (by simp [ofNat]) 0]
    exact (Plain.nat h).spells_prettyAt 0
  | string s =>
    rw [compact_eq_prettyAt_of_scalar (by simp) (by simp) 0]
    exact (Plain.string s).spells_prettyAt 0
  | array h ih =>
    rw [compact, compactItems_eq_map, tokens, itemTokens_eq_map]
    exact spells_between rfl rfl ih
  | object h ih =>
    rw [compact, compactMembers_eq_map, tokens, memberTokens_eq_map]
    refine spells_between rfl rfl fun x hx => ?_
    exact .quoted _ (.punctuation rfl (ih x hx))

/-! ## Settled members -/

theorem member?_cons (k name : String) (v : Json) (members : List (String × Json)) :
    member? k ((name, v) :: members) = if k = name then some v else member? k members := by
  unfold member?
  split_ifs with h
  · rw [List.find?_cons_of_pos (by simp [h]), Option.map_some]
  · rw [List.find?_cons_of_neg (by simpa using Ne.symm h)]

theorem member?_insertMember (k name : String) (v : Json) (members : List (String × Json)) :
    member? k (insertMember name v members) = if k = name then some v else member? k members := by
  fun_induction insertMember name v members with
  | case1 => exact member?_cons k name v []
  | case2 w rest =>
    rw [member?_cons, member?_cons]
    split_ifs <;> rfl
  | case3 n w rest hne hlt => exact member?_cons k name v _
  | case4 n w rest hne hlt ih =>
    rw [member?_cons, member?_cons, ih]
    split_ifs with hn hname
    · exact absurd (hname.symm.trans hn) hne
    · rfl
    · rfl
    · rfl

theorem member?_insertMembers_of_not_mem {k : String} {new : List (String × Json)}
    (h : k ∉ new.map (·.1)) (done : List (String × Json)) :
    member? k (insertMembers done new) = member? k done := by
  induction new generalizing done with
  | nil => rfl
  | cons x new ih =>
    rw [List.map_cons, List.mem_cons, not_or] at h
    rw [insertMembers, List.foldl_cons, ← insertMembers, ih h.2, member?_insertMember, if_neg h.1]

theorem member?_insertMembers {new : List (String × Json)} (h : (new.map (·.1)).Nodup)
    {x : String × Json} (hx : x ∈ new) (done : List (String × Json)) :
    member? x.1 (insertMembers done new) = some x.2 := by
  induction new generalizing done with
  | nil => cases hx
  | cons y new ih =>
    rw [List.map_cons, List.nodup_cons] at h
    rw [insertMembers, List.foldl_cons, ← insertMembers]
    rcases List.mem_cons.mp hx with rfl | hx
    · rw [member?_insertMembers_of_not_mem h.1, member?_insertMember, if_pos rfl]
    · exact ih h.2 hx _

/-! ## Records and lists -/

theorem mapM_eq_some_of_forall₂ {α β : Type} {f : α → Option β} {xs : List α} {ys : List β}
    (h : List.Forall₂ (fun x y => f x = some y) xs ys) : xs.mapM f = some ys := by
  induction h with
  | nil => rfl
  | cons hfirst _ ih => simp [List.mapM_cons, hfirst, ih]

theorem exists_mapM_eq_some {α β : Type} {f : α → Option β} {r : β → α → Prop} {xs : List α}
    (h : ∀ x ∈ xs, ∃ y, f x = some y ∧ r y x) :
    ∃ ys, xs.mapM f = some ys ∧ List.Forall₂ r ys xs := by
  induction xs with
  | nil => exact ⟨[], rfl, .nil⟩
  | cons x xs ih =>
    rw [List.forall_mem_cons] at h
    obtain ⟨⟨y, hy, hr⟩, hrest⟩ := h
    obtain ⟨ys, hys, hrs⟩ := ih hrest
    exact ⟨y :: ys, by simp [List.mapM_cons, hy, hys], .cons hr hrs⟩

theorem mapM_eq_none_iff {α β : Type} {f : α → Option β} {xs : List α} :
    xs.mapM f = none ↔ ∃ x ∈ xs, f x = none := by
  induction xs with
  | nil => simp
  | cons x xs ih =>
    rw [List.exists_mem_cons_iff, ← ih, List.mapM_cons]
    cases f x <;> cases xs.mapM f <;> simp

theorem map_fst_map_settled (members : List (String × Json)) :
    (members.map fun x => (x.1, x.2.settled)).map (·.1) = members.map (·.1) := by
  rw [List.map_map]
  rfl

/-- The fields of a record are found by their names, whatever order these have. -/
theorem fields?_settled {names : List String} (hnodup : names.Nodup)
    {members : List (String × Json)} (hnames : members.map (·.1) = names) :
    fields? names (settled (.object members)) = some (members.map (·.2.settled)) := by
  subst hnames
  rw [settled, settledMembers_eq_map, fields?]
  refine mapM_eq_some_of_forall₂ ?_
  rw [List.forall₂_map_left_iff, List.forall₂_map_right_iff, List.forall₂_same]
  intro x hx
  exact member?_insertMembers ((map_fst_map_settled members).symm ▸ hnodup)
    (List.mem_map_of_mem hx) []

/-! ## Data in values -/

/-- A value holds a datum that a reader gets from it. -/
structure Carries {α : Type} (read : Json → Option α) (v : Json) (x : α) : Prop where
  plain : v.Plain
  read_settled : read v.settled = some x

namespace Carries

variable {α : Type} {read : Json → Option α} {v : Json} {x : α}

theorem nat {n : Nat} (h : n < Nat.pow 2 64) : Carries asNat? (.ofNat n) n where
  plain := .nat h
  read_settled := by
    have hrange : (0 : Int) ≤ n ∧ (n : Int) < Nat.pow 2 64 :=
      ⟨Int.natCast_nonneg n, Int.ofNat_lt.mpr h⟩
    rw [ofNat, settled, asNat?, if_pos hrange, Int.toNat_natCast]

theorem array {vs : List Json} {xs : List α} (h : List.Forall₂ (Carries read) vs xs) :
    Carries (listOf? read) (.array vs) xs where
  plain := by
    refine .array fun v hv => ?_
    induction h with
    | nil => cases hv
    | cons hfirst _ ih =>
      rcases List.mem_cons.mp hv with rfl | hv
      · exact hfirst.plain
      · exact ih hv
  read_settled := by
    rw [settled, settledItems_eq_map, listOf?]
    refine mapM_eq_some_of_forall₂ (List.forall₂_map_left_iff.mpr ?_)
    exact h.imp fun v x hv => hv.read_settled

theorem array_map {write : α → Json} (h : ∀ x, Carries read (write x) x) (xs : List α) :
    Carries (listOf? read) (.array (xs.map write)) xs :=
  array (List.forall₂_map_left_iff.mpr (List.forall₂_same.mpr fun x _ => h x))

/-- **A datum is read back from the text that its value is written as.** Blanks may follow. -/
theorem parse?_pretty (h : Carries read v x) {s : List Char} (hs : ∀ c ∈ s, isSpace c = true) :
    (parse? (pretty v ++ s)).bind read = some x := by
  have hspaces : Spells s [] := by
    induction s with
    | nil => exact .nil
    | cons c s ih =>
      rw [List.forall_mem_cons] at hs
      exact .space hs.1 (ih hs.2)
  have hbreak : Breaks s := fun c hc => by
    simp [isSeparator, hs c (List.mem_of_mem_head? hc)]
  have hspelled := (h.plain.spells_prettyAt 0).append hspaces hbreak
  rw [List.append_nil] at hspelled
  rw [pretty, hspelled.parse?_eq, Option.bind_some, h.read_settled]

end Carries

end Json

end ErrorDocs
