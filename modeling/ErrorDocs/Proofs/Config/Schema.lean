import ErrorDocs.Config.Schema
import Mathlib.Data.List.Basic
import Mathlib.Data.List.Forall2

/-!
# What schemas ask for

A schema is passed by the values that have a certain property, and by no others. The property is
said without the check: which kind of value it is, and what its parts are.

* `Json.IsText`, `Json.IsTexts`, `Json.IsTruth`, `Json.IsNatural`, `Json.IsRecord`: the properties.
* `Schema.Means`: the values that pass a schema are those with a property.
* `means_string`, `means_boolean`, `means_natural`, `means_texts`, **`means_object`**: the schemas.
-/

namespace ErrorDocs

/-! ## Floating point numbers that are natural -/

/-- A floating point number is the same as a natural number. -/
def Binary64.IsNatural (x : Binary64) : Prop :=
  ∃ n : Nat, x.magnitude.ratio.1 = n * x.magnitude.ratio.2 ∧ (x.negative = true → n = 0)

theorem Magnitude.ratio_pos (m : Magnitude) : 0 < m.ratio.2 := by
  unfold ratio
  split_ifs
  · exact Nat.pow_pos (by decide)
  · exact Nat.one_pos

theorem Magnitude.ratio_eq_zero_iff (m : Magnitude) : m.ratio.1 = 0 ↔ m.significand = 0 := by
  unfold ratio
  split_ifs
  · rfl
  · have hpow : Nat.pow 2 m.exponent.toNat ≠ 0 := Nat.ne_of_gt (Nat.pow_pos (by decide))
    exact Nat.mul_eq_zero.trans (or_iff_left hpow)

/-- Being natural is being whole and not below zero. -/
theorem Binary64.isNatural_iff (x : Binary64) :
    x.IsNatural ↔ x.isWhole = true ∧ x.isBelowZero = false := by
  have hpos := x.magnitude.ratio_pos
  have hzero := x.magnitude.ratio_eq_zero_iff
  have hwhole : x.isWhole = true ↔ ∃ n, x.magnitude.ratio.1 = n * x.magnitude.ratio.2 := by
    rw [isWhole, Magnitude.isWhole, beq_iff_eq, ← Nat.dvd_iff_mod_eq_zero]
    exact exists_congr fun n => by rw [Nat.mul_comm]
  have hbelow : x.isBelowZero = false ↔ (x.negative = true → x.magnitude.significand = 0) := by
    cases hneg : x.negative <;> simp [isBelowZero, hneg]
  rw [hwhole, hbelow, ← hzero]
  constructor
  · rintro ⟨n, hn, hsign⟩
    exact ⟨⟨n, hn⟩, fun hneg => by rw [hn, hsign hneg, Nat.zero_mul]⟩
  · rintro ⟨⟨n, hn⟩, hsign⟩
    refine ⟨n, hn, fun hneg => ?_⟩
    have hmul := hn.symm.trans (hsign hneg)
    exact (Nat.mul_eq_zero.mp hmul).resolve_right (Nat.ne_of_gt hpos)

namespace Json

/-! ## Properties of values -/

/-- A text. -/
def IsText (v : Json) : Prop := ∃ s, v = .string s

/-- A list of texts. -/
def IsTexts (v : Json) : Prop := ∃ ss, v = .ofStrings ss

/-- A truth value. -/
def IsTruth (v : Json) : Prop := ∃ b, v = .bool b

/-- A natural number that is held as a floating point number. -/
def IsNaturalFloat (v : Json) : Prop := ∃ x : Binary64, v = .number (.float x) ∧ x.IsNatural

/-- A natural number, held as an integer or as a floating point number. -/
def IsNatural (v : Json) : Prop := (∃ n : Nat, v = .ofNat n) ∨ v.IsNaturalFloat

/-- An object each member of which has a listed name and the property that is listed with it. -/
def IsRecord (fields : List (String × (Json → Prop))) (v : Json) : Prop :=
  ∃ members, v = .object members ∧ ∀ x ∈ members, ∃ p, (x.1, p) ∈ fields ∧ p x.2

theorem exists_eq_map_string {items : List Json} (h : ∀ v ∈ items, IsText v) :
    ∃ ss : List String, items = ss.map .string := by
  induction items with
  | nil => exact ⟨[], rfl⟩
  | cons v items ih =>
    rw [List.forall_mem_cons] at h
    obtain ⟨s, rfl⟩ := h.1
    obtain ⟨ss, rfl⟩ := ih h.2
    exact ⟨s :: ss, rfl⟩

end Json

namespace Schema

open Json (IsText IsTexts IsTruth IsNaturalFloat IsRecord)

/-- The values that pass a schema are those that have a property. -/
def Means (s : Schema) (p : Json → Prop) : Prop :=
  ∀ v, s.check v = none ↔ p v

theorem means_string : Means .string IsText := by
  intro v
  cases v <;> simp [check, checkScalar, here, IsText]

theorem means_boolean : Means .boolean IsTruth := by
  intro v
  cases v <;> simp [check, checkScalar, here, IsTruth]

theorem checkNumber_eq_none_iff (n : Number) :
    checkNumber n = none ↔ Json.IsNatural (.number n) := by
  cases n with
  | int i =>
    have hint : Json.IsNatural (.number (.int i)) ↔ ∃ n : Nat, i = n := by
      simp [Json.IsNatural, IsNaturalFloat, Json.ofNat]
    rw [hint, checkNumber]
    constructor
    · intro h
      split_ifs at h with hneg
      · cases h
      · exact ⟨i.toNat, by omega⟩
    · rintro ⟨n, rfl⟩
      exact if_neg (by omega)
  | float x =>
    have hfloat : Json.IsNatural (.number (.float x)) ↔ x.IsNatural := by
      simp [Json.IsNatural, IsNaturalFloat, Json.ofNat]
    rw [hfloat, x.isNatural_iff, checkNumber]
    cases x.isWhole <;> cases x.isBelowZero <;> simp [here]

theorem means_natural : Means .natural Json.IsNatural := by
  intro v
  cases v with
  | number n => exact checkNumber_eq_none_iff n
  | _ => simp [check, checkScalar, here, Json.IsNatural, IsNaturalFloat, Json.ofNat]

/-! ## Containers -/

theorem checkItems_eq_none_iff (s : Schema) (place : Nat) (items : List Json) :
    checkItems s place items = none ↔ ∀ v ∈ items, s.check v = none := by
  induction items generalizing place with
  | nil => simp [checkItems]
  | cons v items ih =>
    rw [checkItems, List.forall_mem_cons, ← ih (place + 1)]
    cases s.check v <;> simp

theorem means_texts : Means (.array .string) IsTexts := by
  intro v
  cases v with
  | array items =>
    rw [check, checkItems_eq_none_iff]
    constructor
    · intro h
      obtain ⟨ss, rfl⟩ := Json.exists_eq_map_string fun v hv => (means_string v).mp (h v hv)
      exact ⟨ss, rfl⟩
    · rintro ⟨ss, hss⟩
      obtain rfl := Json.array.inj hss
      exact List.forall_mem_map.mpr fun s _ => (means_string _).mpr ⟨s, rfl⟩
  | _ => simp [check, checkScalar, here, IsTexts, Json.ofStrings]

theorem checkMembers_eq_none_iff (properties : List (String × Schema))
    (members : List (String × Json)) :
    checkMembers properties members = none ↔
      ∀ x ∈ members, ∃ s, property? x.1 properties = some s ∧ s.check x.2 = none := by
  induction members with
  | nil => simp [checkMembers]
  | cons x members ih =>
    rw [checkMembers, List.forall_mem_cons, ← ih]
    cases property? x.1 properties with
    | none => simp [here]
    | some s => cases hv : s.check x.2 <;> simp [hv]

theorem property?_cons (name : String) (x : String × Schema) (properties : List (String × Schema)) :
    property? name (x :: properties) =
      if x.1 = name then some x.2 else property? name properties := by
  unfold property?
  split_ifs with h
  · rw [List.find?_cons_of_pos (by simpa using h), Option.map_some]
  · rw [List.find?_cons_of_neg (by simpa using h)]

/-- A member passes the schema of its name just if it has the property of its name. -/
theorem exists_property?_iff {properties : List (String × Schema)}
    {fields : List (String × (Json → Prop))} (hnodup : (properties.map (·.1)).Nodup)
    (h : List.Forall₂ (fun a b => a.1 = b.1 ∧ a.2.Means b.2) properties fields) (name : String)
    (v : Json) : (∃ s, property? name properties = some s ∧ s.check v = none) ↔
      ∃ p, (name, p) ∈ fields ∧ p v := by
  induction h with
  | nil => simp [property?]
  | @cons a b properties fields hab hrest ih =>
    obtain ⟨hname, hmeans⟩ := hab
    rw [List.map_cons, List.nodup_cons] at hnodup
    have hfields : fields.map (·.1) = properties.map (·.1) := by
      clear ih hnodup
      induction hrest with
      | nil => rfl
      | cons hcd _ ih => rw [List.map_cons, List.map_cons, ih, hcd.1]
    rw [property?_cons]
    split_ifs with hfirst
    · subst hfirst
      -- no other field has this name
      have hother : ∀ p, (a.1, p) ∉ fields := fun p hp =>
        hnodup.1 (hfields ▸ List.mem_map_of_mem (f := (·.1)) hp)
      constructor
      · rintro ⟨_, ⟨⟩, hv⟩
        exact ⟨b.2, hname ▸ List.mem_cons_self, (hmeans v).mp hv⟩
      · rintro ⟨p, hp, hv⟩
        rcases List.mem_cons.mp hp with hp | hp
        · obtain rfl : p = b.2 := congrArg Prod.snd hp
          exact ⟨a.2, rfl, (hmeans v).mpr hv⟩
        · exact absurd hp (hother p)
    · rw [ih hnodup.2]
      refine exists_congr fun p => and_congr_left fun _ => ?_
      rw [List.mem_cons, or_iff_right]
      intro hp
      exact hfirst (hname.trans (congrArg Prod.fst hp).symm)

/-- **The values that pass the schema of an object** are the records of what its members mean. -/
theorem means_object {properties : List (String × Schema)}
    {fields : List (String × (Json → Prop))} (hnodup : (properties.map (·.1)).Nodup)
    (h : List.Forall₂ (fun a b => a.1 = b.1 ∧ a.2.Means b.2) properties fields) :
    Means (.object properties) (IsRecord fields) := by
  intro v
  cases v with
  | object members =>
    simp only [check, checkMembers_eq_none_iff, exists_property?_iff hnodup h]
    constructor
    · exact fun hmembers => ⟨members, rfl, hmembers⟩
    · rintro ⟨members', hmembers', hfields⟩
      obtain rfl := Json.object.inj hmembers'
      exact hfields
  | _ => simp [check, checkScalar, here, IsRecord]

end Schema

end ErrorDocs
