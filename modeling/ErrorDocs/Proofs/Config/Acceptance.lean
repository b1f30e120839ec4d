import ErrorDocs.Config.Basic
import ErrorDocs.Proofs.Config.Schema
import ErrorDocs.Proofs.Json.Commented.Lexing
import ErrorDocs.Proofs.Json.Commented.Regular
import ErrorDocs.Proofs.Json.RoundTrip

/-!
# Which texts are configurations

Two checks decide whether a value is a configuration, one by the schema and one when the sizes are
taken from it. Together they accept the objects that `IsConfig` describes, and such an object says
what `Describes` says: each field has the value that is written, or its default.

* `IsConfig`, `Describes`: what is accepted, and what it means.
* `means_schema`: the values that pass the schema.
* `ofJson_cases`: what comes of a value.
* **`ofText_accepts_exactly`**: the texts that are configurations, and why others are none.
-/

namespace ErrorDocs

namespace Json

/-! ## Members -/

theorem mem_of_member? {name : String} {members : List (String × Json)} {w : Json}
    (h : member? name members = some w) : (name, w) ∈ members := by
  obtain ⟨x, hx, rfl⟩ := Option.map_eq_some_iff.mp h
  have hname : x.1 = name := by simpa using List.find?_some hx
  exact hname ▸ List.mem_of_find?_eq_some hx

theorem member?_of_mem {members : List (String × Json)} (h : members.Pairwise (·.1 < ·.1))
    {x : String × Json} (hx : x ∈ members) : member? x.1 members = some x.2 := by
  induction members with
  | nil => cases hx
  | cons y members ih =>
    rw [List.pairwise_cons] at h
    rw [member?_cons]
    rcases List.mem_cons.mp hx with rfl | hx
    · rw [if_pos rfl]
    · rw [if_neg, ih h.2 hx]
      intro hname
      exact String.lt_irrefl y.1 (hname ▸ h.1 x hx)

theorem IsRegular.get? {v w : Json} {name : String} (h : v.IsRegular)
    (hw : v.get? name = some w) : w.IsRegular := by
  cases h with
  | object sorted h => exact h _ (mem_of_member? hw)
  | _ => cases hw

section Record

variable {fields fields' : List (String × (Json → Prop))} {v : Json}

theorem IsRecord.of_get? (h : IsRecord fields v) {name : String} {w : Json}
    (hw : v.get? name = some w) : ∃ p, (name, p) ∈ fields ∧ p w := by
  obtain ⟨members, rfl, hmembers⟩ := h
  exact hmembers _ (mem_of_member? hw)

/-- What is known of the member of a name, if the name is listed once. -/
theorem IsRecord.field (h : IsRecord fields v) {name : String} {p : Json → Prop}
    (hp : ∀ q, (name, q) ∈ fields → q = p) {w : Json} (hw : v.get? name = some w) : p w := by
  obtain ⟨q, hq, hw⟩ := h.of_get? hw
  exact hp q hq ▸ hw

/-- A record of some fields is one of others, if its members are such members. -/
theorem IsRecord.imp (h : IsRecord fields v) (hv : v.IsRegular)
    (himp : ∀ name p w, (name, p) ∈ fields → v.get? name = some w → p w →
      ∃ q, (name, q) ∈ fields' ∧ q w) : IsRecord fields' v := by
  obtain ⟨members, rfl, hmembers⟩ := h
  cases hv with
  | object sorted _ =>
    refine ⟨members, rfl, fun x hx => ?_⟩
    obtain ⟨p, hp, hw⟩ := hmembers x hx
    exact himp x.1 p x.2 hp (member?_of_mem sorted hx) hw

end Record

/-! ## Sizes -/

/-- A natural number of 64 bits, held as an integer. -/
def IsSize (v : Json) : Prop := ∃ n < Nat.pow 2 64, v = .ofNat n

theorem IsSize.isNatural {v : Json} (h : v.IsSize) : v.IsNatural := by
  obtain ⟨n, -, rfl⟩ := h
  exact .inl ⟨n, rfl⟩

theorem IsNaturalFloat.not_isSize {v : Json} (h : v.IsNaturalFloat) : ¬ v.IsSize := by
  obtain ⟨x, rfl, -⟩ := h
  rintro ⟨n, -, hn⟩
  cases hn

/-- A natural number that has been read is a size, or it is held as a floating point number. -/
theorem IsNatural.isSize_or {v : Json} (h : v.IsNatural) (hv : v.IsRegular) :
    v.IsSize ∨ v.IsNaturalFloat := by
  rcases h with ⟨n, rfl⟩ | h
  · cases hv with
    | number hn => exact .inl ⟨n, Int.ofNat_lt.mp hn.2, rfl⟩
  · exact .inr h

theorem asNat?_ofNat {n : Nat} (h : n < Nat.pow 2 64) : (ofNat n).asNat? = some n :=
  (Carries.nat h).read_settled

end Json

/-- The message of an error starts with a text. -/
def ConfigError.Opens (e : ConfigError) (s : String) : Prop :=
  s.toList <+: e.message.toList

namespace Config

open Json (IsText IsTexts IsTruth IsNaturalFloat IsRecord IsSize)

/-! ## What is accepted -/

/-- The fields of what a configuration says about the project. -/
def projectFields : List (String × (Json → Prop)) :=
  [("projectName", IsText), ("description", IsText), ("version", IsText)]

/-- The fields of the directories. -/
def pathsFields : List (String × (Json → Prop)) :=
  [("scanDir", IsText), ("sourceOutputDir", IsText)]

/-- The fields of the options, with a property that is asked of the size. -/
def optionsFields (size : Json → Prop) : List (String × (Json → Prop)) :=
  [("ignoreDirs", IsTexts), ("whitelistExtensions", IsTexts), ("maxFileSize", size),
    ("parallel", IsTruth)]

/-- The fields of a configuration, with a property that is asked of the size. -/
def fields (size : Json → Prop) : List (String × (Json → Prop)) :=
  [("$schema", IsText), ("meta", IsRecord projectFields), ("paths", IsRecord pathsFields),
    ("options", IsRecord (optionsFields size))]

/-- A configuration, with a property that is asked of the size. -/
def IsConfig (size : Json → Prop) (v : Json) : Prop := IsRecord (fields size) v

/-- **The values that pass the schema.** -/
theorem means_schema : schema.Means (IsConfig Json.IsNatural) := by
  have hproject : Schema.Means (.object [("projectName", .string), ("description", .string),
      ("version", .string)]) (IsRecord projectFields) :=
    Schema.means_object (by decide)
      (.cons ⟨rfl, Schema.means_string⟩ (.cons ⟨rfl, Schema.means_string⟩
        (.cons ⟨rfl, Schema.means_string⟩ .nil)))
  have hpaths : Schema.Means (.object [("scanDir", .string), ("sourceOutputDir", .string)])
      (IsRecord pathsFields) :=
    Schema.means_object (by decide)
      (.cons ⟨rfl, Schema.means_string⟩ (.cons ⟨rfl, Schema.means_string⟩ .nil))
  have hoptions : Schema.Means (.object [("ignoreDirs", .array .string),
      ("whitelistExtensions", .array .string), ("maxFileSize", .natural), ("parallel", .boolean)])
      (IsRecord (optionsFields Json.IsNatural)) :=
    Schema.means_object (by decide)
      (.cons ⟨rfl, Schema.means_texts⟩ (.cons ⟨rfl, Schema.means_texts⟩
        (.cons ⟨rfl, Schema.means_natural⟩ (.cons ⟨rfl, Schema.means_boolean⟩ .nil))))
  exact Schema.means_object (by decide)
    (.cons ⟨rfl, Schema.means_string⟩ (.cons ⟨rfl, hproject⟩
      (.cons ⟨rfl, hpaths⟩ (.cons ⟨rfl, hoptions⟩ .nil))))

/-- The member of a section. -/
def inSection? (v : Json) (s name : String) : Option Json :=
  (v.get? s).bind (·.get? name)

variable {v : Json} {size : Json → Prop}

/-- What is known of a member of a section. -/
theorem IsConfig.inSection (h : IsConfig size v) (members : List (String × (Json → Prop)))
    {s name : String} {p : Json → Prop}
    (hs : ∀ q, (s, q) ∈ fields size → q = IsRecord members)
    (hp : ∀ q, (name, q) ∈ members → q = p) : ∀ w ∈ inSection? v s name, p w := by
  intro w hw
  obtain ⟨u, hu, hw⟩ := Option.bind_eq_some_iff.mp hw
  exact (h.field hs hu).field hp hw

theorem IsConfig.maxFileSize (h : IsConfig size v) :
    ∀ w ∈ inSection? v "options" "maxFileSize", size w :=
  h.inSection (optionsFields size) (by simp [fields]) (by simp [optionsFields])

/-- Options with one property of the size are options with another one, if their size has it. -/
theorem isOptions_imp {size' : Json → Prop} (hv : v.IsRegular)
    (h : IsRecord (optionsFields size) v) (hsize : ∀ w ∈ v.get? "maxFileSize", size w → size' w) :
    IsRecord (optionsFields size') v := by
  refine h.imp hv fun name p w hp hget hw => ?_
  simp only [optionsFields, List.mem_cons, Prod.mk.injEq, List.not_mem_nil, or_false] at hp
  rcases hp with ⟨rfl, rfl⟩ | ⟨rfl, rfl⟩ | ⟨rfl, rfl⟩ | ⟨rfl, rfl⟩
  · exact ⟨IsTexts, by simp [optionsFields], hw⟩
  · exact ⟨IsTexts, by simp [optionsFields], hw⟩
  · exact ⟨size', by simp [optionsFields], hsize w hget hw⟩
  · exact ⟨IsTruth, by simp [optionsFields], hw⟩

theorem IsConfig.imp {size' : Json → Prop} (hv : v.IsRegular) (h : IsConfig size v)
    (hsize : ∀ w ∈ inSection? v "options" "maxFileSize", size w → size' w) :
    IsConfig size' v := by
  refine IsRecord.imp h hv fun name p w hp hget hw => ?_
  simp only [fields, List.mem_cons, Prod.mk.injEq, List.not_mem_nil, or_false] at hp
  rcases hp with ⟨rfl, rfl⟩ | ⟨rfl, rfl⟩ | ⟨rfl, rfl⟩ | ⟨rfl, rfl⟩
  · exact ⟨IsText, by simp [fields], hw⟩
  · exact ⟨IsRecord projectFields, by simp [fields], hw⟩
  · exact ⟨IsRecord pathsFields, by simp [fields], hw⟩
  · refine ⟨IsRecord (optionsFields size'), by simp [fields], ?_⟩
    refine isOptions_imp (hv.get? hget) hw fun u hu => ?_
    exact hsize u (Option.bind_eq_some_iff.mpr ⟨w, hget, hu⟩)

/-- The second check asks of the size what the schema does not. -/
theorem isConfig_isSize_iff (hv : v.IsRegular) :
    IsConfig IsSize v ↔
      IsConfig Json.IsNatural v ∧ ∀ w ∈ inSection? v "options" "maxFileSize", IsSize w :=
  ⟨fun h => ⟨h.imp hv fun _ _ => IsSize.isNatural, h.maxFileSize⟩,
    fun h => h.1.imp hv fun w hw _ => h.2 w hw⟩

/-! ## What it means -/

/-- A field has the value that is written, or its default if there is none. -/
def Holds {α : Type} (write : α → Json) (default : α) (written : Option Json) (x : α) : Prop :=
  written = some (write x) ∨ written = none ∧ x = default

/-- A configuration has the values that are written, and defaults for the others. -/
structure Describes (v : Json) (c : Config) : Prop where
  projectName : Holds .string "" (inSection? v "meta" "projectName") c.project.projectName
  description : Holds .string "" (inSection? v "meta" "description") c.project.description
  version : Holds .string "" (inSection? v "meta" "version") c.project.version
  scanDir : inSection? v "paths" "scanDir" = c.paths.scanDir.map .string
  sourceOutputDir : inSection? v "paths" "sourceOutputDir" = c.paths.sourceOutputDir.map .string
  ignoreDirs : Holds .ofStrings [] (inSection? v "options" "ignoreDirs") c.options.ignoreDirs
  whitelistExtensions : Holds .ofStrings [] (inSection? v "options" "whitelistExtensions")
    c.options.whitelistExtensions
  maxFileSize : inSection? v "options" "maxFileSize" = c.options.maxFileSize.map .ofNat
  parallel : Holds .bool false (inSection? v "options" "parallel") c.options.parallel
  baseDir : c.baseDir = none

section Fields

variable {α : Type} {read : Json → Option α} {write : α → Json} {written : Option Json}

theorem Holds.unique {default x y : α} (hwrite : Function.Injective write)
    (hx : Holds write default written x) (hy : Holds write default written y) : x = y := by
  rcases hx with hx | ⟨hx, rfl⟩ <;> rcases hy with hy | ⟨hy, rfl⟩
  · exact hwrite (Option.some.inj (hx.symm.trans hy))
  · cases hx.symm.trans hy
  · cases hx.symm.trans hy
  · rfl

/-- A field holds what is read from the value that is written. -/
theorem holds_getD {default : α} (h : ∀ w ∈ written, ∃ x, w = write x ∧ read w = some x) :
    Holds write default written ((written.bind read).getD default) := by
  cases written with
  | none => exact .inr ⟨rfl, rfl⟩
  | some w =>
    obtain ⟨x, hw, hread⟩ := h w rfl
    rw [Option.bind_some, hread]
    exact .inl (congrArg some hw)

theorem eq_map_bind (h : ∀ w ∈ written, ∃ x, w = write x ∧ read w = some x) :
    written = (written.bind read).map write := by
  cases written with
  | none => rfl
  | some w =>
    obtain ⟨x, hw, hread⟩ := h w rfl
    rw [Option.bind_some, hread]
    exact congrArg some hw

end Fields

theorem injective_ofStrings : Function.Injective Json.ofStrings := by
  intro ss ss' h
  exact List.map_injective_iff.mpr (fun _ _ => Json.string.inj) (Json.array.inj h)

theorem injective_ofNat : Function.Injective Json.ofNat := by
  intro n n' h
  exact Int.ofNat.inj (Number.int.inj (Json.number.inj h))

/-- A value describes one configuration at most. -/
theorem Describes.unique {c c' : Config} (h : Describes v c) (h' : Describes v c') : c = c' := by
  have hstring : Function.Injective Json.string := fun _ _ => Json.string.inj
  have hbool : Function.Injective Json.bool := fun _ _ => Json.bool.inj
  obtain ⟨⟨name, description, version⟩, ⟨scanDir, outputDir⟩, ⟨ignore, whitelist, size, parallel⟩,
    base⟩ := c
  obtain ⟨⟨name', description', version'⟩, ⟨scanDir', outputDir'⟩,
    ⟨ignore', whitelist', size', parallel'⟩, base'⟩ := c'
  obtain rfl : name = name' := h.projectName.unique hstring h'.projectName
  obtain rfl : description = description' := h.description.unique hstring h'.description
  obtain rfl : version = version' := h.version.unique hstring h'.version
  obtain rfl : scanDir = scanDir' :=
    Option.map_injective hstring (h.scanDir.symm.trans h'.scanDir)
  obtain rfl : outputDir = outputDir' :=
    Option.map_injective hstring (h.sourceOutputDir.symm.trans h'.sourceOutputDir)
  obtain rfl : ignore = ignore' := h.ignoreDirs.unique injective_ofStrings h'.ignoreDirs
  obtain rfl : whitelist = whitelist' :=
    h.whitelistExtensions.unique injective_ofStrings h'.whitelistExtensions
  obtain rfl : size = size' :=
    Option.map_injective injective_ofNat (h.maxFileSize.symm.trans h'.maxFileSize)
  obtain rfl : parallel = parallel' := h.parallel.unique hbool h'.parallel
  obtain rfl : base = base' := h.baseDir.trans h'.baseDir.symm
  rfl

/-! ## Reading -/

theorem exists_asString? {w : Json} (h : IsText w) : ∃ s, w = .string s ∧ w.asString? = some s := by
  obtain ⟨s, rfl⟩ := h
  exact ⟨s, rfl, rfl⟩

theorem exists_asStrings? {w : Json} (h : IsTexts w) :
    ∃ ss, w = .ofStrings ss ∧ w.asStrings? = some ss := by
  obtain ⟨ss, rfl⟩ := h
  refine ⟨ss, rfl, Json.mapM_eq_some_of_forall₂ ?_⟩
  exact List.forall₂_map_left_iff.mpr (List.forall₂_same.mpr fun s _ => rfl)

theorem exists_asBool? {w : Json} (h : IsTruth w) : ∃ b, w = .bool b ∧ w.asBool? = some b := by
  obtain ⟨b, rfl⟩ := h
  exact ⟨b, rfl, rfl⟩

theorem exists_asNat? {w : Json} (h : IsSize w) : ∃ n, w = .ofNat n ∧ w.asNat? = some n := by
  obtain ⟨n, hn, rfl⟩ := h
  exact ⟨n, rfl, Json.asNat?_ofNat hn⟩

theorem sizeOf?_eq_ok (h : ∀ w ∈ inSection? v "options" "maxFileSize", IsSize w) :
    sizeOf? (v.get? "options") =
      .ok ((inSection? v "options" "maxFileSize").bind Json.asNat?) := by
  rw [sizeOf?, ← inSection?]
  cases hw : inSection? v "options" "maxFileSize" with
  | none => rfl
  | some w =>
    cases w with
    | number n =>
      cases n with
      | int i => rfl
      | float x =>
        obtain ⟨n, -, hn⟩ := h _ hw
        cases hn
    | _ => rfl

theorem sizeOf?_eq_error {w : Json} (hw : inSection? v "options" "maxFileSize" = some w)
    (h : IsNaturalFloat w) : ∃ x, sizeOf? (v.get? "options") = .error (.floatingSize x) := by
  obtain ⟨x, rfl, -⟩ := h
  refine ⟨x, ?_⟩
  rw [sizeOf?, ← inSection?, hw]

/-- What is read from a value that is accepted. -/
theorem describes_of_isConfig (h : IsConfig IsSize v) :
    ∃ options, optionsOf v = .ok options ∧
      Describes v { project := projectOf v, paths := pathsOf v, options } := by
  have hproject {name : String} (hname : ∀ q, (name, q) ∈ projectFields → q = IsText) :
      ∀ w ∈ inSection? v "meta" name, ∃ s, w = .string s ∧ w.asString? = some s :=
    fun w hw => exists_asString?
      (h.inSection projectFields (by simp [fields]) hname w hw)
  have hpaths {name : String} (hname : ∀ q, (name, q) ∈ pathsFields → q = IsText) :
      ∀ w ∈ inSection? v "paths" name, ∃ s, w = .string s ∧ w.asString? = some s :=
    fun w hw => exists_asString?
      (h.inSection pathsFields (by simp [fields]) hname w hw)
  have hoptions {name : String} {p : Json → Prop}
      (hname : ∀ q, (name, q) ∈ optionsFields IsSize → q = p) :
      ∀ w ∈ inSection? v "options" name, p w :=
    h.inSection (optionsFields IsSize) (by simp [fields]) hname
  refine ⟨_, by rw [optionsOf, sizeOf?_eq_ok h.maxFileSize], ?_⟩
  exact
    { projectName := holds_getD (hproject (by simp [projectFields]))
      description := holds_getD (hproject (by simp [projectFields]))
      version := holds_getD (hproject (by simp [projectFields]))
      scanDir := eq_map_bind (hpaths (by simp [pathsFields]))
      sourceOutputDir := eq_map_bind (hpaths (by simp [pathsFields]))
      ignoreDirs := holds_getD fun w hw =>
        exists_asStrings? (hoptions (by simp [optionsFields]) w hw)
      whitelistExtensions := holds_getD fun w hw =>
        exists_asStrings? (hoptions (by simp [optionsFields]) w hw)
      maxFileSize := eq_map_bind fun w hw => exists_asNat? (h.maxFileSize w hw)
      parallel := holds_getD fun w hw => exists_asBool? (hoptions (by simp [optionsFields]) w hw)
      baseDir := rfl }

/-- **What comes of a value**: it violates the schema, or its size is a floating point number, or it
is a configuration. -/
theorem ofJson_cases (hv : v.IsRegular) :
    ¬ IsConfig Json.IsNatural v ∧ (∃ violation, ofJson v = .error (.schema violation)) ∨
      IsConfig Json.IsNatural v ∧
        (∃ w, inSection? v "options" "maxFileSize" = some w ∧ IsNaturalFloat w) ∧
        (∃ x, ofJson v = .error (.floatingSize x)) ∨
      IsConfig IsSize v ∧ ∃ c, ofJson v = .ok c ∧ Describes v c := by
  cases hcheck : schema.check v with
  | some violation =>
    refine .inl ⟨fun h => ?_, violation, by rw [ofJson, hcheck]⟩
    rw [(means_schema v).mpr h] at hcheck
    cases hcheck
  | none =>
    have hconfig := (means_schema v).mp hcheck
    by_cases hsize : ∀ w ∈ inSection? v "options" "maxFileSize", IsSize w
    · have haccepted := (isConfig_isSize_iff hv).mpr ⟨hconfig, hsize⟩
      obtain ⟨options, hoptions, hdescribes⟩ := describes_of_isConfig haccepted
      exact .inr (.inr ⟨haccepted, _, by rw [ofJson, hcheck, hoptions], hdescribes⟩)
    · obtain ⟨w, hw, hnot⟩ : ∃ w, inSection? v "options" "maxFileSize" = some w ∧ ¬ IsSize w := by
        simpa using hsize
      have hregular : w.IsRegular := by
        obtain ⟨s, hs, hw⟩ := Option.bind_eq_some_iff.mp hw
        exact (hv.get? hs).get? hw
      have hfloat := ((hconfig.maxFileSize w hw).isSize_or hregular).resolve_left hnot
      obtain ⟨x, hx⟩ := sizeOf?_eq_error hw hfloat
      exact .inr (.inl ⟨hconfig, ⟨w, hw, hfloat⟩, x, by rw [ofJson, hcheck, optionsOf, hx]⟩)

theorem ofJson_eq_ok_iff (hv : v.IsRegular) {c : Config} :
    ofJson v = .ok c ↔ IsConfig IsSize v ∧ Describes v c := by
  rcases ofJson_cases hv with ⟨hnot, e, he⟩ | ⟨-, ⟨w, hw, hfloat⟩, x, hx⟩ |
    ⟨hconfig, c₀, hc₀, hdescribes⟩
  · rw [he]
    exact iff_of_false (by simp) fun h => hnot ((isConfig_isSize_iff hv).mp h.1).1
  · rw [hx]
    exact iff_of_false (by simp) fun h =>
      hfloat.not_isSize (((isConfig_isSize_iff hv).mp h.1).2 w hw)
  · rw [hc₀, Except.ok.injEq]
    constructor
    · rintro rfl
      exact ⟨hconfig, hdescribes⟩
    · rintro ⟨-, hc⟩
      exact hdescribes.unique hc

/-! ## Texts -/

theorem ofText_of_read {text : List Char} {read : Option Json}
    (h : Json.Commented.read text = .ok read) : ofText text = ofJson (read.getD (.object [])) := by
  rw [ofText, h]

theorem isRegular_of_read {text : List Char} {read : Option Json}
    (h : Json.Commented.read text = .ok read) : (read.getD (.object [])).IsRegular := by
  cases read with
  | none => exact .object .nil (by simp)
  | some v => exact Json.Commented.isRegular_of_read h

/-- The size in a configuration has 64 bits. -/
theorem maxFileSize_lt_of_ofText {text : List Char} {c : Config} (h : ofText text = .ok c) :
    ∀ n ∈ c.options.maxFileSize, n < Nat.pow 2 64 := by
  intro n hn
  cases hread : Json.Commented.read text with
  | error trouble =>
    rw [ofText, hread] at h
    cases h
  | ok read =>
    rw [ofText_of_read hread, ofJson_eq_ok_iff (isRegular_of_read hread)] at h
    have hwritten := h.2.maxFileSize
    rw [Option.mem_def.mp hn, Option.map_some] at hwritten
    obtain ⟨m, hm, hnm⟩ := h.1.maxFileSize _ hwritten
    rwa [injective_ofNat hnm]

theorem opens_of_message {e : ConfigError} {s : String} (rest : String)
    (h : e.message = s ++ rest) : e.Opens s := by
  rw [ConfigError.Opens, h, String.toList_append]
  exact List.prefix_append _ _

theorem opens_floatingSize (x : Binary64) :
    (ConfigError.floatingSize x).Opens "Invalid config: " := by
  have hstart : "Invalid config: invalid type: floating point `" =
      "Invalid config: " ++ "invalid type: floating point `" := by decide +kernel
  refine opens_of_message ("invalid type: floating point `" ++
    String.ofList (Number.float x).render ++ "`, expected u64") ?_
  rw [← String.append_assoc, ← String.append_assoc, ← hstart]
  rfl

theorem opens_schema (violation : Violation) :
    (ConfigError.schema violation).Opens "Config validation failed: " :=
  opens_of_message violation.message rfl

/-- The two kinds of messages differ. -/
theorem opens_disjoint {e : ConfigError} (h : e.Opens "Invalid config: ")
    (h' : e.Opens "Config validation failed: ") : False := by
  have hdiffer : ¬ ("Invalid config: ".toList <+: "Config validation failed: ".toList ∨
      "Config validation failed: ".toList <+: "Invalid config: ".toList) := by decide +kernel
  exact hdiffer (List.prefix_or_prefix_of_prefix h h')

/-- **Which texts are configurations.** A text is one just if the value that it has is an object
with the listed members, each of the kind that is listed, and the size an integer of 64 bits; then
the configuration has the values that are written, and defaults for the others. A text without
tokens counts as an empty object. A text that is none is refused for its size just if it passes the
schema, and then the size is a natural number that is held as a floating point number. -/
theorem ofText_accepts_exactly (text : List Char) (read : Option Json)
    (hread : Json.Commented.read text = .ok read) :
    let v := read.getD (.object [])
    (Json.Commented.Tokenless text → v = .object []) ∧
      ((∃ c, ofText text = .ok c) ↔ IsConfig IsSize v) ∧
      (∀ c, ofText text = .ok c ↔ IsConfig IsSize v ∧ Describes v c) ∧
      ∀ e, ofText text = .error e →
        (e.Opens "Invalid config: " ↔ IsConfig Json.IsNatural v ∧
          ∃ w, inSection? v "options" "maxFileSize" = some w ∧ IsNaturalFloat w) ∧
        (e.Opens "Config validation failed: " ↔ ¬ IsConfig Json.IsNatural v) := by
  intro v
  have hv : v.IsRegular := isRegular_of_read hread
  have hempty : Json.Commented.Tokenless text → v = .object [] := fun h => by
    rw [Json.Commented.read_of_tokenless h, Except.ok.injEq] at hread
    simp [v, ← hread]
  rw [ofText_of_read hread]
  refine ⟨hempty, ?_, fun c => ofJson_eq_ok_iff hv, fun e he => ?_⟩
  · constructor
    · rintro ⟨c, hc⟩
      exact ((ofJson_eq_ok_iff hv).mp hc).1
    · intro hconfig
      obtain ⟨options, -, hdescribes⟩ := describes_of_isConfig hconfig
      exact ⟨_, (ofJson_eq_ok_iff hv).mpr ⟨hconfig, hdescribes⟩⟩
  · rcases ofJson_cases hv with ⟨hnot, violation, hschema⟩ | ⟨hconfig, hfloat, x, hsize⟩ |
      ⟨-, c, hc, -⟩
    · obtain rfl := Except.error.inj (hschema.symm.trans he)
      have hopens := opens_schema violation
      exact ⟨iff_of_false (fun h => opens_disjoint h hopens) fun h => hnot h.1,
        iff_of_true hopens hnot⟩
    · obtain rfl := Except.error.inj (hsize.symm.trans he)
      have hopens := opens_floatingSize x
      exact ⟨iff_of_true hopens ⟨hconfig, hfloat⟩,
        iff_of_false (fun h => opens_disjoint hopens h) fun h => h hconfig⟩
    · cases hc.symm.trans he

/-- A text with a comment, a bare name and a size in a given spelling. -/
def sizeText (size : List Char) : List Char :=
  ['/', '/', '\n', Json.leftBrace, 'o', 'p', 't', 'i', 'o', 'n', 's', ':', Json.leftBrace, '"', 'm',
    'a', 'x', 'F', 'i', 'l', 'e', 'S', 'i', 'z', 'e', '"', ':'] ++ size ++
    [',', Json.rightBrace, Json.rightBrace]

/-- The value of such a text. -/
def sizeValue (size : Json) : Json :=
  .object [("options", .object [("maxFileSize", size)])]

/-- A size may be spelled in hexadecimal, but not with a point. -/
theorem ofText_accepts_exactly_sizes :
    Json.Commented.read (sizeText ['0', 'x', 'f']) = .ok (some (sizeValue (.ofNat 15))) ∧
      Json.Commented.read (sizeText ['2', '.', '0']) =
        .ok (some (sizeValue (.number (.float ⟨false, Nat.pow 2 52, -51⟩)))) ∧
      (∃ c, ofText (sizeText ['0', 'x', 'f']) = .ok c) ∧
      ∃ e, ofText (sizeText ['2', '.', '0']) = .error e ∧ e.Opens "Invalid config: " := by
  have hhex : Json.Commented.read (sizeText ['0', 'x', 'f']) =
      .ok (some (sizeValue (.ofNat 15))) := rfl
  have hpoint : Json.Commented.read (sizeText ['2', '.', '0']) =
      .ok (some (sizeValue (.number (.float ⟨false, Nat.pow 2 52, -51⟩)))) := rfl
  have hconfig {size : Json → Prop} {w : Json} (hw : size w) : IsConfig size (sizeValue w) := by
    simp [IsConfig, IsRecord, fields, sizeValue, optionsFields, hw]
  have hfloat : IsNaturalFloat (.number (.float ⟨false, Nat.pow 2 52, -51⟩)) :=
    ⟨_, rfl, 2, by decide, by decide⟩
  obtain ⟨-, haccepted, -, hrefused⟩ := ofText_accepts_exactly _ _ hpoint
  refine ⟨hhex, hpoint, ?_, ?_⟩
  · exact (ofText_accepts_exactly _ _ hhex).2.1.mpr (hconfig ⟨15, by decide, rfl⟩)
  · cases he : ofText (sizeText ['2', '.', '0']) with
    | ok c => exact absurd ((haccepted.mp ⟨c, he⟩).maxFileSize _ rfl) hfloat.not_isSize
    | error e => exact ⟨e, rfl, (hrefused e he).1.mpr ⟨hconfig (.inr hfloat), _, rfl, hfloat⟩⟩

end Config

end ErrorDocs
