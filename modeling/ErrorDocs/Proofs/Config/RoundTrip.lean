import ErrorDocs.Proofs.Config.Acceptance
import ErrorDocs.Proofs.Json.Commented.Reading

/-!
# Configurations are read back

A configuration is written as JSON without its directory, and leaves out what it does not have. The
text is read in the commented dialect, passes the schema, and gives the configuration again. Reading
sorts the members of every object; this changes neither what kind of value it is nor what is found
under a name.

* `IsRecord.settled`, `get?_settled`: sorting the members of an object.
* `isConfig_toJson`, `describes_toJson`: what is written is a configuration, and which one it is.
* **`ofText_render`**: a configuration is read back from its text.
-/

namespace ErrorDocs

namespace Json

/-! ## Sorting members -/

theorem mem_insertMembers {new done : List (String × Json)} {x : String × Json}
    (h : x ∈ insertMembers done new) : x ∈ done ∨ x ∈ new := by
  induction new generalizing done with
  | nil => exact .inl h
  | cons y new ih =>
    rw [insertMembers, List.foldl_cons, ← insertMembers] at h
    rcases ih h with h | h
    · rcases mem_insertMember h with rfl | h
      · exact .inr List.mem_cons_self
      · exact .inl h
    · exact .inr (List.mem_cons_of_mem _ h)

/-- Sorting keeps a record one, if it keeps the properties of its members. -/
theorem IsRecord.settled {fields : List (String × (Json → Prop))} {v : Json}
    (h : IsRecord fields v) (hfields : ∀ x ∈ fields, ∀ w, x.2 w → x.2 w.settled) :
    IsRecord fields v.settled := by
  obtain ⟨members, rfl, hmembers⟩ := h
  refine ⟨_, by rw [Json.settled, settledMembers_eq_map], fun x hx => ?_⟩
  rcases mem_insertMembers hx with hx | hx
  · cases hx
  · obtain ⟨y, hy, rfl⟩ := List.mem_map.mp hx
    obtain ⟨p, hp, hw⟩ := hmembers y hy
    exact ⟨p, hp, hfields _ hp _ hw⟩

theorem settled_ofStrings (ss : List String) : (ofStrings ss).settled = ofStrings ss := by
  rw [ofStrings, settled, settledItems_eq_map, List.map_map]
  congr 2

theorem IsText.settled {v : Json} (h : v.IsText) : v.settled.IsText := by
  obtain ⟨s, rfl⟩ := h
  exact ⟨s, by rw [Json.settled]⟩

theorem IsTexts.settled {v : Json} (h : v.IsTexts) : v.settled.IsTexts := by
  obtain ⟨ss, rfl⟩ := h
  exact ⟨ss, settled_ofStrings ss⟩

theorem IsTruth.settled {v : Json} (h : v.IsTruth) : v.settled.IsTruth := by
  obtain ⟨b, rfl⟩ := h
  exact ⟨b, by rw [Json.settled]⟩

theorem IsSize.settled {v : Json} (h : v.IsSize) : v.settled.IsSize := by
  obtain ⟨n, hn, rfl⟩ := h
  exact ⟨n, hn, by rw [ofNat, Json.settled]⟩

/-- Under each name, a value has one member at most. -/
def IsDistinct (v : Json) : Prop :=
  ∀ members, v = .object members → (members.map (·.1)).Nodup

theorem not_mem_of_member?_eq_none {name : String} {members : List (String × Json)}
    (h : member? name members = none) : name ∉ members.map (·.1) := by
  rw [member?, Option.map_eq_none_iff, List.find?_eq_none] at h
  intro hname
  obtain ⟨x, hx, rfl⟩ := List.mem_map.mp hname
  simpa using h x hx

theorem isDistinct_object {members : List (String × Json)} (h : (members.map (·.1)).Nodup) :
    IsDistinct (.object members) := by
  intro members' heq
  obtain rfl := object.inj heq
  exact h

/-- What is found under a name is sorted, too. -/
theorem get?_settled {v : Json} (h : v.IsDistinct) (name : String) :
    v.settled.get? name = (v.get? name).map settled := by
  cases v with
  | object members =>
    have hnames := map_fst_map_settled members
    rw [settled, settledMembers_eq_map, get?, get?]
    cases hw : member? name members with
    | none =>
      have hnot := not_mem_of_member?_eq_none hw
      exact member?_insertMembers_of_not_mem (hnames.symm ▸ hnot) []
    | some w =>
      exact member?_insertMembers (hnames.symm ▸ h members rfl)
        (List.mem_map_of_mem (mem_of_member? hw)) []
  | _ => simp [settled, get?]

end Json

namespace Config

open Json (IsText IsTexts IsTruth IsRecord IsSize IsDistinct Plain)

theorem isConfig_settled {v : Json} (h : IsConfig IsSize v) : IsConfig IsSize v.settled := by
  have hproject : ∀ w, IsRecord projectFields w → IsRecord projectFields w.settled := fun w hw =>
    hw.settled (by simp +contextual [projectFields, IsText.settled])
  have hpaths : ∀ w, IsRecord pathsFields w → IsRecord pathsFields w.settled := fun w hw =>
    hw.settled (by simp +contextual [pathsFields, IsText.settled])
  have hoptions : ∀ w, IsRecord (optionsFields IsSize) w →
      IsRecord (optionsFields IsSize) w.settled := fun w hw =>
    hw.settled (by
      simp +contextual [optionsFields, IsTexts.settled, IsTruth.settled, IsSize.settled])
  exact IsRecord.settled h (by
    simp +contextual [fields, IsText.settled, hproject, hpaths, hoptions])

/-! ## What is written -/

variable {c : Config}

theorem plain_ofStrings (ss : List String) : (Json.ofStrings ss).Plain :=
  .array (List.forall_mem_map.mpr fun s _ => .string s)

theorem plain_toJson (h : ∀ n ∈ c.options.maxFileSize, n < Nat.pow 2 64) : c.toJson.Plain := by
  have hproject : c.project.toJson.Plain := .object (by simp [Plain.string])
  have hpaths : (pathsJson c.paths).Plain := by
    refine .object ?_
    cases c.paths.scanDir <;> cases c.paths.sourceOutputDir <;> simp [optional, Plain.string]
  have hoptions : (optionsJson c.options).Plain := by
    refine .object ?_
    cases hsize : c.options.maxFileSize with
    | none => simp [optional, plain_ofStrings, Plain.bool]
    | some n => simp [optional, plain_ofStrings, Plain.bool, Plain.nat (h n hsize)]
  exact .object (by simp [hproject, hpaths, hoptions])

theorem isConfig_toJson (h : ∀ n ∈ c.options.maxFileSize, n < Nat.pow 2 64) :
    IsConfig IsSize c.toJson := by
  have hproject : IsRecord projectFields c.project.toJson := by
    refine ⟨_, rfl, ?_⟩
    simp [projectFields, IsText]
  have hpaths : IsRecord pathsFields (pathsJson c.paths) := by
    refine ⟨_, rfl, ?_⟩
    cases c.paths.scanDir <;> cases c.paths.sourceOutputDir <;>
      simp [optional, pathsFields, IsText]
  have hoptions : IsRecord (optionsFields IsSize) (optionsJson c.options) := by
    refine ⟨_, rfl, ?_⟩
    cases hsize : c.options.maxFileSize with
    | none => simp [optional, optionsFields, IsTexts, IsTruth]
    | some n =>
      have hn : IsSize (.ofNat n) := ⟨n, h n hsize, rfl⟩
      simp [optional, optionsFields, IsTexts, IsTruth, hn]
  refine ⟨_, rfl, ?_⟩
  simp [fields, hproject, hpaths, hoptions]

theorem inSection?_toJson {s : String} {w : Json} (hs : c.toJson.get? s = some w)
    (hw : w.IsDistinct) (name : String) :
    inSection? c.toJson.settled s name = (w.get? name).map Json.settled := by
  have hdistinct : c.toJson.IsDistinct := Json.isDistinct_object (by simp)
  rw [inSection?, Json.get?_settled hdistinct, hs]
  exact Json.get?_settled hw name

theorem get?_pathsJson (p : PathsConfig) :
    (pathsJson p).get? "scanDir" = p.scanDir.map .string ∧
      (pathsJson p).get? "sourceOutputDir" = p.sourceOutputDir.map .string := by
  obtain ⟨scanDir, sourceOutputDir⟩ := p
  cases scanDir <;> cases sourceOutputDir <;> exact ⟨rfl, rfl⟩

theorem get?_optionsJson (o : OptionsConfig) :
    (optionsJson o).get? "maxFileSize" = o.maxFileSize.map .ofNat ∧
      (optionsJson o).get? "parallel" = some (.bool o.parallel) := by
  obtain ⟨ignoreDirs, whitelistExtensions, maxFileSize, parallel⟩ := o
  cases maxFileSize <;> exact ⟨rfl, rfl⟩

/-- What is written has the values of the configuration, in whatever order. -/
theorem describes_toJson (c : Config) :
    Describes c.toJson.settled { c with baseDir := none } := by
  have hproject : c.project.toJson.IsDistinct := Json.isDistinct_object (by simp)
  have hpaths : (pathsJson c.paths).IsDistinct := by
    refine Json.isDistinct_object ?_
    cases c.paths.scanDir <;> cases c.paths.sourceOutputDir <;> simp [optional]
  have hoptions : (optionsJson c.options).IsDistinct := by
    refine Json.isDistinct_object ?_
    cases c.options.maxFileSize <;> simp [optional]
  -- texts and numbers have no members to sort
  have hleaf {α : Type} {write : α → Json} (h : ∀ x, (write x).settled = write x)
      (written : Option α) : (written.map write).map Json.settled = written.map write := by
    cases written with
    | none => rfl
    | some x => exact congrArg some (h x)
  exact
    { projectName := .inl (inSection?_toJson rfl hproject _)
      description := .inl (inSection?_toJson rfl hproject _)
      version := .inl (inSection?_toJson rfl hproject _)
      scanDir := by
        rw [inSection?_toJson rfl hpaths, (get?_pathsJson c.paths).1, hleaf fun _ => rfl]
      sourceOutputDir := by
        rw [inSection?_toJson rfl hpaths, (get?_pathsJson c.paths).2, hleaf fun _ => rfl]
      ignoreDirs := .inl <| (inSection?_toJson rfl hoptions _).trans
        (congrArg some (Json.settled_ofStrings _))
      whitelistExtensions := .inl <| (inSection?_toJson rfl hoptions _).trans
        (congrArg some (Json.settled_ofStrings _))
      maxFileSize := by
        rw [inSection?_toJson rfl hoptions, (get?_optionsJson c.options).1, hleaf fun _ => rfl]
      parallel := .inl <| by
        rw [inSection?_toJson rfl hoptions, (get?_optionsJson c.options).2]
        rfl
      baseDir := rfl }

/-- **A configuration is read back from its text**, but for the directory it comes from, which is
not written. -/
theorem ofText_render (c : Config) (h : ∀ n ∈ c.options.maxFileSize, n < Nat.pow 2 64) :
    ofText c.render = .ok { c with baseDir := none } := by
  have hread := Json.Commented.read_compact (plain_toJson h)
  have hregular : c.toJson.settled.IsRegular := Json.Commented.isRegular_of_read hread
  rw [render, ofText_of_read hread, Option.getD_some, ofJson_eq_ok_iff hregular]
  exact ⟨isConfig_settled (isConfig_toJson h), describes_toJson c⟩

/-- A configuration with every kind of escape in its texts, texts that look like comments, and the
largest size. -/
def escapedConfig : Config where
  project :=
    { projectName := "\"\\\x08\x0c\r\n\t"
      description := "\x00\x1f\x7f/é😀"
      version := "1 // 0" }
  paths := { scanDir := some "/* */" }
  options := { ignoreDirs := ["", "a,"], maxFileSize := some (Nat.pow 2 64 - 1), parallel := true }
  baseDir := some (.ofString "elsewhere")

theorem ofText_render_escaped :
    (∀ n ∈ escapedConfig.options.maxFileSize, n < Nat.pow 2 64) ∧
      ofText escapedConfig.render = .ok { escapedConfig with baseDir := none } := by
  have hsize : ∀ n ∈ escapedConfig.options.maxFileSize, n < Nat.pow 2 64 := by
    rintro n ⟨⟩
    decide
  exact ⟨hsize, ofText_render escapedConfig hsize⟩

end Config

end ErrorDocs
