import ErrorDocs.Proofs.Json.RoundTrip
import ErrorDocs.Proofs.Text.Encoding
import ErrorDocs.Scheme.Json

/-!
# Results and schemes are read back

What a scan finds and the scheme that is made of it are written as JSON and read back from the text.
A scheme can always be written. A result can be written if its paths are UTF-8, and it is read back
if its numbers have 64 bits.

* `ErrorScheme.carries`, `ScanResult.IsPortable.exists_carries`: the value of a record holds it.
* `ScanResult.render?_eq_none_iff`: the results that cannot be written.
* **`render_reads_back`**: both are read back from what is written.
-/

namespace ErrorDocs

open Json (Carries Plain)

/-! ## The scheme -/

theorem SchemeTag.carries (t : SchemeTag) : Carries ofJson? t.toJson t where
  plain := .object (by simp [Plain.string])
  read_settled := by
    have hfields : t.toJson.settled.fields? fieldNames =
        some [.string t.name, .string t.description] :=
      Json.fields?_settled (by simp [fieldNames]) rfl
    rw [ofJson?, hfields]
    rfl

theorem SchemeError.carries (e : SchemeError) : Carries ofJson? e.toJson e := by
  have htags := Carries.array_map SchemeTag.carries e.tags
  refine ⟨.object (by simp [Plain.string, htags.plain]), ?_⟩
  have hfields : e.toJson.settled.fields? fieldNames =
      some [.string e.name, .string e.description,
        (Json.array (e.tags.map SchemeTag.toJson)).settled] :=
    Json.fields?_settled (by simp [fieldNames]) rfl
  rw [ofJson?, hfields]
  simp [Json.asString?, htags.read_settled]

theorem ErrorScheme.carries (s : ErrorScheme) : Carries ofJson? s.toJson s := by
  have herrors := Carries.array_map SchemeError.carries s.errors
  refine ⟨.object (by simp [Plain.string, herrors.plain]), ?_⟩
  have hfields : s.toJson.settled.fields? fieldNames =
      some [.string s.name, .string s.description, .string s.version,
        (Json.array (s.errors.map SchemeError.toJson)).settled] :=
    Json.fields?_settled (by simp [fieldNames]) rfl
  rw [ofJson?, hfields]
  simp [Json.asString?, herrors.read_settled]

/-! ## The result of a scan -/

theorem Tag.carries (t : Tag) : Carries ofJson? t.toJson t where
  plain := .object (by simp [Plain.string])
  read_settled := by
    have hfields : t.toJson.settled.fields? fieldNames =
        some [.string t.name, .string t.raw] :=
      Json.fields?_settled (by simp [fieldNames]) rfl
    rw [ofJson?, hfields]
    rfl

-- Stated for any values of the fields: with a number in place, its bound would be unfolded.
/-- A block is read from the values of its fields. -/
theorem DocBlock.ofJson?_of_fields {v path line raw description tags : Json} {b : DocBlock}
    {p : String} (hfields : v.fields? fieldNames = some [path, line, raw, description, tags])
    (hpath : path.asString? = some p) (hfile : b.filePath = .ofString p)
    (hline : line.asNat? = some b.startLine) (hraw : raw.asString? = some b.raw)
    (hdescription : description.asString? = some b.description)
    (htags : tags.listOf? Tag.ofJson? = some b.tags) : ofJson? v = some b := by
  simp only [ofJson?, hfields, hpath, hline, hraw, hdescription, htags, ← hfile]

theorem DocBlock.exists_carries {b : DocBlock} (hpath : b.filePath.IsUtf8)
    (hline : b.startLine < Nat.pow 2 64) : ∃ v, b.toJson? = some v ∧ Carries ofJson? v b := by
  obtain ⟨path, hpath⟩ := hpath.exists_toString?
  have hline := Carries.nat hline
  have htags := Carries.array_map Tag.carries b.tags
  refine ⟨_, by rw [toJson?, hpath, Option.map_some], ?_, ?_⟩
  · exact .object (by simp [Plain.string, hline.plain, htags.plain])
  · exact ofJson?_of_fields (Json.fields?_settled (by simp [fieldNames]) rfl) rfl
      (Path.toString?_eq_some_iff.mp hpath) hline.read_settled rfl rfl htags.read_settled

namespace ScanResult

/-- A result is read from the values of its fields. -/
theorem ofJson?_of_fields {v root blocks scanned skipped : Json} {r : ScanResult} {p : String}
    (hfields : v.fields? fieldNames = some [root, blocks, scanned, skipped])
    (hroot : root.asString? = some p) (hdir : r.rootDir = .ofString p)
    (hblocks : blocks.listOf? DocBlock.ofJson? = some r.blocks)
    (hscanned : scanned.asNat? = some r.scannedFiles)
    (hskipped : skipped.asNat? = some r.skippedFiles) : ofJson? v = some r := by
  simp only [ofJson?, hfields, hroot, hblocks, hscanned, hskipped, ← hdir]

/-- Results whose paths are UTF-8 and whose numbers have 64 bits. -/
structure IsPortable (r : ScanResult) : Prop where
  rootDir : r.rootDir.IsUtf8
  filePath : ∀ b ∈ r.blocks, b.filePath.IsUtf8
  startLine : ∀ b ∈ r.blocks, b.startLine < Nat.pow 2 64
  scannedFiles : r.scannedFiles < Nat.pow 2 64
  skippedFiles : r.skippedFiles < Nat.pow 2 64

theorem IsPortable.exists_carries {r : ScanResult} (h : r.IsPortable) :
    ∃ v, r.toJson? = some v ∧ Carries ofJson? v r := by
  obtain ⟨root, hroot⟩ := h.rootDir.exists_toString?
  obtain ⟨vs, hvs, hblocks⟩ := Json.exists_mapM_eq_some fun b hb =>
    DocBlock.exists_carries (h.filePath b hb) (h.startLine b hb)
  have hblocks := Carries.array hblocks
  have hscanned := Carries.nat h.scannedFiles
  have hskipped := Carries.nat h.skippedFiles
  refine ⟨_, by rw [toJson?, hroot, hvs], ?_, ?_⟩
  · exact .object (by simp [Plain.string, hblocks.plain, hscanned.plain, hskipped.plain])
  · exact ofJson?_of_fields (Json.fields?_settled (by simp [fieldNames]) rfl) rfl
      (Path.toString?_eq_some_iff.mp hroot) hblocks.read_settled hscanned.read_settled
      hskipped.read_settled

theorem render?_eq_none_iff (r : ScanResult) :
    r.render? = none ↔ ¬ r.rootDir.IsUtf8 ∨ ∃ b ∈ r.blocks, ¬ b.filePath.IsUtf8 := by
  have hblock (b : DocBlock) : b.toJson? = none ↔ ¬ b.filePath.IsUtf8 := by
    rw [DocBlock.toJson?, Option.map_eq_none_iff, Path.toString?_eq_none_iff]
  have hblocks : r.blocks.mapM DocBlock.toJson? = none ↔
      ∃ b ∈ r.blocks, ¬ b.filePath.IsUtf8 := by
    simp only [Json.mapM_eq_none_iff, hblock]
  rw [← hblocks, ← Path.toString?_eq_none_iff, render?, Option.map_eq_none_iff, toJson?]
  cases r.rootDir.toString? <;> cases r.blocks.mapM DocBlock.toJson? <;> simp

end ScanResult

/-! ## Reading back -/

/-- **Schemes and results are read back from what is written.** Every scheme can be written. A
result cannot be written just if one of its paths is not UTF-8. -/
theorem render_reads_back :
    (∀ s : ErrorScheme, (Json.parse? s.render).bind ErrorScheme.ofJson? = some s) ∧
      (∀ r : ScanResult, r.IsPortable → ∃ text, r.render? = some text ∧
        (Json.parse? (text ++ ['\n'])).bind ScanResult.ofJson? = some r) ∧
      ∀ r : ScanResult,
        r.render? = none ↔ ¬ r.rootDir.IsUtf8 ∨ ∃ b ∈ r.blocks, ¬ b.filePath.IsUtf8 := by
  refine ⟨fun s => ?_, fun r hr => ?_, ScanResult.render?_eq_none_iff⟩
  · have hscheme := s.carries.parse?_pretty (s := []) (by simp)
    rwa [List.append_nil] at hscheme
  · obtain ⟨v, hv, hcarries⟩ := hr.exists_carries
    refine ⟨v.pretty, by rw [ScanResult.render?, hv, Option.map_some], ?_⟩
    exact hcarries.parse?_pretty (List.forall_mem_singleton.mpr rfl)

/-- A result with every kind of escape in its texts, and a path that is not ASCII. -/
def escapedResult : ScanResult where
  rootDir := .ofString "Ω"
  blocks :=
    [{ filePath := .ofString "Ω/\"a\\.rs"
       startLine := 12
       raw := "/**\t\"\\\x08\x0c\r\n*/"
       description := "\x00\x1f\x7f/é😀"
       tags := [{ name := "error", raw := "" }] }]
  scannedFiles := 1
  skippedFiles := Nat.pow 2 64 - 1

theorem isPortable_escapedResult : escapedResult.IsPortable where
  rootDir := Path.isUtf8_ofString _
  filePath := List.forall_mem_singleton.mpr (Path.isUtf8_ofString _)
  startLine := List.forall_mem_singleton.mpr (by decide)
  scannedFiles := by decide
  skippedFiles := by decide

theorem render_reads_back_escaped : escapedResult.IsPortable ∧
    ∃ text, escapedResult.render? = some text ∧
      (Json.parse? (text ++ ['\n'])).bind ScanResult.ofJson? = some escapedResult :=
  ⟨isPortable_escapedResult, render_reads_back.2.1 _ isPortable_escapedResult⟩

end ErrorDocs
