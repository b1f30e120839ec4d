import ErrorDocs.Proofs.Comment.Documentable
import ErrorDocs.Proofs.FileSystem.Path
import ErrorDocs.Proofs.Json.Printer
import ErrorDocs.Proofs.Text.Encoding
import ErrorDocs.Proofs.Text.Utf8
import ErrorDocs.Scheme.Json

/-!
# Schemes have no comments in them

What is read from a comment has no closing delimiter in it, and neither has the name of a file. So
nothing in a scheme closes a comment, except what the project says about itself, and a scheme that
is written among the files that are scanned adds nothing to the next one.

* `Documentable.not_closing_errorName`: the names of errors.
* `ErrorScheme.unclosed_ofScan`: all that a scheme says.
* **`ErrorScheme.blocks_render_ofScan`**, `ErrorScheme.extractDocs_encode_render`: a written scheme
  has no comments.
-/

namespace ErrorDocs

open Comment (IsInert)

/-! ## Texts without comments -/

theorem Comment.blocks_eq_nil {s : List Char} (h : ¬ closing <:+: s) : blocks s = [] := by
  refine findBlocks_of_none ?_
  rw [nextBlock?_eq_bind, Option.bind_eq_none_iff]
  rintro ⟨gap, body⟩ hopen
  have hbody : body <:+ s := ⟨gap ++ delimiters.opening, (Text.eq_append_of_breakOn? hopen).symm⟩
  rw [Option.map_eq_none_iff, Text.breakOn?_eq_none_iff]
  exact fun hc => h (hc.trans hbody.isInfix)

theorem extractDocs_eq_nil (path : Path) {s : List Char} (h : ¬ Comment.closing <:+: s) :
    extractDocs path s = [] := by
  rw [extractDocs, Comment.blocks_eq_nil h, List.map_nil]

/-! ## Names -/

theorem Text.firstWord?_isInfix {s word : List Char} (h : firstWord? s = some word) :
    word <:+: s := by
  have htake : word = (trimStart s).takeWhile fun c => !isBlank c := by
    unfold firstWord? at h
    split at h
    · cases h
    · exact (Option.some.inj h).symm
  rw [htake]
  exact (List.takeWhile_prefix _).isInfix.trans (trimStart_isSuffix s).isInfix

theorem Path.slash_not_mem_fileName? {path : Path} {name : Name} (h : path.fileName? = some name) :
    slash ∉ name := by
  refine slash_not_mem_of_mem_partsOf path.bytes name ?_
  unfold fileName? headAndBody at h
  cases hparts : path.parts with
  | nil => simp [hparts, isIdlePart] at h
  | cons first rest =>
    simp only [hparts] at h
    split_ifs at h
    obtain rfl := Option.some.inj h
    rw [← parts, hparts]
    cases hlast : (dropIdleEnd rest).getLast? with
    | none => simp
    | some last =>
      have hmem := List.mem_reverse.mp (List.mem_of_getLast? hlast)
      exact List.mem_cons_of_mem _ (List.mem_reverse.mp (List.dropWhile_subset _ hmem))

theorem stem_subset (fileName : List Char) : stem fileName ⊆ fileName := by
  unfold stem cutAtLastDot?
  split
  · rename_i hcut
    split at hcut
    · cases hcut
    · rename_i dot before hdrop
      obtain ⟨rfl, -⟩ := Prod.mk.inj (Option.some.inj hcut)
      intro c hc
      have hmem := List.mem_cons_of_mem dot (List.mem_reverse.mp hc)
      rw [← hdrop] at hmem
      exact List.mem_reverse.mp (List.dropWhile_subset _ hmem)
  · exact fun c hc => hc

theorem slash_not_mem_fileStem (path : Path) : '/' ∉ fileStem path := by
  have hname : Path.slash ∉ path.fileName?.getD [] := by
    cases h : path.fileName? with
    | none => simp
    | some name => exact Path.slash_not_mem_fileName? h
  intro hc
  have hcount := Utf8.count_decodeLossy (a := Path.slash) (by decide) (path.fileName?.getD [])
  rw [List.count_eq_zero_of_not_mem hname, show Utf8.asciiChar Path.slash = '/' from rfl,
    List.count_eq_zero] at hcount
  exact hcount (stem_subset _ hc)

section Block

variable {b : DocBlock} (h : Documentable b.description b.tags)

include h

theorem Documentable.not_closing_errorName : ¬ Comment.closing <:+: (errorName b).toList := by
  unfold errorName
  split
  · rename_i word hword
    obtain ⟨t, ht, hword⟩ := Option.bind_eq_some_iff.mp hword
    have hmem : t ∈ b.tags := List.mem_of_find?_eq_some ht
    rw [String.toList_ofList]
    exact fun hc => (h.value t hmem).noClosing (hc.trans (Text.firstWord?_isInfix hword))
  · rw [String.toList_ofList]
    exact (IsInert.of_not_mem (slash_not_mem_fileStem b.filePath)).noClosing

theorem Documentable.not_closing_name {t : Tag} (ht : t ∈ b.tags) :
    ¬ Comment.closing <:+: t.name.toList := fun hc =>
  absurd ((h.name t ht).identifier '*' (hc.subset (by decide))) (by decide)

theorem Documentable.not_closing_ofTag {t : Tag} (ht : t ∈ b.tags) :
    ¬ Comment.closing <:+: (SchemeTag.ofTag t).description.toList := by
  rw [SchemeTag.ofTag, String.toList_ofList]
  exact fun hc => (h.value t ht).noClosing (hc.trans (Text.trim_isInfix _))

theorem Documentable.unclosed_ofBlock? {e : SchemeError} (he : SchemeError.ofBlock? b = some e) :
    e.toJson.Unclosed := by
  unfold SchemeError.ofBlock? at he
  split_ifs at he
  obtain rfl := Option.some.inj he
  refine .object (by simp [Comment.closing, Text.pair_infix_cons]) ?_
  simp only [List.forall_mem_cons, List.not_mem_nil, false_imp_iff, implies_true, and_true]
  refine ⟨.string h.not_closing_errorName, .string h.description.noClosing, .array ?_⟩
  rw [List.map_map, List.forall_mem_map]
  intro t ht
  refine .object (by simp [Comment.closing, Text.pair_infix_cons]) ?_
  simp only [List.forall_mem_cons, List.not_mem_nil, false_imp_iff, implies_true, and_true]
  exact ⟨.string (h.not_closing_name ht), .string (h.not_closing_ofTag ht)⟩

end Block

/-! ## What a project says -/

/-- Projects that do not close a comment in what they say. -/
structure ProjectMeta.Unclosed (p : ProjectMeta) : Prop where
  projectName : ¬ Comment.closing <:+: p.projectName.toList
  description : ¬ Comment.closing <:+: p.description.toList
  version : ¬ Comment.closing <:+: p.version.toList

namespace ErrorScheme

theorem not_closing_fieldOr {project : Option ProjectMeta} {field : ProjectMeta → String}
    {other : String} (hother : ¬ Comment.closing <:+: other.toList)
    (hfield : ∀ p ∈ project, ¬ Comment.closing <:+: (field p).toList) :
    ¬ Comment.closing <:+: (fieldOr project field other).toList := by
  unfold fieldOr
  split
  · exact hother
  · rename_i s _ hs
    obtain ⟨p, hp, rfl⟩ := Option.map_eq_some_iff.mp hs
    exact hfield p hp
  · exact hother

theorem slash_not_mem_natText (n : Nat) : '/' ∉ (Number.natText n).toList := by
  rw [Number.natText, String.toList_ofList, Number.renderNat]
  intro h
  have hdigit : '/'.isDigit = true := Nat.isDigit_of_mem_toDigits (by omega) (by omega) h
  exact absurd hdigit (by decide)

theorem not_closing_defaultDescription (scan : ScanResult) :
    ¬ Comment.closing <:+: (defaultDescription scan).toList := by
  have happend {s t : String} (hs : '/' ∉ s.toList) (ht : '/' ∉ t.toList) :
      '/' ∉ (s ++ t).toList := by
    rw [String.toList_append, List.mem_append, not_or]
    exact ⟨hs, ht⟩
  unfold defaultDescription
  refine (IsInert.of_not_mem (happend (happend (happend (happend ?_
    (slash_not_mem_natText _)) ?_) (slash_not_mem_natText _)) ?_)).noClosing
  · simp
  · simp
  · simp

section Scan

variable {scan : ScanResult} {project : Option ProjectMeta}
  (hblocks : ∀ b ∈ scan.blocks, ∃ path text, b ∈ extractDocs path text)
  (hproject : ∀ p ∈ project, p.Unclosed)

include hblocks hproject

theorem unclosed_ofScan : (ofScan scan project).toJson.Unclosed := by
  refine .object (by simp [Comment.closing, Text.pair_infix_cons]) ?_
  simp only [List.forall_mem_cons, List.not_mem_nil, false_imp_iff, implies_true, and_true]
  refine ⟨.string ?_, .string ?_, .string ?_, .array ?_⟩
  · refine not_closing_fieldOr ?_ fun p hp => (hproject p hp).projectName
    simp [defaultName, Comment.closing, Text.pair_infix_cons]
  · exact not_closing_fieldOr (not_closing_defaultDescription scan)
      fun p hp => (hproject p hp).description
  · refine not_closing_fieldOr ?_ fun p hp => (hproject p hp).version
    simp [defaultVersion, Comment.closing, Text.pair_infix_cons]
  · rw [List.forall_mem_map]
    intro e he
    obtain ⟨b, hb, hbe⟩ := List.mem_filterMap.mp he
    obtain ⟨path, text, hdoc⟩ := hblocks b hb
    exact (documentable_of_mem_extractDocs hdoc).unclosed_ofBlock? hbe

theorem not_closing_render_ofScan : ¬ Comment.closing <:+: (ofScan scan project).render :=
  (unclosed_ofScan hblocks hproject).isInert_pretty.noClosing

/-- **A written scheme has no comments in it.** -/
theorem blocks_render_ofScan : Comment.blocks (ofScan scan project).render = [] :=
  Comment.blocks_eq_nil (not_closing_render_ofScan hblocks hproject)

/-- A file that a scheme is written to has no documentation of its own. -/
theorem extractDocs_encode_render (path : Path) :
    extractDocs path (Utf8.decodeLossy (Utf8.encode (ofScan scan project).render)) = [] := by
  rw [Utf8.decodeLossy_encode]
  exact extractDocs_eq_nil path (not_closing_render_ofScan hblocks hproject)

end Scan

end ErrorScheme

end ErrorDocs
