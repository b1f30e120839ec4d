import ErrorDocs.Proofs.Comment.TagLine
import ErrorDocs.Scheme.Basic

/-!
# Which comments document an error

A scheme has an entry for each block with an `error` tag. Which comments of a text these are is
decided by what is written between their delimiters: one of the lines has to open that tag.

* `Comment.DocumentsError`: the comments with such a line.
* `isError_iff_documentsError`: these are the blocks with an `error` tag.
* **`errors_ofScan_extractDocs`**: the part of a scheme that comes from one text.
-/

namespace ErrorDocs

namespace Comment

/-- Comments with a line that opens an `error` tag. -/
def DocumentsError (raw : List Char) : Prop :=
  ∃ line ∈ Text.splitLines (body raw), OpensTag errorTag.toList line

theorem isTagName_errorTag : IsTagName errorTag.toList where
  ne_nil := by simp [errorTag]
  identifier := by simp [errorTag, Tag.isIdentifier]

instance (raw : List Char) : Decidable (DocumentsError raw) :=
  decidable_of_iff (∃ line ∈ Text.splitLines (body raw),
      Tag.nameOf? (contentLine line) = some errorTag.toList) <| by
    simp only [DocumentsError, nameOf?_contentLine_eq_some_iff isTagName_errorTag]

end Comment

/-- The entry of a block in the scheme, whether or not the block gets one. -/
def SchemeError.ofBlock (b : DocBlock) : SchemeError where
  name := errorName b
  description := b.description
  tags := b.tags.map SchemeTag.ofTag

theorem SchemeError.filterMap_ofBlock? (bs : List DocBlock) :
    bs.filterMap ofBlock? = (bs.filter DocBlock.isError).map ofBlock := by
  induction bs with
  | nil => rfl
  | cons b bs ih =>
    by_cases hb : b.isError = true
    · have hentry : ofBlock? b = some (ofBlock b) := if_pos hb
      rw [List.filterMap_cons_some hentry, List.filter_cons_of_pos hb, List.map_cons, ih]
    · have hentry : ofBlock? b = none := if_neg hb
      rw [List.filterMap_cons_none hentry, List.filter_cons_of_neg hb, ih]

theorem DocBlock.isError_iff (b : DocBlock) :
    b.isError = true ↔ errorTag ∈ b.tags.map (·.name) := by
  simp [isError, findTag?]

/-- **The blocks that document an error are those with a line that opens an `error` tag.** -/
theorem isError_iff_documentsError {path : Path} {text : List Char} {b : DocBlock}
    (hb : b ∈ extractDocs path text) :
    b.isError = true ↔ Comment.DocumentsError b.raw.toList := by
  obtain ⟨block, hblock, rfl⟩ := List.mem_map.mp hb
  obtain ⟨-, inner, -, -, -, hraw, -⟩ := Comment.exists_of_mem_blocks hblock
  have hnames := mem_names_content_iff Comment.isTagName_errorTag inner
  rw [String.ofList_toList] at hnames
  rw [DocBlock.isError_iff, String.toList_ofList, hraw, hnames, Comment.DocumentsError,
    Comment.body_block]

/-- **The part of a scheme that comes from one text.** Wherever its blocks stand in a scan, those
with a line that opens an `error` tag, and no others, have an entry each, in the order of the
comments of the text. -/
theorem ErrorScheme.errors_ofScan_extractDocs (scan : ScanResult) (project : Option ProjectMeta)
    (path : Path) (text : List Char) (before after : List DocBlock) :
    (extractDocs path text).map (·.raw.toList) = (Comment.blocks text).map (·.raw) ∧
      (∀ b ∈ Comment.blocks text,
        b.raw = Comment.opening ++ Comment.body b.raw ++ Comment.closing) ∧
      (ofScan { scan with blocks := before ++ extractDocs path text ++ after } project).errors =
        before.filterMap SchemeError.ofBlock? ++
          ((extractDocs path text).filter fun b => Comment.DocumentsError b.raw.toList).map
            SchemeError.ofBlock ++
          after.filterMap SchemeError.ofBlock? := by
  refine ⟨?_, ?_, ?_⟩
  · simp [extractDocs, Function.comp_def]
  · intro b hb
    obtain ⟨-, inner, -, -, -, hraw, -⟩ := Comment.exists_of_mem_blocks hb
    rw [hraw, Comment.body_block]
  · have hselected : (extractDocs path text).filter DocBlock.isError =
        (extractDocs path text).filter fun b => Comment.DocumentsError b.raw.toList := by
      refine List.filter_congr fun b hb => ?_
      rw [Bool.eq_iff_iff, decide_eq_true_iff, isError_iff_documentsError hb]
    rw [ofScan, List.filterMap_append, List.filterMap_append, SchemeError.filterMap_ofBlock?,
      SchemeError.filterMap_ofBlock?, SchemeError.filterMap_ofBlock?, hselected]

end ErrorDocs
