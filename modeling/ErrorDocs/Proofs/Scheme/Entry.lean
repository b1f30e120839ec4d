import ErrorDocs.Proofs.Scheme.Selection
import ErrorDocs.Proofs.Text.Cut
import Mathlib.Data.List.Forall2

/-!
# Entries of a scheme

An entry repeats the description and the tags of its block, with the blanks around the values gone.
Its name is taken from the value as it is written in the block, and yet it fits the value as it is
published: it is the first word of that, or the stem of the file where nothing is published.

* `Text.Trims`, `Text.IsFirstWord`, `IsStem`: these notions, said without the functions that
  compute them.
* `isFirstWord_trim`, `isStem_stem`: the functions meet them.
* **`errors_ofScan_documented`**: the entries of a scheme and the blocks that they document.
-/

namespace ErrorDocs

namespace Text

/-- The second text is the first without the blanks at its ends. -/
structure Trims (s t : List Char) : Prop where
  around : ∃ u v, (∀ c ∈ u ++ v, isBlank c = true) ∧ s = u ++ t ++ v
  first : ∀ c ∈ t.head?, isBlank c = false
  last : ∀ c ∈ t.getLast?, isBlank c = false

/-- The second text is what the first starts with, up to its end or to a blank. -/
structure IsFirstWord (s word : List Char) : Prop where
  ne_nil : word ≠ []
  solid : ∀ c ∈ word, isBlank c = false
  ends : ∃ rest, s = word ++ rest ∧ ∀ c ∈ rest.head?, isBlank c = true

theorem trims_trim (s : List Char) : Trims s (trim s) where
  around := by
    obtain ⟨u, hu, hs⟩ := exists_eq_append_trimStart s
    obtain ⟨v, hv, ht⟩ := exists_eq_trimEnd_append (trimStart s)
    refine ⟨u, v, fun c hc => (List.mem_append.mp hc).elim (hu c) (hv c), ?_⟩
    rw [trim, List.append_assoc, ← ht, ← hs]
  first _ hc := isBlank_head?_trim hc
  last _ hc := isBlank_getLast?_trimEnd hc

theorem firstWord?_eq_some {s word : List Char} (h : firstWord? s = some word) :
    word = (trimStart s).takeWhile (fun c => !isBlank c) ∧ word ≠ [] := by
  unfold firstWord? at h
  split at h
  · cases h
  · rename_i hne
    obtain rfl := Option.some.inj h
    exact ⟨rfl, hne⟩

theorem trim_eq_nil_of_firstWord? {s : List Char} (h : firstWord? s = none) : trim s = [] := by
  have htake : (trimStart s).takeWhile (fun c => !isBlank c) = [] := by
    unfold firstWord? at h
    split at h
    · assumption
    · cases h
  cases hs : trimStart s with
  | nil => rw [trim, hs]; rfl
  | cons c rest =>
    have hc : isBlank c = false := isBlank_head?_trimStart (by rw [hs]; rfl)
    rw [hs, List.takeWhile_cons_of_pos (by simp [hc])] at htake
    cases htake

/-- The first word of a text is the first word of the trimmed text, too. -/
theorem isFirstWord_trim {s word : List Char} (h : firstWord? s = some word) :
    IsFirstWord (trim s) word := by
  obtain ⟨hword, hne⟩ := firstWord?_eq_some h
  have hsolid : ∀ c ∈ word, isBlank c = false := by
    intro c hc
    rw [hword] at hc
    simpa using List.mem_takeWhile_imp hc
  set rest := (trimStart s).dropWhile (fun c => !isBlank c) with hrest
  have hs : trimStart s = word ++ rest := by
    rw [hword]
    exact List.takeWhile_append_dropWhile.symm
  have hblank : ∀ c ∈ rest.head?, isBlank c = true := by
    intro c hc
    have hnot := List.head?_dropWhile_not (fun c => !isBlank c) (trimStart s)
    rw [← hrest, hc] at hnot
    simpa using hnot
  refine ⟨hne, hsolid, ?_⟩
  -- trimming reaches the word only if nothing but blanks follows, and then it stops there
  by_cases hend : trimEnd rest = []
  · obtain ⟨v, hv, hall⟩ := exists_eq_trimEnd_append rest
    rw [hend, List.nil_append] at hall
    have hkept : trimEnd word = word :=
      trimEnd_eq_self_iff.mpr fun c hc => hsolid c (List.mem_of_getLast? hc)
    refine ⟨[], ?_, by simp⟩
    rw [trim, hs, hall, trimEnd_append_blank hv, hkept, List.append_nil]
  · refine ⟨trimEnd rest, ?_, fun c hc => hblank c (head?_trimEnd hc)⟩
    rw [trim, hs, trimEnd_append_solid hend]

end Text

/-! ## The stem of a file name -/

/-- The second text is the part of the first before its last dot, if something follows that dot,
and all of it otherwise. -/
structure IsStem (fileName stem : List Char) : Prop where
  cut : ∀ before after, fileName = before ++ '.' :: after → '.' ∉ after → after ≠ [] →
    stem = before
  whole : (∀ before after, fileName = before ++ '.' :: after → '.' ∉ after → after = []) →
    stem = fileName

theorem cutAtLastDot?_eq (s : List Char) : cutAtLastDot? s = Text.cutAtLast? '.' s := by
  unfold cutAtLastDot? Text.cutAtLast?
  cases s.reverse.dropWhile (· != '.') <;> rfl

theorem cutAtLastDot?_eq_some_iff {s before after : List Char} :
    cutAtLastDot? s = some (before, after) ↔ s = before ++ '.' :: after ∧ '.' ∉ after := by
  rw [cutAtLastDot?_eq, Text.cutAtLast?_eq_some_iff]

theorem isStem_stem (fileName : List Char) : IsStem fileName (stem fileName) := by
  constructor
  · intro before after hname hafter hne
    have hcut := cutAtLastDot?_eq_some_iff.mpr ⟨hname, hafter⟩
    obtain ⟨c, after, rfl⟩ := List.exists_cons_of_ne_nil hne
    rw [stem, hcut]
  · intro hlast
    unfold stem
    split
    · rename_i before c after hcut
      obtain ⟨hname, hafter⟩ := cutAtLastDot?_eq_some_iff.mp hcut
      cases hlast before (c :: after) hname hafter
    · rfl

/-! ## Entries and their blocks -/

/-- What an entry of the scheme has to do with the block that it documents. -/
structure SchemeError.Documents (b : DocBlock) (e : SchemeError) : Prop where
  description : e.description = b.description
  /-- The tags are those of the block, in order. -/
  tags : List.Forall₂
    (fun t u => u.name = t.name ∧ Text.Trims t.raw.toList u.description.toList) b.tags e.tags
  /-- The name goes by the first `error` tag of the entry, and by the file if that tag says
  nothing. -/
  name : ∃ first, e.tags.find? (·.name == errorTag) = some first ∧
    (first.description ≠ "" → Text.IsFirstWord first.description.toList e.name.toList) ∧
    (first.description = "" →
      IsStem (Utf8.decodeLossy (b.filePath.fileName?.getD [])) e.name.toList)

theorem SchemeError.documents_ofBlock {b : DocBlock} (h : b.isError = true) :
    Documents b (ofBlock b) := by
  obtain ⟨t, ht⟩ := Option.isSome_iff_exists.mp h
  have hfind : (ofBlock b).tags.find? (·.name == errorTag) = some (SchemeTag.ofTag t) := by
    have hfound : b.tags.find? (·.name == errorTag) = some t := ht
    have hname : (fun u : SchemeTag => u.name == errorTag) ∘ SchemeTag.ofTag =
        fun t : Tag => t.name == errorTag := rfl
    rw [ofBlock, List.find?_map, hname, hfound, Option.map_some]
  have htext : (SchemeTag.ofTag t).description.toList = Text.trim t.raw.toList :=
    String.toList_ofList
  refine ⟨rfl, ?_, SchemeTag.ofTag t, hfind, ?_⟩
  · rw [ofBlock, List.forall₂_map_right_iff, List.forall₂_same]
    intro u _
    refine ⟨rfl, ?_⟩
    rw [SchemeTag.ofTag, String.toList_ofList]
    exact Text.trims_trim _
  · cases hword : Text.firstWord? t.raw.toList with
    | none =>
      have hempty : (SchemeTag.ofTag t).description = "" :=
        String.toList_inj.mp (htext.trans (Text.trim_eq_nil_of_firstWord? hword))
      refine ⟨fun hne => absurd hempty hne, fun _ => ?_⟩
      have hname : errorName b = String.ofList (fileStem b.filePath) := by
        simp [errorName, ht, hword]
      rw [ofBlock, hname, String.toList_ofList]
      exact isStem_stem _
    | some word =>
      have hfirst := Text.isFirstWord_trim hword
      have hname : errorName b = String.ofList word := by
        simp [errorName, ht, hword]
      rw [htext, ofBlock, hname, String.toList_ofList]
      refine ⟨fun _ => hfirst, fun hempty => ?_⟩
      obtain ⟨rest, htrim, -⟩ := hfirst.ends
      rw [hempty, htrim] at htext
      exact absurd (List.append_eq_nil_iff.mp htext.symm).1 hfirst.ne_nil

/-- **The entries of a scheme** and the blocks with an `error` tag belong together one by one, in
order, and each entry fits its block and its own tags. -/
theorem ErrorScheme.errors_ofScan_documented (scan : ScanResult) (project : Option ProjectMeta) :
    List.Forall₂ SchemeError.Documents
      (scan.blocks.filter fun b => ∃ t ∈ b.tags, t.name = errorTag)
      (ofScan scan project).errors := by
  have hselected : (scan.blocks.filter fun b => ∃ t ∈ b.tags, t.name = errorTag) =
      scan.blocks.filter DocBlock.isError := by
    refine List.filter_congr fun b _ => ?_
    rw [Bool.eq_iff_iff, decide_eq_true_iff, DocBlock.isError_iff, List.mem_map]
  rw [hselected, ofScan, SchemeError.filterMap_ofBlock?, List.forall₂_map_right_iff,
    List.forall₂_same]
  intro b hb
  exact SchemeError.documents_ofBlock (List.mem_filter.mp hb).2

end ErrorDocs
