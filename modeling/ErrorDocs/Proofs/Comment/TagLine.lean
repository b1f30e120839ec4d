import ErrorDocs.Proofs.Comment.Documentable

/-!
# Where a tag is opened

Whether a comment has a tag of some name can be seen from its lines as they are written: one of
them opens the tag, after blanks and at most one star. That the comment first loses its delimiters,
its blanks at either end, the carriage returns and the stars makes no difference.

* `Comment.OpensTag`: the lines that open a tag of a given name.
* `nameOf?_contentLine_eq_some_iff`: these are the lines whose content is a tag line of that name.
* `map_name_parseLines`: the names of the tags are those of the tag lines.
* **`mem_names_content_iff`**: which comments have a tag of a given name.
-/

namespace ErrorDocs

namespace Text

/-! ## Lines without the blanks around a text -/

/-- Properties of a line that blanks at either end do not matter to, and that a blank line does not
have. -/
structure IgnoresBlanks (p : List Char → Prop) : Prop where
  start : ∀ {u l : List Char}, (∀ c ∈ u, isBlank c = true) → (p (u ++ l) ↔ p l)
  ending : ∀ {v l : List Char}, (∀ c ∈ v, isBlank c = true) → (p (l ++ v) ↔ p l)
  blank : ¬ p []

namespace IgnoresBlanks

variable {p : List Char → Prop} (hp : IgnoresBlanks p)

include hp

theorem not_of_mem_splitLines {v l : List Char} (hv : ∀ c ∈ v, isBlank c = true)
    (hl : l ∈ splitLines v) : ¬ p l := by
  have hblank : ∀ c ∈ l, isBlank c = true := fun c hc =>
    hv c ((infix_of_mem_splitLines hl).subset hc)
  have := hp.ending (l := []) hblank
  rw [List.nil_append] at this
  rw [this]
  exact hp.blank

theorem exists_splitLines_append {s v : List Char} (hv : ∀ c ∈ v, isBlank c = true) :
    (∃ l ∈ splitLines (s ++ v), p l) ↔ ∃ l ∈ splitLines s, p l := by
  obtain ⟨init, l₁, l₂, rest, hs, ht, hst⟩ := splitLines_append s v
  have hrest : ∀ l ∈ rest, ¬ p l := fun l hl =>
    hp.not_of_mem_splitLines hv (by rw [ht]; exact List.mem_cons_of_mem _ hl)
  have hjoin : p (l₁ ++ l₂) ↔ p l₁ := by
    refine hp.ending fun c hc => hv c ?_
    exact (infix_of_mem_splitLines (by rw [ht]; exact List.mem_cons_self)).subset hc
  have hnone : ¬ ∃ l ∈ rest, p l := fun ⟨l, hl, hpl⟩ => hrest l hl hpl
  rw [hs, hst]
  simp only [List.mem_append, List.mem_cons, List.not_mem_nil, or_false, or_and_right, exists_or,
    exists_eq_left, hjoin, hnone]

theorem exists_splitLines_blank_append {u s : List Char} (hu : ∀ c ∈ u, isBlank c = true) :
    (∃ l ∈ splitLines (u ++ s), p l) ↔ ∃ l ∈ splitLines s, p l := by
  obtain ⟨init, l₁, l₂, rest, hs, ht, hst⟩ := splitLines_append u s
  have hinit : ∀ l ∈ init, ¬ p l := fun l hl =>
    hp.not_of_mem_splitLines hu (by rw [hs]; exact List.mem_append_left _ hl)
  have hjoin : p (l₁ ++ l₂) ↔ p l₂ := by
    refine hp.start fun c hc => hu c ?_
    exact (infix_of_mem_splitLines (by rw [hs]; simp)).subset hc
  have hnone : ¬ ∃ l ∈ init, p l := fun ⟨l, hl, hpl⟩ => hinit l hl hpl
  rw [ht, hst]
  simp only [List.mem_append, List.mem_cons, or_and_right, exists_or, exists_eq_left, hjoin, hnone,
    false_or]

/-- The lines of a text may be looked at before or after it loses one blank at its start and all
blanks at its end. -/
theorem exists_splitLines_trim (s : List Char) :
    (∃ l ∈ splitLines (trimEnd (dropBlank s)), p l) ↔ ∃ l ∈ splitLines s, p l := by
  obtain ⟨u, hu, hs⟩ := exists_eq_append_dropBlank s
  obtain ⟨v, hv, ht⟩ := exists_eq_trimEnd_append (dropBlank s)
  conv_rhs => rw [hs]
  rw [hp.exists_splitLines_blank_append hu]
  conv_rhs => rw [ht]
  rw [hp.exists_splitLines_append hv]

end IgnoresBlanks

end Text

/-! ## Tag lines of a given name -/

namespace Tag

/-- The name of the tag that a line opens. -/
def nameOf? (line : List Char) : Option (List Char) :=
  (splitTagLine? line).map (·.1)

theorem nameOf?_eq_none {line : List Char} (h : isTagLine line = false) : nameOf? line = none := by
  rw [isTagLine_eq_isSome, Option.isSome_eq_false_iff, Option.isNone_iff_eq_none] at h
  rw [nameOf?, h, Option.map_none]

theorem nameOf?_congr {l l' : List Char} (h : Text.trimStart l = Text.trimStart l') :
    nameOf? l = nameOf? l' := by
  rw [nameOf?, nameOf?, splitTagLine?, splitTagLine?, h]

theorem nameOf?_eq_some_iff {name line : List Char} (hname : IsTagName name) :
    nameOf? line = some name ↔
      ∃ w rest, (∀ c ∈ w, Text.isBlank c = true) ∧ line = w ++ marker :: (name ++ rest) ∧
        ∀ c, rest.head? = some c → isIdentifier c = false := by
  constructor
  · intro h
    obtain ⟨⟨name', value⟩, hsplit, rfl⟩ := Option.map_eq_some_iff.mp h
    obtain ⟨w, w', hw, -, hline, -, -, hnext, -⟩ := splitTagLine?_eq_some_iff.mp hsplit
    exact ⟨w, w' ++ value, hw, hline, hnext⟩
  · rintro ⟨w, rest, hw, hline, hnext⟩
    obtain ⟨w', hw', hrest⟩ := Text.exists_eq_append_trimStart rest
    have hsplit : splitTagLine? line = some (name, Text.trimStart rest) := by
      refine splitTagLine?_eq_some_iff.mpr ⟨w, w', hw, hw', ?_, hname.ne_nil, hname.identifier, ?_, ?_⟩
      · rw [hline, ← hrest]
      · rwa [← hrest]
      · exact fun c => Text.isBlank_head?_trimStart
    rw [nameOf?, hsplit, Option.map_some]

end Tag

namespace Comment

/-- Lines of a comment that open a tag of the given name: blanks, at most one star, blanks, and
the name behind its marker, after which no character of a name comes. -/
def OpensTag (name line : List Char) : Prop :=
  ∃ before stars between rest, (∀ c ∈ before, Text.isBlank c = true) ∧
    (stars = [] ∨ stars = [lineMarker]) ∧ (∀ c ∈ between, Text.isBlank c = true) ∧
    line = before ++ (stars ++ (between ++ Tag.marker :: (name ++ rest))) ∧
    ∀ c, rest.head? = some c → Tag.isIdentifier c = false

section

variable {name : List Char}

theorem OpensTag.blank_append {u l : List Char} (hu : ∀ c ∈ u, Text.isBlank c = true)
    (h : OpensTag name l) : OpensTag name (u ++ l) := by
  obtain ⟨before, stars, between, rest, hbefore, hstars, hbetween, rfl, hrest⟩ := h
  exact ⟨u ++ before, stars, between, rest, List.forall_mem_append.mpr ⟨hu, hbefore⟩, hstars,
    hbetween, by simp, hrest⟩

/-- A line opens a tag if what follows its blanks does. -/
theorem opensTag_iff_trimStart {l : List Char} :
    OpensTag name l ↔ OpensTag name (Text.trimStart l) := by
  obtain ⟨u, hu, hl⟩ := Text.exists_eq_append_trimStart l
  constructor
  · rintro ⟨before, stars, between, rest, hbefore, hstars, hbetween, rfl, hrest⟩
    rw [Text.trimStart_blank_append hbefore]
    rcases hstars with rfl | rfl
    · refine ⟨[], [], [], rest, by simp, .inl rfl, by simp, ?_, hrest⟩
      rw [List.nil_append, Text.trimStart_blank_append hbetween]
      exact Text.trimStart_eq_self_iff.mpr (by rintro c ⟨⟩; rfl)
    · refine ⟨[], [lineMarker], between, rest, by simp, .inr rfl, hbetween, ?_, hrest⟩
      exact Text.trimStart_eq_self_iff.mpr (by rintro c ⟨⟩; rfl)
  · intro h
    rw [hl]
    exact h.blank_append hu

theorem not_opensTag_nil : ¬ OpensTag name [] := by
  rintro ⟨before, stars, between, rest, -, -, -, hline, -⟩
  have := congrArg List.length hline
  simp at this

variable (hname : IsTagName name)

include hname

theorem opensTag_append_blank {l v : List Char} (hv : ∀ c ∈ v, Text.isBlank c = true) :
    OpensTag name (l ++ v) ↔ OpensTag name l := by
  constructor
  · rintro ⟨before, stars, between, rest, hbefore, hstars, hbetween, hline, hrest⟩
    -- what comes before `rest` does not end with a blank, so that it lies in `l`
    set opened := before ++ (stars ++ (between ++ Tag.marker :: name)) with hopened
    have hcut : l ++ v = opened ++ rest := by rw [hline, hopened]; simp
    rcases List.append_eq_append_iff.mp hcut with ⟨w, hw, hvw⟩ | ⟨w, hw, hrw⟩
    · rcases List.eq_nil_or_concat' w with rfl | ⟨w', c, rfl⟩
      · refine ⟨before, stars, between, [], hbefore, hstars, hbetween, ?_, by simp⟩
        rw [List.append_nil] at hw
        rw [← hw, hopened]
        simp
      · exfalso
        have hlast : opened.getLast? = some c := by rw [hw, ← List.append_assoc]; simp
        have hend : opened.getLast? = name.getLast? := by
          rw [hopened, show before ++ (stars ++ (between ++ Tag.marker :: name)) =
            (before ++ (stars ++ (between ++ [Tag.marker]))) ++ name by simp,
            List.getLast?_append_of_ne_nil _ hname.ne_nil]
        have hblank := hv c (by rw [hvw]; simp)
        rw [hend] at hlast
        rw [Tag.isBlank_of_isIdentifier (hname.identifier c (List.mem_of_getLast? hlast))] at hblank
        cases hblank
    · refine ⟨before, stars, between, w, hbefore, hstars, hbetween, ?_, fun c hc => hrest c ?_⟩
      · rw [hw, hopened]
        simp
      · rw [hrw, List.head?_append, hc, Option.some_or]
  · rintro ⟨before, stars, between, rest, hbefore, hstars, hbetween, rfl, hrest⟩
    refine ⟨before, stars, between, rest ++ v, hbefore, hstars, hbetween, by simp, fun c hc => ?_⟩
    rw [List.head?_append] at hc
    rcases Option.or_eq_some_iff.mp hc with hc | ⟨-, hc⟩
    · exact hrest c hc
    · -- blanks are no part of a name
      rw [Bool.eq_false_iff]
      intro hident
      have hblank := hv c (List.mem_of_head? hc)
      rw [Tag.isBlank_of_isIdentifier hident] at hblank
      cases hblank

theorem ignoresBlanks_opensTag : Text.IgnoresBlanks (OpensTag name) where
  start {u l} hu := by
    rw [opensTag_iff_trimStart, Text.trimStart_blank_append hu, ← opensTag_iff_trimStart]
  ending := opensTag_append_blank hname
  blank := not_opensTag_nil

theorem opensTag_star_cons_iff {r : List Char} :
    OpensTag name (lineMarker :: r) ↔ Tag.nameOf? r = some name := by
  rw [Tag.nameOf?_eq_some_iff hname]
  constructor
  · rintro ⟨before, stars, between, rest, hbefore, hstars, hbetween, hline, hrest⟩
    cases before with
    | nil =>
      rcases hstars with rfl | rfl
      · -- a marker is no star, and neither is a blank
        cases between with
        | nil => exact absurd (List.cons.inj hline).1 (by decide)
        | cons b between =>
          obtain ⟨rfl, -⟩ := List.cons.inj hline
          exact absurd (hbetween _ List.mem_cons_self) (by decide)
      · exact ⟨between, rest, hbetween, (List.cons.inj hline).2, hrest⟩
    | cons b before =>
      obtain ⟨rfl, -⟩ := List.cons.inj hline
      exact absurd (hbefore _ List.mem_cons_self) (by decide)
  · rintro ⟨w, rest, hw, rfl, hrest⟩
    exact ⟨[], [lineMarker], w, rest, by simp, .inr rfl, hw, rfl, hrest⟩

theorem opensTag_cons_iff {c : Char} (hc : c ≠ lineMarker) (hb : Text.isBlank c = false)
    {r : List Char} : OpensTag name (c :: r) ↔ Tag.nameOf? (c :: r) = some name := by
  rw [Tag.nameOf?_eq_some_iff hname]
  constructor
  · rintro ⟨before, stars, between, rest, hbefore, hstars, hbetween, hline, hrest⟩
    cases before with
    | nil =>
      rcases hstars with rfl | rfl
      · exact ⟨between, rest, hbetween, hline, hrest⟩
      · exact absurd (List.cons.inj hline).1 hc
    | cons b before =>
      obtain ⟨rfl, -⟩ := List.cons.inj hline
      rw [hbefore c List.mem_cons_self] at hb
      cases hb
  · rintro ⟨w, rest, hw, hline, hrest⟩
    exact ⟨w, [], [], rest, hw, .inl rfl, by simp, hline, hrest⟩

/-- **The lines that open a tag are those whose content is a tag line.** -/
theorem nameOf?_contentLine_eq_some_iff {line : List Char} :
    Tag.nameOf? (contentLine line) = some name ↔ OpensTag name line := by
  have hreturn : OpensTag name line ↔ OpensTag name (Text.dropReturn line) := by
    unfold Text.dropReturn
    split_ifs with hlast
    · obtain ⟨l, rfl⟩ := List.getLast?_eq_some_iff.mp hlast
      rw [List.dropLast_concat, opensTag_append_blank hname (List.all_eq_true.mp (by decide))]
    · exact Iff.rfl
  rw [hreturn, opensTag_iff_trimStart, contentLine]
  cases hl : Text.trimStart (Text.dropReturn line) with
  | nil =>
    refine iff_of_false ?_ not_opensTag_nil
    simp [Tag.nameOf?, Tag.splitTagLine?, Text.trimStart]
  | cons c r =>
    dsimp only
    split_ifs with hc
    · subst hc
      rw [opensTag_star_cons_iff hname, Tag.nameOf?_congr (Text.trimStart_dropBlank r)]
    · have hb : Text.isBlank c = false := Text.isBlank_head?_trimStart (by rw [hl]; rfl)
      rw [opensTag_cons_iff hname hc hb]

end

end Comment

/-! ## Tags of a comment -/

theorem Segment.filterMap_nameOf? (s : Segment) :
    s.lines.filterMap Tag.nameOf? = [s.parts.1] := by
  have hrest : s.rest.filterMap Tag.nameOf? = [] :=
    List.filterMap_eq_nil_iff.mpr fun l hl => Tag.nameOf?_eq_none (s.isTagLine_rest l hl)
  have hhead : Tag.nameOf? s.head = some s.parts.1 := by
    rw [Tag.nameOf?, s.splitTagLine?_head, Option.map_some]
  rw [Segment.lines, List.filterMap_cons_some hhead, hrest]

/-- **The names of the tags are those of the tag lines.** -/
theorem map_name_parseLines (lines : List (List Char)) :
    (parseLines lines).tags.map (·.name) =
      (lines.filterMap Tag.nameOf?).map String.ofList := by
  obtain ⟨ds, segs, hds, rfl⟩ := exists_segments lines
  have hnone : ds.filterMap Tag.nameOf? = [] :=
    List.filterMap_eq_nil_iff.mpr fun l hl => Tag.nameOf?_eq_none (hds l hl)
  have hsegs : (segs.flatMap Segment.lines).filterMap Tag.nameOf? = segs.map (·.parts.1) := by
    induction segs with
    | nil => rfl
    | cons s segs ih =>
      rw [List.flatMap_cons, List.filterMap_append, ih, s.filterMap_nameOf?]
      rfl
  rw [parseLines_segments hds, List.filterMap_append, hnone, List.nil_append, hsegs, List.map_map,
    List.map_map]
  rfl

/-- **Which comments have a tag of a given name.** -/
theorem mem_names_content_iff {name : List Char} (hname : IsTagName name) (inner : List Char) :
    String.ofList name ∈ (parseLines
        (Comment.content (Comment.opening ++ inner ++ Comment.closing))).tags.map (·.name) ↔
      ∃ line ∈ Text.splitLines inner, Comment.OpensTag name line := by
  have hmem : ∀ names : List (List Char),
      String.ofList name ∈ names.map String.ofList ↔ name ∈ names := fun names =>
    List.mem_map_of_injective fun _ _ h => String.ofList_injective h
  rw [map_name_parseLines, hmem, List.mem_filterMap, Comment.content, Comment.inside_block,
    ← (Comment.ignoresBlanks_opensTag hname).exists_splitLines_trim inner]
  simp [Comment.nameOf?_contentLine_eq_some_iff hname]

end ErrorDocs
