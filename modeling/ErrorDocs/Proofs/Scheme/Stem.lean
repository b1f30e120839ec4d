import ErrorDocs.Proofs.Scheme.Entry

/-!
# Stems and extensions

A file name is cut at its last dot in two places: among its bytes for the extension, and in its text
for the stem. Reading keeps the dots and goes through a cut at one, so both cuts are at the same
dot, whatever the bytes around it are. What differs is only what becomes of a dot at an end of the name:
behind a first dot there is no extension, and before a last one no stem but the whole name.

* `Path.HasExtension`: the file names with and without an extension.
* `fileStem_of_cut`, `fileStem_of_end`, `fileStem_of_no_dot`: the stem of a file name.
* **`fileStem_agrees_with_extension`**: the two together.
-/

namespace ErrorDocs

/-! ## The extension -/

namespace Path

variable {p : Path} {n : Name}

theorem cutAtLastDot?_eq (n : Name) : cutAtLastDot? n = Text.cutAtLast? dot n := by
  unfold cutAtLastDot? Text.cutAtLast?
  cases n.reverse.dropWhile (· != dot) <;> rfl

theorem ne_here_of_fileName? (h : p.fileName? = some n) : n ≠ here := by
  unfold fileName? at h
  dsimp only at h
  split_ifs at h with hidle
  obtain rfl := Option.some.inj h
  rintro hhere
  simp [isIdlePart, hhere] at hidle

theorem extension?_of_fileName? (h : p.fileName? = some n) :
    p.extension? = match cutAtLastDot? n with
      | some (_ :: _, after) => some after
      | _ => none := by
  rw [extension?, h]
  rfl

/-- What a file name and the extension of its path have to do with each other. -/
inductive HasExtension (n : Name) : Option Name → Prop
  /-- There is no dot. -/
  | plain : dot ∉ n → HasExtension n none
  /-- The only dot comes first, and something follows it. -/
  | hidden {after : Name} : n = dot :: after → dot ∉ after → after ≠ [] → HasExtension n none
  /-- The last dot has something before it. -/
  | cut {before after : Name} : n = before ++ dot :: after → dot ∉ after → before ≠ [] →
      HasExtension n (some after)

/-- **The extension of a path** as its file name has it. -/
theorem hasExtension_extension? (h : p.fileName? = some n) : HasExtension n p.extension? := by
  rw [extension?_of_fileName? h, cutAtLastDot?_eq]
  cases hcut : Text.cutAtLast? dot n with
  | none => exact .plain (Text.cutAtLast?_eq_none_iff.mp hcut)
  | some c =>
    obtain ⟨before, after⟩ := c
    obtain ⟨hn, hafter⟩ := Text.cutAtLast?_eq_some_iff.mp hcut
    cases before with
    | nil =>
      refine .hidden hn hafter ?_
      rintro rfl
      exact ne_here_of_fileName? h hn
    | cons b before => exact .cut hn hafter (List.cons_ne_nil b before)

end Path

/-! ## The stem -/

section Stem

variable {p : Path} {n : Name}

theorem decodeLossy_append_dot (before after : Name) :
    Utf8.decodeLossy (before ++ Path.dot :: after) =
      Utf8.decodeLossy before ++ '.' :: Utf8.decodeLossy after :=
  Utf8.decodeLossy_append_ascii before after (by decide)

theorem dot_mem_decodeLossy_iff {n : Name} : '.' ∈ Utf8.decodeLossy n ↔ Path.dot ∈ n := by
  rw [← List.count_pos_iff, ← List.count_pos_iff, ← Utf8.count_decodeLossy (by decide) n]
  rfl

theorem isStem_fileStem (h : p.fileName? = some n) :
    IsStem (Utf8.decodeLossy n) (fileStem p) := by
  rw [fileStem, h]
  exact isStem_stem _

theorem fileStem_of_no_dot (h : p.fileName? = some n) (hdot : Path.dot ∉ n) :
    fileStem p = Utf8.decodeLossy n := by
  refine (isStem_fileStem h).whole fun before after hn => ?_
  have hmem : '.' ∈ Utf8.decodeLossy n := by rw [hn]; exact List.mem_append_cons_self
  exact absurd (dot_mem_decodeLossy_iff.mp hmem) hdot

theorem fileStem_of_cut {before after : Name} (h : p.fileName? = some n)
    (hn : n = before ++ Path.dot :: after) (hafter : Path.dot ∉ after) (hne : after ≠ []) :
    fileStem p = Utf8.decodeLossy before := by
  refine (isStem_fileStem h).cut _ (Utf8.decodeLossy after) ?_ ?_ ?_
  · rw [hn, decodeLossy_append_dot]
  · rwa [dot_mem_decodeLossy_iff]
  · rwa [Ne, Utf8.decodeLossy_eq_nil_iff]

theorem fileStem_of_end {before : Name} (h : p.fileName? = some n) (hn : n = before ++ [Path.dot]) :
    fileStem p = Utf8.decodeLossy n := by
  refine (isStem_fileStem h).whole fun before' after hcut hafter => ?_
  rw [hn, decodeLossy_append_dot] at hcut
  rcases List.eq_nil_or_concat' after with rfl | ⟨init, c, rfl⟩
  · rfl
  · -- the last character is the dot, and so it is not behind the last dot
    rw [← List.cons_append, ← List.append_assoc] at hcut
    obtain ⟨-, hc⟩ := List.append_inj' hcut rfl
    rw [← hc] at hafter
    exact absurd (List.mem_append_right _ (List.mem_singleton_self _)) hafter

/-- **The stem and the extension of a file name** fit together. With an extension that is not empty
the text of the name is the stem, a dot and the text of the extension, which has no dot; with an
empty one the stem is the whole name. Without an extension either there is no dot and the stem is
the whole name, or the only dot comes first and the stem is empty. The bytes of that text are cut at
each dot between two characters, and what stands before the last one, if something follows it, are
the bytes of the stem. -/
theorem fileStem_agrees_with_extension (h : p.fileName? = some n) :
    (∀ e, p.extension? = some e → e ≠ [] →
        Utf8.decodeLossy n = fileStem p ++ '.' :: Utf8.decodeLossy e ∧
          '.' ∉ Utf8.decodeLossy e) ∧
      (p.extension? = some [] → fileStem p = Utf8.decodeLossy n) ∧
      (p.extension? = none →
        (Path.dot ∉ n ∧ fileStem p = Utf8.decodeLossy n) ∨
          (∃ rest, n = Path.dot :: rest ∧ Path.dot ∉ rest) ∧ fileStem p = []) ∧
      ∀ before after, Utf8.encode (Utf8.decodeLossy n) = before ++ Path.dot :: after →
        ∃ u v, Utf8.decodeLossy n = u ++ '.' :: v ∧ Utf8.encode u = before ∧
          Utf8.encode v = after ∧ (Path.dot ∉ after → after ≠ [] → fileStem p = u) := by
  have hextension := Path.hasExtension_extension? h
  refine ⟨fun e he hne => ?_, fun he => ?_, fun he => ?_, fun before after hcut => ?_⟩
  · rw [he] at hextension
    cases hextension with
    | cut hn hafter _ =>
      rw [hn, decodeLossy_append_dot, fileStem_of_cut h hn hafter hne, dot_mem_decodeLossy_iff]
      exact ⟨rfl, hafter⟩
  · rw [he] at hextension
    cases hextension with
    | cut hn _ _ => exact fileStem_of_end h hn
  · rw [he] at hextension
    cases hextension with
    | plain hdot => exact .inl ⟨hdot, fileStem_of_no_dot h hdot⟩
    | @hidden after hn hafter hne =>
      have hcut : n = [] ++ Path.dot :: after := hn
      exact .inr ⟨⟨after, hn, hafter⟩, fileStem_of_cut h hcut hafter hne⟩
  · obtain ⟨u, v, hn, rfl, rfl⟩ := Utf8.exists_of_encode_eq (by decide) hcut
    refine ⟨u, v, hn, rfl, rfl, fun hafter hne => (isStem_fileStem h).cut u v hn ?_ ?_⟩
    · rwa [← dot_mem_decodeLossy_iff, Utf8.decodeLossy_encode] at hafter
    · rintro rfl
      exact hne rfl

end Stem

/-- A name with a character that is cut short before its dot, and a byte that is none behind it. -/
theorem fileStem_agrees_with_extension_malformed :
    Path.fileName? ⟨[0x61, 0x2F, 0xE2, 0x82, 0x2E, 0x74, 0xFF]⟩ =
        some [0xE2, 0x82, 0x2E, 0x74, 0xFF] ∧
      Path.extension? ⟨[0x61, 0x2F, 0xE2, 0x82, 0x2E, 0x74, 0xFF]⟩ = some [0x74, 0xFF] ∧
      Utf8.decodeLossy [0xE2, 0x82, 0x2E, 0x74, 0xFF] =
        fileStem ⟨[0x61, 0x2F, 0xE2, 0x82, 0x2E, 0x74, 0xFF]⟩ ++ ['.', 't', '\ufffd'] := by
  have hname : Path.fileName? ⟨[0x61, 0x2F, 0xE2, 0x82, 0x2E, 0x74, 0xFF]⟩ =
      some [0xE2, 0x82, 0x2E, 0x74, 0xFF] := by decide
  have hextension : Path.extension? ⟨[0x61, 0x2F, 0xE2, 0x82, 0x2E, 0x74, 0xFF]⟩ =
      some [0x74, 0xFF] := by decide
  refine ⟨hname, hextension, ?_⟩
  exact ((fileStem_agrees_with_extension hname).1 _ hextension (by decide)).1

end ErrorDocs
