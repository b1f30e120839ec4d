import ErrorDocs.Filter
import ErrorDocs.Proofs.Text.Lowercase

/-!
# Which files a whitelist admits

An entry of a whitelist is brought into one form before it is compared: without blanks around it,
in lower case, with a dot in front. The filter of a scan does this once when it is prepared and
again at every question, which is the same as doing it once.

* `normalizeExtension_eq`, `normalizeExtension_normalizeExtension`: the form of an entry.
* `Respells`, `normalizeExtension_respells`: other ways to write an entry.
* `isEligible_congr`: only the form of the entries counts.
* **`isEligibleFile_new`**: the prepared filter and the plain one.
-/

namespace ErrorDocs

namespace Filter

/-! ## The form of an entry -/

/-- A text without a dot in front. -/
def withoutDot : List Char → List Char
  | [] => []
  | c :: s => if c = '.' then s else c :: s

theorem normalizeExtension_eq (ext : List Char) :
    normalizeExtension ext = '.' :: withoutDot (Text.lower (Text.trim ext)) := by
  unfold normalizeExtension
  split
  · rename_i hnil
    rw [hnil, withoutDot]
  · rename_i c rest hcons
    rw [hcons, withoutDot]
    split_ifs with hc
    · rw [hc]
    · rfl

theorem dot_cons_withoutDot {s : List Char} (h : s.head? = some '.') : '.' :: withoutDot s = s := by
  obtain ⟨rest, rfl⟩ := List.head?_eq_some_iff.mp h
  rw [withoutDot, if_pos rfl]

theorem withoutDot_of_ne {s : List Char} (h : s.head? ≠ some '.') : withoutDot s = s := by
  cases s with
  | nil => rfl
  | cons c s => rw [withoutDot, if_neg fun hc => h (congrArg some hc)]

theorem trim_dot_cons {s : List Char} (h : Text.trim s = s) : Text.trim ('.' :: s) = '.' :: s := by
  refine Text.trim_eq_self_iff.mpr ⟨?_, fun c hc => ?_⟩
  · rintro _ ⟨⟩
    rfl
  · rw [List.getLast?_cons] at hc
    cases hlast : s.getLast? with
    | none =>
      rw [hlast] at hc
      obtain rfl := Option.some.inj hc
      rfl
    | some d =>
      rw [hlast] at hc
      obtain rfl := Option.some.inj hc
      exact (Text.trim_eq_self_iff.mp h).2 _ hlast

/-- **An entry in its form stays as it is.** -/
theorem normalizeExtension_normalizeExtension (ext : List Char) :
    normalizeExtension (normalizeExtension ext) = normalizeExtension ext := by
  set s := Text.lower (Text.trim ext) with hs
  have htrim : Text.trim s = s := Text.trim_lower (Text.trim_trim ext)
  have hlower : Text.lower s = s := Text.lower_lower (Text.trim ext)
  rw [normalizeExtension_eq ext, ← hs]
  by_cases hdot : s.head? = some '.'
  · rw [dot_cons_withoutDot hdot, normalizeExtension_eq, htrim, hlower, dot_cons_withoutDot hdot]
  · rw [withoutDot_of_ne hdot, normalizeExtension_eq, trim_dot_cons htrim, Text.lower_dot_cons,
      hlower, dot_cons_withoutDot rfl]

/-- Entries without blanks around them and without a dot in front. -/
structure IsBare (w : List Char) : Prop where
  first : ∀ c ∈ w.head?, Text.isBlank c = false ∧ c ≠ '.'
  last : ∀ c ∈ w.getLast?, Text.isBlank c = false

/-- The ways to write an entry: with or without a dot, and with blanks around it. -/
inductive Respells (w : List Char) : List Char → Prop where
  | padded {u v : List Char} (h : ∀ c ∈ u ++ v, Text.isBlank c = true) : Respells w (u ++ w ++ v)
  | dotted {u v : List Char} (h : ∀ c ∈ u ++ v, Text.isBlank c = true) :
      Respells w (u ++ '.' :: w ++ v)

/-- **However an entry is written, it has one form.** -/
theorem normalizeExtension_respells {w w' : List Char} (hw : IsBare w) (h : Respells w w') :
    normalizeExtension w' = normalizeExtension w := by
  have htrim : Text.trim w = w :=
    Text.trim_eq_self_iff.mpr ⟨fun c hc => (hw.first c hc).1, hw.last⟩
  have hdot : (Text.lower w).head? ≠ some '.' :=
    Text.head?_lower_ne_dot fun hc => (hw.first _ hc).2 rfl
  rw [normalizeExtension_eq w', normalizeExtension_eq w, htrim]
  cases h with
  | padded h => rw [Text.trim_padded h htrim]
  | dotted h =>
    rw [Text.trim_padded h (trim_dot_cons htrim), Text.lower_dot_cons, dot_cons_withoutDot rfl,
      withoutDot_of_ne hdot]

/-! ## Files -/

theorem isEligible_congr {whitelist whitelist' : List (List Char)}
    (h : whitelist.map normalizeExtension = whitelist'.map normalizeExtension) (path : Path) :
    isEligible whitelist path = isEligible whitelist' path := by
  have hempty : whitelist.isEmpty = whitelist'.isEmpty := by
    rw [← List.isEmpty_map, h, List.isEmpty_map]
  have hany (ext : List Char) : (whitelist.any fun w => normalizeExtension w == ext) =
      whitelist'.any fun w => normalizeExtension w == ext := by
    have hmapped := congrArg (fun l : List (List Char) => l.any (· == ext)) h
    simpa only [List.any_map, Function.comp_def] using hmapped
  unfold isEligible
  simp only [hempty, hany]

theorem isEligible_iff {whitelist : List (List Char)} (h : whitelist ≠ []) (path : Path) :
    isEligible whitelist path = true ↔ ∃ ext, path.extension? = some ext ∧ ∃ w ∈ whitelist,
      withoutDot (Text.lower (Text.trim w)) = Text.lower (Utf8.decodeLossy ext) := by
  have hempty : whitelist.isEmpty = false := List.isEmpty_eq_false_iff.mpr h
  unfold isEligible extensionText?
  rw [hempty, Bool.false_or]
  cases path.extension? with
  | none => simp
  | some ext => simp [normalizeExtension_eq]

end Filter

/-- **The prepared filter and the plain one** admit the same files. A whitelist with entries admits
those whose extension is in it, blanks, case and dots apart, and it does not matter how an entry is
written. -/
theorem PathFilter.isEligibleFile_new (ignoreDirs whitelist : List String) (maxFileSize : Nat)
    (path : Path) :
    (new ignoreDirs whitelist maxFileSize).isEligibleFile path =
        Filter.isEligible (whitelist.map String.toList) path ∧
      (whitelist ≠ [] → (Filter.isEligible (whitelist.map String.toList) path = true ↔
        ∃ ext, path.extension? = some ext ∧ ∃ w ∈ whitelist,
          Filter.withoutDot (Text.lower (Text.trim w.toList)) =
            Text.lower (Utf8.decodeLossy ext))) ∧
      ∀ before w w' after, whitelist = before ++ w :: after → Filter.IsBare w.toList →
        Filter.Respells w.toList w'.toList →
        Filter.isEligible ((before ++ w' :: after).map String.toList) path =
            Filter.isEligible (whitelist.map String.toList) path ∧
          (new ignoreDirs (before ++ w' :: after) maxFileSize).isEligibleFile path =
            (new ignoreDirs whitelist maxFileSize).isEligibleFile path := by
  have hplain (whitelist : List String) :
      (new ignoreDirs whitelist maxFileSize).isEligibleFile path =
        Filter.isEligible (whitelist.map String.toList) path := by
    refine Filter.isEligible_congr ?_ path
    rw [new, List.map_map, List.map_map]
    refine List.map_congr_left fun w _ => ?_
    simp only [Function.comp_apply, Filter.normalizeExtension_normalizeExtension]
  refine ⟨hplain whitelist, fun hne => ?_, ?_⟩
  · rw [Filter.isEligible_iff (by simpa using hne)]
    simp
  · rintro before w w' after rfl hw hrespell
    have hsame : Filter.isEligible ((before ++ w' :: after).map String.toList) path =
        Filter.isEligible ((before ++ w :: after).map String.toList) path := by
      refine Filter.isEligible_congr ?_ path
      simp [Filter.normalizeExtension_respells hw hrespell]
    exact ⟨hsame, by rw [hplain, hplain, hsame]⟩

/-- A dot, blanks and case make no difference. -/
theorem PathFilter.isEligibleFile_new_respelled :
    Filter.IsBare "ts".toList ∧ Filter.Respells "ts".toList " .ts\t".toList ∧
      (new [] [" .ts\t"] 0).isEligibleFile (.ofString "a.TS") = true := by
  have hbare : Filter.IsBare "ts".toList := ⟨by simp [Text.isBlank], by simp [Text.isBlank]⟩
  have hrespells : Filter.Respells "ts".toList " .ts\t".toList :=
    .dotted (u := [' ']) (v := ['\t']) (by simp [Text.isBlank])
  obtain ⟨hplain, hadmits, hwritten⟩ := isEligibleFile_new [] ["ts"] 0 (.ofString "a.TS")
  refine ⟨hbare, hrespells, (hwritten [] "ts" " .ts\t" [] rfl hbare hrespells).2.trans ?_⟩
  rw [hplain, hadmits (by decide)]
  exact ⟨_, rfl, "ts", List.mem_singleton_self _, by decide⟩

end ErrorDocs
