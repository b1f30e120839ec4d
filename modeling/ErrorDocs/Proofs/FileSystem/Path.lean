import ErrorDocs.FileSystem.Walk
import ErrorDocs.Proofs.FileSystem.Entry
import Mathlib.Data.List.Basic

/-!
# Paths of entries

The path of an entry is that of its directory with the name put after it. The parts of such a path
are the names, after the parts that name the directory, so that different entries of a tree have
different paths.

* `Path.below` is the path of a place below a directory, `Path.stem` the parts that name the
  directory.
* `Path.parts_below`, **`Path.below_inj`**: a place can be read off its path.
-/

namespace ErrorDocs.Path

/-! ## Parts -/

theorem partsOf_eq_splitOn (bytes : List UInt8) : partsOf bytes = bytes.splitOn slash := by
  induction bytes with
  | nil => rfl
  | cons b bytes ih =>
    rw [List.splitOn_cons_eq_if_modifyHead, ← ih]
    show consPart b (partsOf bytes) = _
    have hne : partsOf bytes ≠ [] := by rw [ih]; exact List.splitOn_ne_nil _ _
    obtain ⟨n, ns, hn⟩ := List.exists_cons_of_ne_nil hne
    rw [hn]
    by_cases hb : b = slash <;> simp [consPart, hb]

@[simp]
theorem partsOf_nil : partsOf [] = [[]] := rfl

theorem partsOf_of_not_mem {bytes : List UInt8} (h : slash ∉ bytes) : partsOf bytes = [bytes] := by
  rw [partsOf_eq_splitOn, List.splitOn_eq_singleton h]

theorem partsOf_append_slash (xs ys : List UInt8) :
    partsOf (xs ++ slash :: ys) = partsOf xs ++ partsOf ys := by
  simp only [partsOf_eq_splitOn]
  exact List.splitOn_append_cons_self _ _

theorem slash_not_mem_of_mem_partsOf (bytes : List UInt8) :
    ∀ part ∈ partsOf bytes, slash ∉ part := by
  induction bytes with
  | nil => simp
  | cons b bytes ih =>
    rw [partsOf_eq_splitOn, List.splitOn_cons_eq_if_modifyHead, ← partsOf_eq_splitOn]
    split_ifs with hb
    · exact List.forall_mem_cons.mpr ⟨by simp, ih⟩
    · cases hparts : partsOf bytes with
      | nil => simp
      | cons n ns =>
        rw [hparts, List.forall_mem_cons] at ih
        refine List.forall_mem_cons.mpr ⟨?_, ih.2⟩
        rw [List.mem_cons, not_or]
        exact ⟨fun hs => hb (by simp [hs]), ih.1⟩

/-- The parts of a path, without an empty one at the end. -/
def stem (p : Path) : List Name :=
  if p.bytes = [] ∨ p.bytes.getLast? = some slash then p.parts.dropLast else p.parts

theorem parts_eq_stem (p : Path) : p.parts = p.stem ∨ p.parts = p.stem ++ [[]] := by
  unfold stem
  split
  · rename_i h
    right
    rcases h with h | h
    · rw [parts, h]
      rfl
    · obtain ⟨xs, hxs⟩ := List.getLast?_eq_some_iff.mp h
      rw [parts, hxs, partsOf_append_slash, partsOf_nil, List.dropLast_concat]
  · exact .inl rfl

/-! ## Entries of a directory -/

/-- The bytes that come between the path of a directory and a name. -/
def separator (dir : Path) : List UInt8 :=
  if dir.bytes = [] ∨ dir.bytes.getLast? = some slash then [] else [slash]

theorem bytes_child (dir : Path) {name : Name} (h : slash ∉ name) :
    (dir.child name).bytes = dir.bytes ++ dir.separator ++ name := by
  have hrel : ¬ (⟨name⟩ : Path).isAbsolute := by
    intro habs
    exact h (List.mem_of_head? (by simpa [isAbsolute] using habs))
  unfold child join separator
  rw [if_neg hrel]
  simp only [Bool.or_eq_true, beq_iff_eq]
  split
  · simp
  · simp

theorem parts_child (dir : Path) {name : Name} (h : slash ∉ name) :
    (dir.child name).parts = dir.stem ++ [name] := by
  rw [parts, bytes_child dir h]
  unfold separator stem
  split
  · rename_i hd
    rcases hd with hd | hd
    · rw [hd, partsOf_of_not_mem (by simpa using h), parts, hd]
      rfl
    · obtain ⟨xs, hxs⟩ := List.getLast?_eq_some_iff.mp hd
      rw [parts, hxs, partsOf_append_slash xs [], partsOf_nil, List.dropLast_concat,
        List.append_nil, List.append_assoc, List.singleton_append, partsOf_append_slash,
        partsOf_of_not_mem h]
  · rw [List.append_assoc, List.singleton_append, partsOf_append_slash, partsOf_of_not_mem h, parts]

theorem stem_child (dir : Path) {name : Name} (h : slash ∉ name) (hne : name ≠ []) :
    (dir.child name).stem = dir.stem ++ [name] := by
  have hend : ¬ ((dir.child name).bytes = [] ∨ (dir.child name).bytes.getLast? = some slash) := by
    rw [bytes_child dir h, List.getLast?_append_of_ne_nil _ hne]
    rintro (hnil | hlast)
    · exact hne (List.append_eq_nil_iff.mp hnil).2
    · exact h (List.mem_of_getLast? hlast)
  rw [stem, if_neg hend, parts_child dir h]

/-- The path of a place below a directory. -/
def below (dir : Path) (place : Location) : Path :=
  place.foldl child dir

@[simp]
theorem below_nil (dir : Path) : dir.below [] = dir := rfl

theorem below_cons (dir : Path) (name : Name) (place : Location) :
    dir.below (name :: place) = (dir.child name).below place := rfl

theorem parts_below (dir : Path) {place : Location} (h : ∀ n ∈ place, Entry.IsName n)
    (hne : place ≠ []) : (dir.below place).parts = dir.stem ++ place := by
  induction place generalizing dir with
  | nil => exact absurd rfl hne
  | cons name place ih =>
    obtain ⟨hname, hplace⟩ := List.forall_mem_cons.mp h
    by_cases hp : place = []
    · rw [hp, below_cons, below_nil, parts_child dir hname.noSlash]
    · rw [below_cons, ih _ hplace hp, stem_child dir hname.noSlash hname.nonempty,
        List.append_assoc, List.singleton_append]

theorem bytes_below_of_prefix (dir : Path) {place : Location} (h : ∀ n ∈ place, Entry.IsName n) :
    dir.bytes <+: (dir.below place).bytes := by
  induction place generalizing dir with
  | nil => exact List.prefix_rfl
  | cons name place ih =>
    obtain ⟨hname, hplace⟩ := List.forall_mem_cons.mp h
    refine .trans ?_ (ih (dir.child name) hplace)
    rw [bytes_child dir hname.noSlash, List.append_assoc]
    exact List.prefix_append _ _

/-- **A place can be read off its path.** -/
theorem below_inj (dir : Path) {l m : Location} (hl : ∀ n ∈ l, Entry.IsName n)
    (hm : ∀ n ∈ m, Entry.IsName n) (hl' : l ≠ []) (hm' : m ≠ []) :
    dir.below l = dir.below m ↔ l = m := by
  refine ⟨fun h => ?_, fun h => h ▸ rfl⟩
  have := congrArg parts h
  rwa [parts_below dir hl hl', parts_below dir hm hm', List.append_cancel_left_eq] at this

theorem zero_mem_below (dir : Path) {place : Location} (h : ∀ n ∈ place, Entry.IsName n) :
    0 ∈ (dir.below place).bytes ↔ 0 ∈ dir.bytes := by
  induction place generalizing dir with
  | nil => rfl
  | cons name place ih =>
    obtain ⟨hname, hplace⟩ := List.forall_mem_cons.mp h
    have hsep : 0 ∉ dir.separator := by
      unfold separator
      split <;> decide
    rw [below_cons, ih _ hplace, bytes_child dir hname.noSlash]
    simp [hsep, hname.noZero]

end ErrorDocs.Path
