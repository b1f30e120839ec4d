import ErrorDocs.FileSystem.Basic

/-!
# Directory trees

What holds of every tree that an operating system keeps: the names in a directory differ, and
each of them could be a part of a path. Nothing is said of the order that entries are listed in.

* `Entry.entryInduction`: a property of all trees, shown from the entries of a directory to it.
* `Entry.WellFormed`: trees with such names only.
* `Entry.get?_append`: looking up a location part of the way, then the rest.
-/

namespace ErrorDocs

namespace Entry

/-- A property of every tree: the entries of a directory have it before the directory does. -/
@[elab_as_elim]
theorem entryInduction {motive : Entry → Prop}
    (file : ∀ contents fault, motive (.file contents fault))
    (link : ∀ target, motive (.link target))
    (directory : ∀ entries fault, (∀ x ∈ entries, motive x.2) → motive (.directory entries fault)) :
    ∀ e, motive e
  | .file contents fault => file contents fault
  | .link target => link target
  | .directory entries fault =>
    directory entries fault fun x _ => entryInduction file link directory x.2
termination_by e => sizeOf e
decreasing_by
  rename_i hx
  have h1 := List.sizeOf_lt_of_mem hx
  have h2 : sizeOf x = 1 + sizeOf x.1 + sizeOf x.2 := rfl
  rw [Entry.directory.sizeOf_spec entries fault]
  omega

/-- Names that an entry may have. -/
structure IsName (name : Name) : Prop where
  nonempty : name ≠ []
  noSlash : Path.slash ∉ name
  noZero : 0 ∉ name
  ne_here : name ≠ Path.here
  ne_above : name ≠ Path.above
  short : name.length ≤ FileSystem.maxName

instance (name : Name) : Decidable (IsName name) :=
  decidable_of_iff
    (name ≠ [] ∧ Path.slash ∉ name ∧ 0 ∉ name ∧ name ≠ Path.here ∧ name ≠ Path.above ∧
      name.length ≤ FileSystem.maxName)
    ⟨fun h => ⟨h.1, h.2.1, h.2.2.1, h.2.2.2.1, h.2.2.2.2.1, h.2.2.2.2.2⟩,
      fun h => ⟨h.1, h.2, h.3, h.4, h.5, h.6⟩⟩

/-- Trees in which every entry of a directory has a name of its own, and links could be followed. -/
inductive WellFormed : Entry → Prop where
  | file (contents : List UInt8) (fault : Option OsError) : WellFormed (.file contents fault)
  | link {target : List UInt8} (noZero : 0 ∉ target) : WellFormed (.link target)
  | directory {entries : List (Name × Entry)} (fault : Option OsError)
      (nodup : (entries.map (·.1)).Nodup) (names : ∀ x ∈ entries, IsName x.1)
      (below : ∀ x ∈ entries, WellFormed x.2) : WellFormed (.directory entries fault)

/-! ## Looking up -/

theorem mem_of_find? {name : Name} {entries : List (Name × Entry)} {e : Entry}
    (h : find? name entries = some e) : (name, e) ∈ entries := by
  unfold find? at h
  obtain ⟨x, hx, rfl⟩ := Option.map_eq_some_iff.mp h
  have hname : x.1 = name := by simpa using List.find?_some hx
  rw [← hname]
  exact List.mem_of_find?_eq_some hx

theorem find?_eq_some_iff {name : Name} {entries : List (Name × Entry)} {e : Entry}
    (h : (entries.map (·.1)).Nodup) : find? name entries = some e ↔ (name, e) ∈ entries := by
  refine ⟨mem_of_find?, fun hmem => ?_⟩
  induction entries with
  | nil => simp at hmem
  | cons x rest ih =>
    rw [List.map_cons, List.nodup_cons] at h
    rcases List.mem_cons.mp hmem with rfl | hrest
    · simp [find?]
    · have hne : x.1 ≠ name := by
        rintro rfl
        exact h.1 (List.mem_map.mpr ⟨_, hrest, rfl⟩)
      have := ih h.2 hrest
      unfold find? at this ⊢
      rwa [List.find?_cons_of_neg (by simpa using hne)]

@[simp]
theorem get?_nil (e : Entry) : e.get? [] = some e := by
  cases e <;> rfl

theorem get?_directory_cons (entries : List (Name × Entry)) (fault : Option OsError) (name : Name)
    (l : Location) :
    (directory entries fault).get? (name :: l) = (find? name entries).bind (·.get? l) := by
  rw [get?]
  cases find? name entries <;> rfl

theorem get?_cons_eq_some_iff {e e' : Entry} {name : Name} {l : Location} :
    e.get? (name :: l) = some e' ↔
      ∃ entries fault sub, e = .directory entries fault ∧ find? name entries = some sub ∧
        sub.get? l = some e' := by
  cases e with
  | file contents fault => simp [get?]
  | link target => simp [get?]
  | directory entries fault =>
    rw [get?_directory_cons, Option.bind_eq_some_iff]
    simp

theorem get?_append (e : Entry) (l m : Location) :
    e.get? (l ++ m) = (e.get? l).bind (·.get? m) := by
  induction l generalizing e with
  | nil => rw [List.nil_append, get?_nil, Option.bind_some]
  | cons name l ih =>
    cases e with
    | file contents fault => rfl
    | link target => rfl
    | directory entries fault =>
      rw [List.cons_append, get?_directory_cons, get?_directory_cons, Option.bind_assoc]
      exact Option.bind_congr fun sub _ => ih sub

/-- What a location of a tree is below is a directory. -/
theorem exists_directory_of_get?_append_cons {e e' : Entry} {l m : Location} {name : Name}
    (h : e.get? (l ++ name :: m) = some e') :
    ∃ entries fault, e.get? l = some (.directory entries fault) := by
  rw [get?_append] at h
  obtain ⟨sub, hsub, h⟩ := Option.bind_eq_some_iff.mp h
  obtain ⟨entries, fault, -, rfl, -⟩ := get?_cons_eq_some_iff.mp h
  exact ⟨entries, fault, hsub⟩

namespace WellFormed

theorem of_find? {entries : List (Name × Entry)} {fault : Option OsError}
    (h : (Entry.directory entries fault).WellFormed) {name : Name} {e : Entry}
    (hf : find? name entries = some e) : IsName name ∧ e.WellFormed := by
  cases h with
  | directory _ _ names below => exact ⟨names _ (mem_of_find? hf), below _ (mem_of_find? hf)⟩

theorem of_get? {e e' : Entry} {l : Location} (h : e.WellFormed) (hl : e.get? l = some e') :
    (∀ n ∈ l, IsName n) ∧ e'.WellFormed := by
  induction l generalizing e with
  | nil =>
    rw [get?_nil, Option.some.injEq] at hl
    exact ⟨by simp, hl ▸ h⟩
  | cons name l ih =>
    obtain ⟨entries, fault, sub, rfl, hf, hl⟩ := get?_cons_eq_some_iff.mp hl
    obtain ⟨hname, hsub⟩ := h.of_find? hf
    obtain ⟨hnames, he'⟩ := ih hsub hl
    exact ⟨List.forall_mem_cons.mpr ⟨hname, hnames⟩, he'⟩

end WellFormed

end Entry

end ErrorDocs
