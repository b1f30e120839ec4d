import ErrorDocs.Proofs.FileSystem.Resolve

/-!
# File systems stay well-formed

Whatever is done to a file system, the names in its directories stay names and differ from each
other. The one fact behind this is that a path leads to a location with proper names only.

* `Entry.WellFormed.modify`: changing a tree at one location.
* `Leads.isName`: the names of the location that a path leads to.
* **`Reachable.wellFormed`**: every file system that the operations can make is well-formed.
-/

namespace ErrorDocs

namespace Entry

variable {name : Name} {f : Option Entry → Option Entry} {entries : List (Name × Entry)}

theorem mem_alter {x : Name × Entry} (h : x ∈ alter name f entries) :
    x ∈ entries ∨
      x.1 = name ∧ ∃ o, (∀ e, o = some e → (name, e) ∈ entries) ∧ f o = some x.2 := by
  induction entries with
  | nil =>
    rw [alter] at h
    cases hf : f none with
    | none => simp [hf] at h
    | some e =>
      rw [hf] at h
      obtain rfl := List.mem_singleton.mp h
      exact .inr ⟨rfl, none, by simp, hf⟩
  | cons y rest ih =>
    rw [alter] at h
    split at h
    · rename_i hy
      cases hf : f (some y.2) with
      | none =>
        rw [hf] at h
        exact .inl (List.mem_cons_of_mem y h)
      | some e =>
        rw [hf] at h
        rcases List.mem_cons.mp h with rfl | h
        · refine .inr ⟨hy, some y.2, ?_, hf⟩
          rintro _ ⟨⟩
          exact hy ▸ List.mem_cons_self
        · exact .inl (List.mem_cons_of_mem y h)
    · rcases List.mem_cons.mp h with rfl | h
      · exact .inl List.mem_cons_self
      · rcases ih h with h | ⟨hx, o, ho, hf⟩
        · exact .inl (List.mem_cons_of_mem y h)
        · exact .inr ⟨hx, o, fun e he => List.mem_cons_of_mem y (ho e he), hf⟩

theorem nodup_alter (h : (entries.map (·.1)).Nodup) : ((alter name f entries).map (·.1)).Nodup := by
  induction entries with
  | nil =>
    rw [alter]
    cases f none <;> simp
  | cons y rest ih =>
    rw [List.map_cons, List.nodup_cons] at h
    rw [alter]
    split
    · cases f (some y.2) with
      | none => exact h.2
      | some e => exact List.nodup_cons.mpr h
    · rename_i hy
      refine List.nodup_cons.mpr ⟨fun hmem => ?_, ih h.2⟩
      obtain ⟨x, hx, hxy⟩ := List.mem_map.mp hmem
      rcases mem_alter hx with hx | ⟨hx, -⟩
      · exact h.1 (List.mem_map.mpr ⟨x, hx, hxy⟩)
      · exact hy (hxy.symm.trans hx)

/-- Changes that put no ill-formed entry in place of another. -/
def KeepsWellFormed (f : Option Entry → Option Entry) : Prop :=
  ∀ o e, (∀ e₀, o = some e₀ → e₀.WellFormed) → f o = some e → e.WellFormed

namespace WellFormed

theorem alter {fault : Option OsError} (h : (Entry.directory entries fault).WellFormed)
    (hname : IsName name) (hf : KeepsWellFormed f) :
    (Entry.directory (alter name f entries) fault).WellFormed := by
  cases h with
  | directory _ nodup names below =>
    refine .directory fault (nodup_alter nodup) (fun x hx => ?_) fun x hx => ?_
    · rcases mem_alter hx with hx | ⟨hx, -⟩
      · exact names x hx
      · exact hx ▸ hname
    · rcases mem_alter hx with hx | ⟨-, o, ho, hfo⟩
      · exact below x hx
      · exact hf o x.2 (fun e he => below _ (ho e he)) hfo

theorem modify {e : Entry} {l : Location} (h : e.WellFormed) (hl : ∀ n ∈ l, IsName n)
    (hf : KeepsWellFormed f) : (Entry.modify f l e).WellFormed := by
  induction l generalizing e with
  | nil =>
    rw [Entry.modify]
    cases hfe : f (some e) with
    | none => exact h
    | some e' => exact hf _ e' (by rintro _ ⟨⟩; exact h) hfe
  | cons name rest ih =>
    obtain ⟨hname, hrest⟩ := List.forall_mem_cons.mp hl
    cases e with
    | file contents fault => exact h
    | link target => exact h
    | directory entries fault =>
      cases rest with
      | nil => exact h.alter hname hf
      | cons next rest =>
        refine h.alter hname fun o e ho he => ?_
        obtain ⟨e₀, rfl, rfl⟩ := Option.map_eq_some_iff.mp he
        exact ih (ho e₀ rfl) hrest

end WellFormed

end Entry

namespace FileSystem

/-- File systems with a well-formed tree, in which relative paths start from a proper location. -/
structure WellFormed (fs : FileSystem) : Prop where
  root : fs.root.WellFormed
  here : ∀ n ∈ fs.workingDirectory, Entry.IsName n

variable {fs fs' : FileSystem}

namespace WellFormed

theorem put (h : fs.WellFormed) {l : Location} (hl : ∀ n ∈ l, Entry.IsName n) {e : Entry}
    (he : e.WellFormed) : (fs.put l e).WellFormed :=
  ⟨h.root.modify hl fun _ _ _ heq => Option.some.inj heq ▸ he, h.here⟩

theorem erase (h : fs.WellFormed) {l : Location} (hl : ∀ n ∈ l, Entry.IsName n) :
    (fs.erase l).WellFormed :=
  ⟨h.root.modify hl (fun _ _ _ heq => nomatch heq), h.here⟩

end WellFormed

/-! ## Names that paths lead to -/

/-- Parts of a path whose bytes could stand in a name. -/
def IsPart (part : Name) : Prop := Path.slash ∉ part ∧ 0 ∉ part

theorem isPart_of_mem_partsOf {bytes : List UInt8} (h : 0 ∉ bytes) :
    ∀ part ∈ Path.partsOf bytes, IsPart part := by
  induction bytes with
  | nil => simp [IsPart]
  | cons b bytes ih =>
    rw [List.mem_cons, not_or] at h
    have ih := ih h.2
    show ∀ part ∈ Path.consPart b (Path.partsOf bytes), IsPart part
    unfold Path.consPart
    split
    · split_ifs with hb
      · simp [IsPart]
      · simp [IsPart, Ne.symm hb, h.1]
    · rename_i n ns hn
      rw [hn, List.forall_mem_cons] at ih
      split_ifs with hb
      · exact List.forall_mem_cons.mpr ⟨by simp [IsPart], List.forall_mem_cons.mpr ih⟩
      · refine List.forall_mem_cons.mpr ⟨?_, ih.2⟩
        simp [IsPart, Ne.symm hb, h.1, ih.1.1, ih.1.2]

theorem Names.isName {last : LastPart} {part : Name} {rest : List Name} (h : Names last part rest)
    (hpart : IsPart part) : Entry.IsName part where
  nonempty := by rintro rfl; exact h.notIdle rfl
  noSlash := hpart.1
  noZero := hpart.2
  ne_here := by rintro rfl; exact h.notIdle rfl
  ne_above := h.notAbove
  short := h.short

/-- **The names of the location that a path leads to.** -/
theorem Leads.isName {root : Entry} (hroot : root.WellFormed) {last : LastPart} {links : Nat}
    {here loc : Location} {parts : List Name} (h : Leads root last links here parts loc)
    (hhere : ∀ n ∈ here, Entry.IsName n) (hparts : ∀ p ∈ parts, IsPart p) :
    ∀ n ∈ loc, Entry.IsName n := by
  have hconcat {here : Location} {part : Name} {rest : List Name}
      (hhere : ∀ n ∈ here, Entry.IsName n) (hp : Names last part rest) (hpart : IsPart part) :
      ∀ n ∈ here ++ [part], Entry.IsName n :=
    List.forall_mem_append.mpr ⟨hhere, List.forall_mem_singleton.mpr (hp.isName hpart)⟩
  induction h with
  | done links here => exact hhere
  | idle hd hp h ih => exact ih hhere (List.forall_mem_cons.mp hparts).2
  | above hd h ih =>
    exact ih (fun n hn => hhere n (List.dropLast_subset _ hn)) (List.forall_mem_cons.mp hparts).2
  | missing hd hp hf => exact hconcat hhere hp (hparts _ List.mem_cons_self)
  | link hd hp hf hl => exact hconcat hhere hp (hparts _ List.mem_cons_self)
  | through hd hp hf hl h ih =>
    obtain ⟨-, htarget⟩ := (hroot.of_get? hd).2.of_find? hf
    cases htarget with
    | link noZero =>
      refine ih ?_ (List.forall_mem_append.mpr
        ⟨isPart_of_mem_partsOf noZero, (List.forall_mem_cons.mp hparts).2⟩)
      unfold startOf
      split
      · simp
      · exact hhere
  | into hd hp hf he h ih =>
    obtain ⟨hpart, hrest⟩ := List.forall_mem_cons.mp hparts
    exact ih (hconcat hhere hp hpart) hrest

theorem WellFormed.isName_of_locate (h : fs.WellFormed) {last : LastPart} {path : Path}
    (hpath : 0 ∉ path.bytes) {l : Location} (hl : fs.locate last path = .ok l) :
    ∀ n ∈ l, Entry.IsName n := by
  refine (leads_of_follow hl).isName h.root ?_ (isPart_of_mem_partsOf hpath)
  unfold startOf
  split
  · simp
  · exact h.here

theorem WellFormed.isName_of_resolve (h : fs.WellFormed) {last : LastPart} {path : Path}
    {l : Location} (hl : fs.resolve last path = .ok l) : ∀ n ∈ l, Entry.IsName n := by
  unfold resolve at hl
  split at hl
  · cases hl
  · rename_i hcheck
    exact h.isName_of_locate (checkPath_eq_ok_iff.mp hcheck).1 hl

/-! ## Operations -/

section Operations

variable {path : Path}

theorem WellFormed.writeAt (h : fs.WellFormed) {location : Except OsError Location}
    (hloc : ∀ l, location = .ok l → ∀ n ∈ l, Entry.IsName n) {contents : List UInt8}
    (hw : fs.writeAt location contents = .ok fs') : fs'.WellFormed := by
  unfold FileSystem.writeAt at hw
  split at hw
  · cases hw
  · split at hw
    · cases hw
    · cases hw
    · obtain rfl := Except.ok.inj hw
      exact h.put (hloc _ rfl) (.file contents none)

theorem WellFormed.createAt (h : fs.WellFormed) {location : Except OsError Location}
    (hloc : ∀ l, location = .ok l → ∀ n ∈ l, Entry.IsName n) {e : Entry} (he : e.WellFormed)
    (hc : fs.createAt location e = .ok fs') : fs'.WellFormed := by
  unfold FileSystem.createAt at hc
  split at hc
  · cases hc
  · split at hc
    · cases hc
    · obtain rfl := Except.ok.inj hc
      exact h.put (hloc _ rfl) he

theorem zero_not_mem_withoutEndSlashes (hpath : 0 ∉ path.bytes) :
    0 ∉ (withoutEndSlashes path).bytes := by
  intro h
  refine hpath (List.mem_reverse.mp ?_)
  exact List.dropWhile_subset _ (List.mem_reverse.mp h)

theorem wellFormed_emptyDirectory : (Entry.directory []).WellFormed :=
  .directory none .nil (by simp) (by simp)

theorem WellFormed.makeDirAt (h : fs.WellFormed) (hpath : 0 ∉ path.bytes)
    (hm : fs.makeDirAt path = .ok fs') : fs'.WellFormed := by
  unfold FileSystem.makeDirAt at hm
  dsimp only at hm
  split at hm
  · cases hm
  · split at hm
    · split at hm <;> cases hm
    · exact h.createAt (fun _ => h.isName_of_locate (zero_not_mem_withoutEndSlashes hpath))
        wellFormed_emptyDirectory hm

theorem WellFormed.makeDir (h : fs.WellFormed) (hm : fs.makeDir path = .ok fs') :
    fs'.WellFormed := by
  unfold FileSystem.makeDir at hm
  split at hm
  · cases hm
  · rename_i hcheck
    exact h.makeDirAt (checkPath_eq_ok_iff.mp hcheck).1 hm

theorem WellFormed.makeDirsOf (h : fs.WellFormed) (paths : List Path) :
    (fs.makeDirsOf paths).disk.WellFormed := by
  induction paths with
  | nil => exact h
  | cons path above ih =>
    rw [FileSystem.makeDirsOf]
    split
    · rename_i hm
      exact h.makeDir hm
    · -- the directories above come first, and they have kept the file system well-formed
      dsimp only
      split
      · exact ih
      · split
        · rename_i hm
          exact ih.makeDir hm
        · split <;> exact ih
    · split <;> exact h

theorem WellFormed.removeFile (h : fs.WellFormed) (hr : fs.removeFile path = .ok fs') :
    fs'.WellFormed := by
  unfold FileSystem.removeFile at hr
  split at hr
  · cases hr
  · rename_i hl
    split at hr
    · cases hr
    · cases hr
    · obtain rfl := Except.ok.inj hr
      exact h.erase (h.isName_of_resolve hl)

theorem WellFormed.removeAll (h : fs.WellFormed) (hr : fs.removeAll path = .ok fs') :
    fs'.WellFormed := by
  unfold FileSystem.removeAll at hr
  split at hr
  · cases hr
  · rename_i hl
    split at hr
    · cases hr
    · obtain rfl := Except.ok.inj hr
      exact h.erase (h.isName_of_resolve hl)

theorem WellFormed.ensureDir (h : fs.WellFormed) (hpath : 0 ∉ path.bytes) :
    (fs.ensureDir path).WellFormed := by
  unfold FileSystem.ensureDir
  split
  · rename_i hm
    exact h.makeDirAt hpath hm
  · exact h

theorem zero_not_mem_ofParts {parts : List Name} (h : ∀ part ∈ parts, IsPart part) :
    0 ∉ (Path.ofParts parts).bytes := by
  unfold Path.ofParts
  induction parts with
  | nil => simp
  | cons part parts ih =>
    obtain ⟨hpart, hparts⟩ := List.forall_mem_cons.mp h
    cases parts with
    | nil => simpa using hpart.2
    | cons next parts =>
      have := ih hparts
      simp only [List.intercalate_cons_cons, List.mem_append, not_or] at this ⊢
      exact ⟨⟨hpart.2, by decide⟩, this⟩

theorem zero_not_mem_of_mem_leadingPaths (hpath : 0 ∉ path.bytes) :
    ∀ p ∈ leadingPaths path, 0 ∉ p.bytes := by
  intro p hp
  obtain ⟨n, -, rfl⟩ := List.mem_map.mp hp
  exact zero_not_mem_ofParts fun part hpart =>
    isPart_of_mem_partsOf hpath part (List.mem_of_mem_take hpart)

theorem WellFormed.foldl_ensureDir (h : fs.WellFormed) {paths : List Path}
    (hpaths : ∀ p ∈ paths, 0 ∉ p.bytes) :
    (paths.foldl FileSystem.ensureDir fs).WellFormed := by
  induction paths generalizing fs with
  | nil => exact h
  | cons p paths ih =>
    obtain ⟨hp, hpaths⟩ := List.forall_mem_cons.mp hpaths
    exact ih (h.ensureDir hp) hpaths

theorem WellFormed.plant (h : fs.WellFormed) (hpath : 0 ∉ path.bytes) {e : Entry}
    (he : e.WellFormed) : (fs.plant path e).WellFormed := by
  have hdirs := h.foldl_ensureDir (zero_not_mem_of_mem_leadingPaths hpath)
  unfold FileSystem.plant
  dsimp only
  split
  · rename_i hplanted
    split at hplanted
    · exact hdirs.writeAt (fun _ => hdirs.isName_of_locate hpath) hplanted
    · exact hdirs.makeDirAt hpath hplanted
    · exact hdirs.createAt (fun _ => hdirs.isName_of_locate hpath) he hplanted
  · exact hdirs

end Operations

/-- The file systems that the operations make, from the one that holds nothing. -/
inductive Reachable : FileSystem → Prop where
  | fresh : Reachable fresh
  | plant {fs : FileSystem} {path : Path} {e : Entry} (h : Reachable fs) (hpath : 0 ∉ path.bytes)
      (he : e.WellFormed) : Reachable (fs.plant path e)
  | writeFile {fs fs' : FileSystem} {path : Path} {contents : List UInt8} (h : Reachable fs)
      (hw : fs.writeFile path contents = .ok fs') : Reachable fs'
  | createFile {fs fs' : FileSystem} {path : Path} {contents : List UInt8} (h : Reachable fs)
      (hc : fs.createFile path contents = .ok fs') : Reachable fs'
  | makeDir {fs fs' : FileSystem} {path : Path} (h : Reachable fs)
      (hm : fs.makeDir path = .ok fs') : Reachable fs'
  | makeDirs {fs : FileSystem} (path : Path) (h : Reachable fs) :
      Reachable (fs.makeDirs path).disk
  | removeFile {fs fs' : FileSystem} {path : Path} (h : Reachable fs)
      (hr : fs.removeFile path = .ok fs') : Reachable fs'
  | removeAll {fs fs' : FileSystem} {path : Path} (h : Reachable fs)
      (hr : fs.removeAll path = .ok fs') : Reachable fs'

/-- **Every file system that the operations make is well-formed.** -/
theorem Reachable.wellFormed (h : Reachable fs) : fs.WellFormed := by
  induction h with
  | fresh =>
    refine ⟨.directory none (by decide) (by decide) fun x hx => ?_, by decide⟩
    obtain rfl := List.mem_singleton.mp hx
    exact wellFormed_emptyDirectory
  | plant _ hpath he ih => exact ih.plant hpath he
  | writeFile _ hw ih => exact ih.writeAt (fun _ => ih.isName_of_resolve) hw
  | createFile _ hc ih => exact ih.createAt (fun _ => ih.isName_of_resolve) (.file _ none) hc
  | makeDir _ hm ih => exact ih.makeDir hm
  | makeDirs path _ ih => exact ih.makeDirsOf _
  | removeFile _ hr ih => exact ih.removeFile hr
  | removeAll _ hr ih => exact ih.removeAll hr

end FileSystem

end ErrorDocs
