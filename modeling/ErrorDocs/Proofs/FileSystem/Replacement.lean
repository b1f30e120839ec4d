import ErrorDocs.Proofs.FileSystem.Growth

/-!
# One entry of the current directory

A program that works on one name in the current directory finds the entry of that name, a link
included, and changes nothing else when it removes a file or a link there or writes a new file.

* `FileSystem.SameBut`: file systems that differ at one location at most.
* `sameBut_erase`, `sameBut_put`: removing and putting an entry that is not a directory.
* `linkStatus_name`, `createFile_name`, `removeFile_name`: the operations on such a name.
* `status_here_child`: the path of a file seen from the current directory.
-/

namespace ErrorDocs

namespace Entry

variable {name : Name} {entries : List (Name × Entry)}

/-- A name that is removed from a directory is not there any more, if it was there once. -/
theorem find?_alter_none (h : (entries.map (·.1)).Nodup) :
    find? name (alter name (fun _ => none) entries) = none := by
  induction entries with
  | nil => rfl
  | cons x rest ih =>
    rw [List.map_cons, List.nodup_cons] at h
    rw [alter]
    split_ifs with hx
    · cases hf : find? name rest with
      | none => rfl
      | some e => exact absurd (List.mem_map.mpr ⟨_, mem_of_find? hf, hx.symm⟩) h.1
    · rw [find?_cons, if_neg hx, ih h.2]

theorem get?_modify_none {e : Entry} {dir : Location} {fault : Option OsError} (he : e.WellFormed)
    (hd : e.get? dir = some (.directory entries fault)) (name : Name) :
    (e.modify (fun _ => none) (dir ++ [name])).get? (dir ++ [name]) = none := by
  induction dir generalizing e with
  | nil =>
    rw [get?_nil, Option.some.injEq] at hd
    subst hd
    cases he with
    | directory _ nodup _ _ =>
      rw [List.nil_append, modify, get?_directory_cons, find?_alter_none nodup, Option.bind_none]
  | cons n dir ih =>
    obtain ⟨entries', fault', sub, rfl, hf, hsub⟩ := get?_cons_eq_some_iff.mp hd
    rw [List.cons_append, modify_cons fault' _ (by simp), get?_directory_cons,
      find?_alter_self fun e => rfl, hf]
    exact ih (he.of_find? hf).2 hsub

end Entry

namespace FileSystem

/-! ## All but one location -/

/-- File systems that differ at one location at most. -/
structure SameBut (l : Location) (fs fs' : FileSystem) : Prop where
  elsewhere : ∀ m, m ≠ l → Option.Rel Entry.Keeps (fs.root.get? m) (fs'.root.get? m)
  here : fs'.workingDirectory = fs.workingDirectory

theorem SameBut.trans {l : Location} {fs fs' fs'' : FileSystem} (h : SameBut l fs fs')
    (h' : SameBut l fs' fs'') : SameBut l fs fs'' where
  elsewhere m hm := by
    have hfirst := h.elsewhere m hm
    have hsecond := h'.elsewhere m hm
    generalize fs.root.get? m = o, fs'.root.get? m = o', fs''.root.get? m = o'' at hfirst hsecond
    cases hfirst with
    | none => exact hsecond
    | some hk =>
      cases hsecond with
      | some hk' => exact .some (hk.trans hk')
  here := h'.here.trans h.here

section Place

variable {fs : FileSystem} {dir : Location} {entries : List (Name × Entry)}
  {fault : Option OsError} {name : Name} (hd : fs.root.get? dir = some (.directory entries fault))
  (hfree : ∀ es fault, fs.root.get? (dir ++ [name]) ≠ some (.directory es fault))

include hfree in
/-- Nothing stands below an entry that is not a directory. -/
theorem get?_below_free {m : Location} (hpre : dir ++ [name] <+: m) (hm : m ≠ dir ++ [name]) :
    fs.root.get? m = none := by
  obtain ⟨t, rfl⟩ := hpre
  cases t with
  | nil => exact absurd (List.append_nil _) hm
  | cons n t =>
    cases hget : fs.root.get? (dir ++ [name] ++ n :: t) with
    | none => rfl
    | some e =>
      obtain ⟨es, fault, hes⟩ := Entry.exists_directory_of_get?_append_cons hget
      exact absurd hes (hfree es fault)

include hfree in
/-- A change at one location that puts nothing below it. -/
theorem sameBut_modify (f : Option Entry → Option Entry)
    (hbelow : ∀ m, dir ++ [name] <+: m → m ≠ dir ++ [name] →
      (fs.root.modify f (dir ++ [name])).get? m = none) :
    SameBut (dir ++ [name]) fs { fs with root := fs.root.modify f (dir ++ [name]) } where
  elsewhere m hm := by
    by_cases hpre : dir ++ [name] <+: m
    · rw [get?_below_free hfree hpre hm, hbelow m hpre hm]
      exact .none
    · exact Entry.rel_get?_modify f hpre
  here := rfl

include hd hfree in
theorem sameBut_put (contents : List UInt8) :
    SameBut (dir ++ [name]) fs (fs.put (dir ++ [name]) (.file contents)) := by
  refine sameBut_modify hfree _ fun m hpre hm => ?_
  obtain ⟨t, rfl⟩ := hpre
  rw [Entry.get?_modify_concat hd]
  cases t with
  | nil => exact absurd (List.append_nil _) hm
  | cons n t => rfl

include hd hfree in
theorem sameBut_erase (hfs : fs.root.WellFormed) :
    SameBut (dir ++ [name]) fs (fs.erase (dir ++ [name])) := by
  refine sameBut_modify hfree _ fun m hpre _ => ?_
  obtain ⟨t, rfl⟩ := hpre
  rw [Entry.get?_append, Entry.get?_modify_none hfs hd, Option.bind_none]

end Place

/-! ## Names in the current directory -/

section Here

variable {fs : FileSystem} {entries : List (Name × Entry)} {fault : Option OsError} {name : Name}
  (hhere : fs.root.get? fs.workingDirectory = some (.directory entries fault))
  (hname : Entry.IsName name)

include hhere hname

/-- A name leads to its place in the current directory, whatever stands there. -/
theorem leads_name : Leads fs.root .itself maxLinks fs.workingDirectory [name]
    (fs.workingDirectory ++ [name]) := by
  have hnames : Names .itself name [] :=
    ⟨by simpa [Path.isIdlePart] using ⟨hname.nonempty, hname.ne_here⟩, hname.ne_above, by simp,
      hname.short⟩
  cases hf : Entry.find? name entries with
  | none => exact .missing hhere hnames hf
  | some e =>
    cases e with
    | link target => exact .link hhere hnames hf rfl
    | file contents fault' => exact .into hhere hnames hf (by simp) (.done _ _)
    | directory es fault' => exact .into hhere hnames hf (by simp) (.done _ _)

theorem resolve_name : fs.resolve .itself ⟨name⟩ = .ok (fs.workingDirectory ++ [name]) := by
  have hcheck : checkPath ⟨name⟩ = .ok () :=
    checkPath_eq_ok_iff.mpr ⟨hname.noZero, hname.nonempty, Nat.le_trans hname.short (by decide)⟩
  have hstart : startOf name fs.workingDirectory = fs.workingDirectory :=
    if_neg fun h => hname.noSlash (List.mem_of_head? h)
  rw [resolve, hcheck, locate, hstart, Path.parts, Path.partsOf_of_not_mem hname.noSlash]
  exact follow_of_leads (leads_name hhere hname)

theorem linkStatus_name : fs.linkStatus ⟨name⟩ =
    fs.entryAt (.ok (fs.workingDirectory ++ [name])) := by
  rw [linkStatus, resolve_name hhere hname]

theorem createFile_name (contents : List UInt8) : fs.createFile ⟨name⟩ contents =
    fs.createAt (.ok (fs.workingDirectory ++ [name])) (.file contents) := by
  rw [createFile, resolve_name hhere hname]

theorem removeFile_name {e : Entry} (he : fs.root.get? (fs.workingDirectory ++ [name]) = some e)
    (hfree : e.isDirectory = false) :
    fs.removeFile ⟨name⟩ = .ok (fs.erase (fs.workingDirectory ++ [name])) := by
  rw [removeFile, resolve_name hhere hname]
  simp only [he]
  cases e with
  | directory es fault' => cases hfree
  | file contents fault' => rfl
  | link target => rfl

/-! The same place, by the path of the name seen from the current directory. -/

omit hhere in
theorem bytes_here_child :
    ((⟨Path.here⟩ : Path).child name).bytes = [Path.dot, Path.slash] ++ name :=
  Path.bytes_child _ hname.noSlash

omit hhere in
theorem parts_here_child : ((⟨Path.here⟩ : Path).child name).parts = [Path.here, name] :=
  Path.parts_child _ hname.noSlash

omit hhere in
theorem checkPath_here_child : checkPath ((⟨Path.here⟩ : Path).child name) = .ok () := by
  have hlimits : maxName + 2 ≤ maxPath := by decide
  have hshort := hname.short
  rw [checkPath_eq_ok_iff, bytes_here_child hname]
  refine ⟨?_, by simp, ?_⟩
  · simp [hname.noZero, Path.dot, Path.slash]
  · rw [List.length_append]
    simp only [List.length_cons, List.length_nil]
    omega

theorem linkStatus_here_child : fs.linkStatus ((⟨Path.here⟩ : Path).child name) =
    fs.entryAt (.ok (fs.workingDirectory ++ [name])) := by
  have hleads : Leads fs.root .itself maxLinks fs.workingDirectory [Path.here, name] _ :=
    .idle hhere rfl (leads_name hhere hname)
  rw [linkStatus, resolve, checkPath_here_child hname, locate, parts_here_child hname,
    bytes_here_child hname]
  exact congrArg fs.entryAt (follow_of_leads hleads)

/-- The path of a file leads to that file. -/
theorem status_here_child {contents : List UInt8} {fault' : Option OsError}
    (hfile : fs.root.get? (fs.workingDirectory ++ [name]) = some (.file contents fault')) :
    fs.status ((⟨Path.here⟩ : Path).child name) = .ok (.file contents fault') := by
  have hat := hfile
  rw [Entry.get?_append, hhere, Option.bind_some] at hat
  have hleads := leads_names hhere hat (by simp) (List.forall_mem_singleton.mpr hname) maxLinks
  refine status_eq_ok_iff.mpr ⟨checkPath_here_child hname, _, ?_, hfile⟩
  rw [parts_here_child hname, bytes_here_child hname]
  exact .idle hhere rfl hleads

end Here

end FileSystem

end ErrorDocs
