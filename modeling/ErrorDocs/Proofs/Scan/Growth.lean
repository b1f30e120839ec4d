import ErrorDocs.Proofs.FileSystem.Growth
import ErrorDocs.Proofs.Scan.Accounting

/-!
# Scans of a file system that grows

A scan finds the same blocks in a file system that has grown by directories and by files without
documentation: the files that were there are met in the same order at the same paths, and what
comes between them adds nothing.

* `FileSystem.isOpen_iff_of_grows`: the ways that are open stay open.
* `Scan.readAt`: the blocks that come of one file.
* **`Scan.blocks_eq_of_grows`**: the blocks of two scans.
* `Scan.scan_eq_of_grows`: the results of two scans, if there are no new files at all.
-/

namespace ErrorDocs

namespace FileSystem

theorem isDirectory_iff {fs : FileSystem} {path : Path} :
    fs.isDirectory path ↔ ∃ entries fault, fs.status path = .ok (.directory entries fault) := by
  unfold isDirectory
  cases fs.status path with
  | error e => simp
  | ok e => cases e <;> simp [Entry.isDirectory]

/-- The way to what has been there from the start is as open as before when a tree grows. -/
theorem isOpen_iff_of_grows {fresh : List UInt8 → Prop} {e e' x : Entry} (hg : e.Grows fresh e')
    {filter : PathFilter} {root : Path} {l : Location} (hl : e.get? l = some x) :
    IsOpen filter root e' l ↔ IsOpen filter root e l := by
  have hopens : ∀ m, m <+: l → m ≠ l → (Opens root e' m ↔ Opens root e m) := by
    rintro m ⟨t, rfl⟩ hne
    cases t with
    | nil => exact absurd (List.append_nil m).symm hne
    | cons n t =>
      obtain ⟨sub, fault, hsub⟩ := Entry.exists_directory_of_get?_append_cons hl
      obtain ⟨sub', hsub'⟩ := hg.directory hsub
      simp [Opens, hsub, hsub']
  constructor
  · exact fun h => ⟨h.named, fun m hm hne => (hopens m hm hne).mp (h.opens m hm hne)⟩
  · exact fun h => ⟨h.named, fun m hm hne => (hopens m hm hne).mpr (h.opens m hm hne)⟩

theorem HasFile.grows {fresh : List UInt8 → Prop} {e e' : Entry} (hg : e.Grows fresh e')
    {filter : PathFilter} {root : Path} {l : Location} (h : HasFile filter root e l) :
    HasFile filter root e' l := by
  obtain ⟨⟨contents, fault, hl⟩, hopen⟩ := h
  exact ⟨⟨contents, fault, hg.file hl⟩, (isOpen_iff_of_grows hg hl).mpr hopen⟩

section Places

variable {fs : FileSystem} (hfs : fs.root.WellFormed) {root : Path}
  {entries : List (Name × Entry)} {fault : Option OsError}
  (hroot : fs.status root = .ok (.directory entries fault))

include hfs hroot

/-- What is read of a file below a directory. The length of its path may prevent it, or the fault
that it has. -/
theorem contentsAt_below {l : Location} {contents : List UInt8} {fault' : Option OsError}
    (hl : (Entry.directory entries fault).get? l = some (.file contents fault')) :
    fs.contentsAt (root.below l) =
      (checkPath (root.below l)).bind fun _ => fault'.elim (.ok contents) .error := by
  cases hcheck : checkPath (root.below l) with
  | error e => simp [contentsAt, status, entryAt, resolve, hcheck, Except.bind]
  | ok u =>
    have hlen := (checkPath_eq_ok_iff.mp hcheck).2.2
    rw [contentsAt, status_below hfs hroot hl (by simp) hlen]
    cases fault' <;> rfl

theorem eq_of_contentsAt_below {l : Location} {contents contents' : List UInt8}
    {fault' : Option OsError}
    (hl : (Entry.directory entries fault).get? l = some (.file contents fault'))
    (hc : fs.contentsAt (root.below l) = .ok contents') : contents' = contents := by
  have hstatus := contentsAt_eq_ok_iff.mp hc
  have hlen := (checkPath_eq_ok_iff.mp (status_eq_ok_iff.mp hstatus).1).2.2
  have hsame := (status_below hfs hroot hl (by simp) hlen).symm.trans hstatus
  simp only [Except.ok.injEq, Entry.file.injEq] at hsame
  exact hsame.1.symm

end Places

end FileSystem

namespace Scan

/-! ## The blocks of one file -/

/-- The blocks that come of the file at a path. -/
def readAt (fs : FileSystem) (options : ScanOptions) (path : Path) : List DocBlock :=
  if selects fs options path then docsAt fs path else []

theorem readAt_congr {fs fs' : FileSystem} {path : Path}
    (h : fs.contentsAt path = fs'.contentsAt path) (options : ScanOptions) :
    readAt fs options path = readAt fs' options path := by
  unfold readAt selects docsAt
  rw [h]

theorem readAt_eq_nil {fs : FileSystem} {path : Path} (h : docsAt fs path = [])
    (options : ScanOptions) : readAt fs options path = [] := by
  rw [readAt, h, ite_self]

theorem flatMap_readAt (fs : FileSystem) (options : ScanOptions) (paths : List Path) :
    paths.flatMap (readAt fs options) =
      (paths.filter (selects fs options)).flatMap (docsAt fs) := by
  induction paths with
  | nil => rfl
  | cons path paths ih =>
    rw [List.flatMap_cons, ih, readAt]
    split_ifs with h
    · rw [List.filter_cons_of_pos h, List.flatMap_cons]
    · rw [List.filter_cons_of_neg h, List.nil_append]

theorem isDirectory_of_scan {fs : FileSystem} {options : ScanOptions} {root : Path}
    {r : ScanResult} (h : scan fs options root = .ok r) : fs.isDirectory root := by
  rw [← checkRoot_eq_ok_iff]
  unfold scan at h
  split at h
  · cases h
  · assumption

theorem blocks_scan {fs : FileSystem} {options : ScanOptions} {root : Path} {r : ScanResult}
    (h : scan fs options root = .ok r) :
    r.blocks = (Visit.files (fs.walk options.filter root)).flatMap (readAt fs options) := by
  rw [scan_eq_of_isDirectory (isDirectory_of_scan h), Except.ok.injEq] at h
  rw [← h, flatMap_readAt]

/-! ## Growing file systems -/

/-- Contents of a file without documentation. -/
def Undocumented (contents : List UInt8) : Prop :=
  ∀ path, extractDocs path (Utf8.decodeLossy contents) = []

theorem docsAt_eq_nil {fs : FileSystem} {path : Path}
    (h : ∀ contents, fs.contentsAt path = .ok contents → Undocumented contents) :
    docsAt fs path = [] := by
  unfold docsAt
  split
  · rename_i hc
    exact h _ hc path
  · rfl

/-- What is added between the items of a list in strict order, and comes to nothing, does not
matter. -/
theorem flatMap_eq_of_subset {β : Type} {places places' : List Location}
    (h : places.Pairwise (· < ·)) (h' : places'.Pairwise (· < ·)) (hsub : places ⊆ places')
    {read : Location → List β} (hread : ∀ l ∈ places', l ∉ places → read l = []) :
    places'.flatMap read = places.flatMap read := by
  classical
  have hfilter : places'.filter (· ∈ places) = places := by
    refine (h'.filter _).eq_of_mem_iff h fun l => ?_
    rw [List.mem_filter, decide_eq_true_iff]
    exact ⟨fun hl => hl.2, fun hl => ⟨hsub hl, hl⟩⟩
  conv_rhs => rw [← hfilter]
  clear hfilter h h' hsub
  induction places' with
  | nil => rfl
  | cons l places' ih =>
    rw [List.forall_mem_cons] at hread
    rw [List.flatMap_cons, ih hread.2]
    by_cases hl : l ∈ places
    · rw [List.filter_cons_of_pos (by simpa using hl), List.flatMap_cons]
    · rw [List.filter_cons_of_neg (by simpa using hl), hread.1 hl, List.nil_append]

/-- The directory that a root leads to has grown like the rest. -/
theorem exists_grown_directory {fresh : List UInt8 → Prop} {fs fs' : FileSystem}
    (hg : fs.Grows fresh fs') {root : Path} {entries : List (Name × Entry)}
    {fault : Option OsError} (hroot : fs.status root = .ok (.directory entries fault)) :
    ∃ entries', fs'.status root = .ok (.directory entries' fault) ∧
      (Entry.directory entries fault).Grows fresh (.directory entries' fault) := by
  obtain ⟨e', hroot', hgrown⟩ := hg.status hroot
  obtain ⟨entries', rfl⟩ : ∃ entries', e' = .directory entries' fault := by
    cases hgrown.keeps with
    | directory _ entries' _ => exact ⟨entries', rfl⟩
  exact ⟨entries', hroot', hgrown⟩

/-- **A scan finds the same blocks in a file system that has grown** by directories and by files
without documentation. -/
theorem blocks_eq_of_grows {fs fs' : FileSystem} (hfs : fs.root.WellFormed)
    (hfs' : fs'.root.WellFormed) (hg : fs.Grows Undocumented fs') {options : ScanOptions}
    {root : Path} {r r' : ScanResult} (h : scan fs options root = .ok r)
    (h' : scan fs' options root = .ok r') : r'.blocks = r.blocks := by
  obtain ⟨entries, fault, hroot⟩ := FileSystem.isDirectory_iff.mp (isDirectory_of_scan h)
  obtain ⟨entries', hroot', hgrown⟩ := exists_grown_directory hg hroot
  obtain ⟨places, hfiles, hsorted, hmem⟩ :=
    FileSystem.exists_filePlaces hfs hroot options.filter
  obtain ⟨places', hfiles', hsorted', hmem'⟩ :=
    FileSystem.exists_filePlaces hfs' hroot' options.filter
  have hplaces : places ⊆ places' := fun l hl => (hmem' l).mpr (((hmem l).mp hl).grows hgrown)
  have hnew : ∀ l ∈ places', l ∉ places → readAt fs' options (root.below l) = [] := by
    intro l hl hnot
    obtain ⟨⟨contents, fault', hl⟩, hopen⟩ := (hmem' l).mp hl
    refine readAt_eq_nil (docsAt_eq_nil fun contents' hc => ?_) options
    obtain rfl := FileSystem.eq_of_contentsAt_below hfs' hroot' hl hc
    -- a file that was there before would have been met before
    rcases hgrown.file_or_fresh hl with hold | hfresh
    · have hopen := (FileSystem.isOpen_iff_of_grows hgrown hold).mp hopen
      exact absurd ((hmem l).mpr ⟨⟨_, _, hold⟩, hopen⟩) hnot
    · exact hfresh
  rw [blocks_scan h', blocks_scan h, hfiles', hfiles, List.flatMap_map, List.flatMap_map,
    flatMap_eq_of_subset hsorted hsorted' hplaces hnew]
  refine List.flatMap_congr fun l hl => readAt_congr ?_ options
  obtain ⟨⟨contents, fault', hl⟩, -⟩ := (hmem l).mp hl
  rw [FileSystem.contentsAt_below hfs' hroot' (hgrown.file hl),
    FileSystem.contentsAt_below hfs hroot hl]

/-- **A scan gives the same result in a file system that has grown** by directories only. -/
theorem scan_eq_of_grows {fs fs' : FileSystem} (hfs : fs.root.WellFormed)
    (hfs' : fs'.root.WellFormed) (hg : fs.Grows (fun _ => False) fs') {root : Path}
    (hdir : fs.isDirectory root) (options : ScanOptions) :
    scan fs' options root = scan fs options root := by
  obtain ⟨entries, fault, hroot⟩ := FileSystem.isDirectory_iff.mp hdir
  obtain ⟨entries', hroot', hgrown⟩ := exists_grown_directory hg hroot
  obtain ⟨places, hfiles, hsorted, hmem⟩ :=
    FileSystem.exists_filePlaces hfs hroot options.filter
  obtain ⟨places', hfiles', hsorted', hmem'⟩ :=
    FileSystem.exists_filePlaces hfs' hroot' options.filter
  -- there are the same files in both
  have hplaces : places' = places := by
    refine hsorted'.eq_of_mem_iff hsorted fun l => (hmem' l).trans (Iff.trans ?_ (hmem l).symm)
    refine ⟨fun ⟨⟨contents, fault', hl⟩, hopen⟩ => ?_, (·.grows hgrown)⟩
    have hold := (hgrown.file_or_fresh hl).resolve_right id
    exact ⟨⟨contents, fault', hold⟩, (FileSystem.isOpen_iff_of_grows hgrown hold).mp hopen⟩
  have hread : ∀ path ∈ Visit.files (fs.walk options.filter root),
      fs'.contentsAt path = fs.contentsAt path := by
    intro path hpath
    rw [hfiles] at hpath
    obtain ⟨l, hl, rfl⟩ := List.mem_map.mp hpath
    obtain ⟨⟨contents, fault', hl⟩, -⟩ := (hmem l).mp hl
    rw [FileSystem.contentsAt_below hfs' hroot' (hgrown.file hl),
      FileSystem.contentsAt_below hfs hroot hl]
  have hselects : ∀ path ∈ Visit.files (fs.walk options.filter root),
      selects fs' options path = selects fs options path := fun path hpath => by
    rw [selects, hread path hpath, selects]
  have hskips : (Visit.files (fs.walk options.filter root)).countP (!selects fs' options ·) =
      (Visit.files (fs.walk options.filter root)).countP (!selects fs options ·) :=
    List.countP_congr fun path hpath => by rw [hselects path hpath]
  rw [scan_eq_of_isDirectory (hg.isDirectory hdir), scan_eq_of_isDirectory hdir, hfiles', hplaces,
    ← hfiles, List.filter_congr hselects, hskips]
  refine congrArg (fun blocks => Except.ok (⟨root, blocks, _, _⟩ : ScanResult)) ?_
  refine List.flatMap_congr fun path hpath => ?_
  rw [docsAt, hread path (List.mem_of_mem_filter hpath), docsAt]

end Scan

end ErrorDocs
