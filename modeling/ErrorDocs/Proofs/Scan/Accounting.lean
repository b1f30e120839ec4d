import ErrorDocs.Proofs.FileSystem.Walk
import ErrorDocs.Proofs.Scan.Order
import ErrorDocs.Proofs.Text.Encoding

/-!
# What a scan reports

Every file of the walk is either read as a whole or passed over, and counted accordingly. The
whitelist of extensions and the limit on sizes choose between the two and do nothing else.

* `Scan.selects` says which files are read; `Scan.blocks?_outcome` that these are.
* `Scan.total_eq`: the total of the outcomes of files.
* **`Scan.scan_accounts`**: the result of a scan in terms of the files of its walk.
-/

namespace ErrorDocs.Scan

/-- The files that a scan reads: those that the whitelist admits, that can be read, and that are
not too large. -/
def selects (fs : FileSystem) (options : ScanOptions) (path : Path) : Bool :=
  options.filter.isEligibleFile path &&
    match fs.contentsAt path with
    | .ok contents => contents.length ≤ options.maxFileSize
    | .error _ => false

/-- The documentation of the file that a path leads to, however large it is. -/
def docsAt (fs : FileSystem) (path : Path) : List DocBlock :=
  match fs.contentsAt path with
  | .ok contents => extractDocs path (Utf8.decodeLossy contents)
  | .error _ => []

theorem filePath_of_mem_docsAt {fs : FileSystem} {path : Path} {b : DocBlock}
    (h : b ∈ docsAt fs path) : b.filePath = path := by
  unfold docsAt at h
  split at h
  · obtain ⟨c, -, rfl⟩ := List.mem_map.mp h
    rfl
  · cases h

/-- **What comes of a file** depends on whether it is one of those that are read. -/
theorem blocks?_outcome (fs : FileSystem) (options : ScanOptions) (path : Path) :
    (outcome fs options.filter path).blocks? =
      if selects fs options path then some (docsAt fs path) else none := by
  have hcap : ∀ size,
      options.filter.exceedsSizeCap size = !decide (size ≤ options.maxFileSize) := by
    intro size
    rw [PathFilter.exceedsSizeCap, ← decide_not]
    exact decide_eq_decide.mpr Nat.not_le.symm
  unfold outcome selects docsAt FileSystem.contentsAt
  cases options.filter.isEligibleFile path with
  | false => rfl
  | true =>
    cases fs.status path with
    | error e => rfl
    | ok entry =>
      cases entry with
      | file contents fault =>
        by_cases hsize : contents.length ≤ options.maxFileSize
        · cases fault <;> simp [fileSize, hcap, hsize, Outcome.blocks?]
        · cases fault <;> simp [fileSize, hcap, hsize, Outcome.blocks?]
      | directory entries fault =>
        cases fault <;> simp [fileSize, hcap, Outcome.blocks?]
      | link target =>
        simp [fileSize, hcap, Outcome.blocks?]

/-! ## The total of outcomes -/

theorem record_of_some {o : Outcome} {blocks : List DocBlock} (h : o.blocks? = some blocks)
    (r : ScanResult) : record r o =
      { r with scannedFiles := r.scannedFiles + 1, blocks := blocks.reverse ++ r.blocks } := by
  cases o with
  | scanned blocks =>
    obtain rfl := Option.some.inj h
    rfl
  | ineligible => cases h
  | tooLarge size => cases h
  | unreadable e => cases h

theorem record_of_none {o : Outcome} (h : o.blocks? = none) (r : ScanResult) :
    record r o = { r with skippedFiles := r.skippedFiles + 1 } := by
  cases o with
  | scanned blocks => cases h
  | ineligible => rfl
  | tooLarge size => rfl
  | unreadable e => rfl

theorem foldl_record (outcomes : List Outcome) (r : ScanResult) :
    outcomes.foldl record r =
      { rootDir := r.rootDir
        blocks := (outcomes.filterMap Outcome.blocks?).flatten.reverse ++ r.blocks
        scannedFiles := r.scannedFiles + (outcomes.filterMap Outcome.blocks?).length
        skippedFiles := r.skippedFiles + outcomes.countP (·.blocks?.isNone) } := by
  induction outcomes generalizing r with
  | nil => rfl
  | cons o outcomes ih =>
    rw [List.foldl_cons, ih]
    cases ho : o.blocks? with
    | none =>
      rw [record_of_none ho, List.filterMap_cons_none ho, List.countP_cons_of_pos (by simp [ho])]
      simp only [Nat.add_assoc, Nat.add_comm 1]
    | some blocks =>
      rw [record_of_some ho, List.filterMap_cons_some ho, List.countP_cons_of_neg (by simp [ho])]
      simp only [List.flatten_cons, List.reverse_append, List.append_assoc, List.length_cons,
        Nat.add_assoc, Nat.add_comm 1]

theorem total_eq (root : Path) (outcomes : List Outcome) :
    total root outcomes =
      { rootDir := root
        blocks := (outcomes.filterMap Outcome.blocks?).flatten
        scannedFiles := (outcomes.filterMap Outcome.blocks?).length
        skippedFiles := outcomes.countP (·.blocks?.isNone) } := by
  rw [total, foldl_record]
  simp

/-- **The total of the outcomes of files**: those that are read give their documentation, in
order. -/
theorem total_map_outcome (fs : FileSystem) (options : ScanOptions) (root : Path)
    (paths : List Path) :
    total root (paths.map (outcome fs options.filter)) =
      { rootDir := root
        blocks := (paths.filter (selects fs options)).flatMap (docsAt fs)
        scannedFiles := (paths.filter (selects fs options)).length
        skippedFiles := paths.countP fun path => !selects fs options path } := by
  have hread : (paths.map (outcome fs options.filter)).filterMap Outcome.blocks? =
      (paths.filter (selects fs options)).map (docsAt fs) := by
    rw [List.filterMap_map, ← List.filterMap_eq_filter, List.map_filterMap]
    refine List.filterMap_congr fun path _ => ?_
    rw [Function.comp_apply, blocks?_outcome]
    cases h : selects fs options path <;> simp [Option.guard, h]
  have hskipped : (paths.map (outcome fs options.filter)).countP (·.blocks?.isNone) =
      paths.countP fun path => !selects fs options path := by
    rw [List.countP_map]
    refine List.countP_congr fun path _ => ?_
    rw [Function.comp_apply, blocks?_outcome]
    cases selects fs options path <;> simp
  rw [total_eq, hread, hskipped, List.length_map, List.flatMap_def]

/-! ## The result of a scan -/

theorem checkRoot_eq_ok_iff {fs : FileSystem} {root : Path} :
    checkRoot fs root = .ok () ↔ fs.isDirectory root := by
  unfold checkRoot FileSystem.isDirectory
  cases fs.status root with
  | error e => cases e <;> simp
  | ok entry => cases entry.isDirectory <;> simp

theorem scan_eq_of_isDirectory {fs : FileSystem} {root : Path} (h : fs.isDirectory root)
    (options : ScanOptions) :
    scan fs options root = .ok
      { rootDir := root
        blocks := ((Visit.files (fs.walk options.filter root)).filter
          (selects fs options)).flatMap (docsAt fs)
        scannedFiles := ((Visit.files (fs.walk options.filter root)).filter
          (selects fs options)).length
        skippedFiles := (Visit.files (fs.walk options.filter root)).countP
          fun path => !selects fs options path } := by
  rw [scan, checkRoot_eq_ok_iff.mpr h, outcomes_eq_map, total_map_outcome]

/-- Blocks that are chosen by their files are those of the chosen files. -/
theorem filter_flatMap_docsAt (fs : FileSystem) (chosen : Path → Bool) (paths : List Path) :
    (paths.flatMap (docsAt fs)).filter (fun b => chosen b.filePath) =
      (paths.filter chosen).flatMap (docsAt fs) := by
  induction paths with
  | nil => rfl
  | cons path paths ih =>
    rw [List.flatMap_cons, List.filter_append, ih]
    cases hc : chosen path with
    | true =>
      rw [List.filter_cons_of_pos hc, List.flatMap_cons, List.filter_eq_self.mpr]
      intro b hb
      rw [filePath_of_mem_docsAt hb, hc]
    | false =>
      rw [List.filter_cons_of_neg (by simp [hc]), List.filter_eq_nil_iff.mpr, List.nil_append]
      intro b hb
      simp [filePath_of_mem_docsAt hb, hc]

/-- **What a scan reports.** It reports the documentation of the files of the walk that it selects,
in order, and counts every file of the walk. With another whitelist, another limit on sizes, or
the other way of reading, it counts as many files, and of the files that are selected both times
the same blocks are reported in the same order. -/
theorem scan_accounts (fs : FileSystem) (root : Path) (hroot : fs.isDirectory root)
    (options : ScanOptions) :
    let paths := Visit.files (fs.walk options.filter root)
    let read := paths.filter (selects fs options)
    ∃ r, scan fs options root = .ok r ∧ r.rootDir = root ∧ r.blocks = read.flatMap (docsAt fs) ∧
      r.scannedFiles = read.length ∧ r.scannedFiles + r.skippedFiles = paths.length ∧
      ∀ options' : ScanOptions, options'.ignoreDirs = options.ignoreDirs →
        ∃ r', scan fs options' root = .ok r' ∧
          r'.scannedFiles + r'.skippedFiles = r.scannedFiles + r.skippedFiles ∧
          r'.blocks.filter (fun b => selects fs options b.filePath) =
            r.blocks.filter (fun b => selects fs options' b.filePath) := by
  intro paths read
  have hcount : ∀ s : Path → Bool, (paths.filter s).length + paths.countP (fun p => !s p) =
      paths.length := by
    intro s
    rw [← List.countP_eq_length_filter, List.length_eq_countP_add_countP s]
    simp
  refine ⟨_, scan_eq_of_isDirectory hroot options, rfl, rfl, rfl, hcount _, ?_⟩
  intro options' hdirs
  have hwalk : Visit.files (fs.walk options'.filter root) = paths := by
    have hfilter : options'.filter.ignoreDirs = options.filter.ignoreDirs := by
      simp [ScanOptions.filter, PathFilter.new, hdirs]
    rw [FileSystem.walk_congr hfilter]
  refine ⟨_, scan_eq_of_isDirectory hroot options', ?_, ?_⟩
  · rw [hwalk, hcount, hcount]
  · rw [hwalk, filter_flatMap_docsAt, filter_flatMap_docsAt, List.filter_comm]

/-- Of four files one is read; the others have another extension, are too large, or cannot be
opened. -/
theorem scan_accounts_mixed :
    let root : Path := ⟨[Path.dot]⟩
    FileSystem.mixedTree.isDirectory root ∧
      ∃ r, scan FileSystem.mixedTree ⟨[], [".js"], 13, true⟩ root = .ok r ∧
        r.blocks = extractDocs (root.below [FileSystem.nameOf "b.js"]) "/** @error */".toList ∧
        r.blocks.length = 1 ∧ r.scannedFiles = 1 ∧ r.skippedFiles = 3 := by
  intro root
  have hroot : FileSystem.mixedTree.isDirectory root := by
    rw [FileSystem.isDirectory, FileSystem.status_mixedTree]
    rfl
  have hread : (Visit.files (FileSystem.mixedTree.walk (.new [] [".js"] 13) root)).filter
      (selects FileSystem.mixedTree ⟨[], [".js"], 13, true⟩) =
        [root.below [FileSystem.nameOf "b.js"]] := by
    rw [FileSystem.files_mixedTree]
    cbv
  have hcontents : FileSystem.mixedTree.contentsAt (root.below [FileSystem.nameOf "b.js"]) =
      .ok (Utf8.encode "/** @error */".toList) := by cbv
  obtain ⟨r, hscan, -, hblocks, hscanned, htotal, -⟩ :=
    scan_accounts FileSystem.mixedTree root hroot ⟨[], [".js"], 13, true⟩
  have hdocs : r.blocks =
      extractDocs (root.below [FileSystem.nameOf "b.js"]) "/** @error */".toList := by
    rw [hblocks]
    refine (congrArg (List.flatMap _) hread).trans ?_
    rw [List.flatMap_singleton, docsAt, hcontents]
    simp only [Utf8.decodeLossy_encode]
  refine ⟨hroot, r, hscan, hdocs, ?_, ?_, ?_⟩
  · rw [hdocs]
    cbv
  · exact hscanned.trans (congrArg List.length hread)
  · rw [hscanned.trans (congrArg List.length hread)] at htotal
    have htotal := htotal.trans (congrArg List.length (FileSystem.files_mixedTree [".js"] 13))
    simpa [Nat.add_comm 1] using htotal

end ErrorDocs.Scan
