import ErrorDocs.Proofs.CommandLine.Create
import ErrorDocs.Proofs.Comment.Decoding
import ErrorDocs.Proofs.Config.Acceptance
import ErrorDocs.Proofs.Scheme.RoundTrip

/-!
# What is printed and what is written

One command prints what a scan finds, another writes documentation of it. They start from the same
file system and are given the same configuration and source; the second makes its output directory
before it scans, and may read files side by side. None of this matters: what is written is the
documentation of what is printed.

* `Prints`, `prints_of_failure_eq_none`: the runs that print.
* `Creates.scan_eq`: the scan of a run that writes is the one of a run that prints.
* `Prints.isPortable`: what is printed can be read back.
* **`create_agrees_with_scan`**: the documentation is that of what has been printed.
-/

namespace ErrorDocs.CommandLine

/-! ## Runs that print -/

/-- A run goes through all its steps, with this configuration, this directory and this result of
the scan, and prints this text. -/
structure Prints (fs : FileSystem) (given source : Option String) (config : Option Config)
    (src : Path) (r : ScanResult) (text : List Char) : Prop where
  loaded : loadConfig fs given = .ok config
  chosen : chooseDir source config Config.scanDir = some src
  scanned : Scan.scan fs (optionsOf config) src = .ok r
  rendered : r.render? = some text
  printed : (scan fs given source).output = text ++ ['\n']

/-- **A run that does not fail has gone through all its steps.** -/
theorem prints_of_failure_eq_none {fs : FileSystem} {given source : Option String}
    (h : (scan fs given source).failure = none) :
    ∃ config src r text, Prints fs given source config src r text := by
  cases hconfig : loadConfig fs given with
  | error e => simp [scan, hconfig] at h
  | ok config =>
    cases hsource : chooseDir source config Config.scanDir with
    | none => simp [scan, hconfig, hsource] at h
    | some src =>
      cases hscan : Scan.scan fs (optionsOf config) src with
      | error e => simp [scan, hconfig, hsource, hscan] at h
      | ok r =>
        cases htext : r.render? with
        | none => simp [scan, hconfig, hsource, hscan, htext] at h
        | some text =>
          refine ⟨config, src, r, text, hconfig, hsource, hscan, htext, ?_⟩
          simp [scan, hconfig, hsource, hscan, htext]

/-- A directory is printed if the paths in it are UTF-8. -/
theorem failure_scan_eq_none {fs : FileSystem} {given source : Option String}
    {config : Option Config} {src : Path} (hloaded : loadConfig fs given = .ok config)
    (hchosen : chooseDir source config Config.scanDir = some src) (hdir : fs.isDirectory src)
    (hsrc : src.IsUtf8)
    (hpaths : ∀ path ∈ Visit.files (fs.walk (optionsOf config).filter src), path.IsUtf8) :
    (scan fs given source).failure = none := by
  obtain ⟨r, hscan, hroot, hblocks⟩ : ∃ r, Scan.scan fs (optionsOf config) src = .ok r ∧
      r.rootDir = src ∧ r.blocks = ((Visit.files (fs.walk (optionsOf config).filter src)).filter
        (Scan.selects fs (optionsOf config))).flatMap (Scan.docsAt fs) :=
    ⟨_, Scan.scan_eq_of_isDirectory hdir _, rfl, rfl⟩
  cases htext : r.render? with
  | some text => simp [scan, hloaded, hchosen, hscan, htext]
  | none =>
    rcases r.render?_eq_none_iff.mp htext with hnot | ⟨b, hb, hnot⟩
    · exact absurd (hroot ▸ hsrc) hnot
    · rw [hblocks] at hb
      obtain ⟨path, hpath, hb⟩ := List.mem_flatMap.mp hb
      rw [Scan.filePath_of_mem_docsAt hb] at hnot
      exact absurd (hpaths path (List.mem_of_mem_filter hpath)) hnot

/-! ## The numbers of a result -/

theorem maxFileSize_lt_of_ofFile {fs : FileSystem} {path : Path} {c : Config}
    (h : Config.ofFile fs path = .ok c) : ∀ n ∈ c.options.maxFileSize, n < Nat.pow 2 64 := by
  unfold Config.ofFile at h
  split at h
  · cases h
  · split at h
    · cases h
    · rename_i c₀ htext
      obtain rfl := Except.ok.inj h
      exact Config.maxFileSize_lt_of_ofText (c := c₀) htext

theorem maxFileSize_optionsOf_lt {fs : FileSystem} {given : Option String} {config : Option Config}
    (h : loadConfig fs given = .ok config) : (optionsOf config).maxFileSize < Nat.pow 2 64 := by
  have hdefault : Filter.defaultMaxFileSize < Nat.pow 2 64 := by decide
  cases config with
  | none => exact hdefault
  | some c =>
    have hsize : ∀ n ∈ c.options.maxFileSize, n < Nat.pow 2 64 := by
      unfold loadConfig at h
      split at h
      · cases h
      · split at h
        · cases h
        · rename_i hfile
          obtain rfl := Option.some.inj (Except.ok.inj h)
          exact maxFileSize_lt_of_ofFile hfile
    show c.options.maxFileSize.getD Filter.defaultMaxFileSize < Nat.pow 2 64
    cases hn : c.options.maxFileSize with
    | none => exact hdefault
    | some n => exact hsize n hn

/-- The line of a block is at most the size of its file, which the filter has let through. -/
theorem startLine_le_of_scan {fs : FileSystem} {options : ScanOptions} {root : Path}
    {r : ScanResult} (h : Scan.scan fs options root = .ok r) {b : DocBlock} (hb : b ∈ r.blocks) :
    b.startLine ≤ options.maxFileSize := by
  rw [Scan.blocks_scan h] at hb
  obtain ⟨path, -, hb⟩ := List.mem_flatMap.mp hb
  unfold Scan.readAt at hb
  split_ifs at hb with hselects
  · unfold Scan.docsAt at hb
    unfold Scan.selects at hselects
    cases hc : fs.contentsAt path with
    | error e => simp [hc] at hb
    | ok contents =>
      simp only [hc, Bool.and_eq_true, decide_eq_true_eq] at hb hselects
      exact (startLine_le_length hb).trans hselects.2
  · cases hb

variable {fs fs' : FileSystem} {given source output : Option String} {parallel : Bool}
  {config : Option Config} {src out : Path} {r : ScanResult} {text : List Char}

/-- What is printed can be read back, if there are not too many files. -/
theorem Prints.isPortable (h : Prints fs given source config src r text)
    (hfiles : r.scannedFiles + r.skippedFiles < Nat.pow 2 64) : r.IsPortable := by
  have hpaths : ¬ (¬ r.rootDir.IsUtf8 ∨ ∃ b ∈ r.blocks, ¬ b.filePath.IsUtf8) := by
    rw [← r.render?_eq_none_iff, h.rendered]
    simp
  push Not at hpaths
  refine ⟨hpaths.1, hpaths.2, fun b hb => ?_, by omega, by omega⟩
  exact (startLine_le_of_scan h.scanned hb).trans_lt (maxFileSize_optionsOf_lt h.loaded)

theorem Prints.parse?_output (h : Prints fs given source config src r text)
    (hr : r.IsPortable) :
    (Json.parse? (scan fs given source).output).bind ScanResult.ofJson? = some r := by
  obtain ⟨v, hv, hcarries⟩ := hr.exists_carries
  have htext : text = v.pretty := by
    have := h.rendered
    rw [ScanResult.render?, hv, Option.map_some, Option.some.injEq] at this
    exact this.symm
  rw [h.printed, htext]
  exact hcarries.parse?_pretty (List.forall_mem_singleton.mpr rfl)

theorem Prints.files_eq (h : Prints fs given source config src r text) :
    r.scannedFiles + r.skippedFiles =
      (Visit.files (fs.walk (optionsOf config).filter src)).length := by
  have hscanned := h.scanned
  rw [Scan.scan_eq_of_isDirectory (Scan.isDirectory_of_scan hscanned), Except.ok.injEq] at hscanned
  subst hscanned
  dsimp only
  rw [← List.countP_eq_length_filter,
    List.length_eq_countP_add_countP (Scan.selects fs (optionsOf config))]
  simp

/-! ## Agreement -/

/-- Whether files are read side by side does not matter. -/
theorem scan_createOptions (fs : FileSystem) (config : Option Config) (parallel : Bool)
    (root : Path) :
    Scan.scan fs (createOptions config parallel) root = Scan.scan fs (optionsOf config) root := by
  rw [Scan.scan_eq_scanWalking, Scan.scan_eq_scanWalking]
  rfl

/-- **The scan of a run that writes** gives what the scan of a run that prints gives. -/
theorem Creates.scan_eq (h : Creates fs given source output parallel config src out r fs')
    (hfs : fs.WellFormed) (hdir : fs.isDirectory src) :
    Scan.scan fs (optionsOf config) src = .ok r := by
  have hmade : (fs.makeDirs out).disk.WellFormed := hfs.makeDirsOf _
  rw [← Scan.scan_eq_of_grows hfs.root hmade.root (FileSystem.grows_makeDirs _ fs out) hdir,
    ← scan_createOptions _ _ parallel]
  exact h.scanned

/-- **What is written is the documentation of what is printed.** Two runs start from the same file
system with the same configuration file, if any, and the same source; one prints what it finds, and
the other writes documentation. If neither fails, then the documentation is that of the result that
is read from what was printed, and of the configured project. Numbers of files are read if they have
64 bits. -/
theorem create_agrees_with_scan (fs : FileSystem) (hfs : fs.WellFormed)
    (given source output : Option String) (parallel : Bool)
    (hscan : (scan fs given source).failure = none)
    (hcreate : (create fs given source output parallel).failure = none) :
    ∃ config src out r text, Prints fs given source config src r text ∧
      chooseDir output config Config.outputDir = some out ∧
      (r.scannedFiles + r.skippedFiles < Nat.pow 2 64 →
        (Json.parse? (scan fs given source).output).bind ScanResult.ofJson? = some r) ∧
      (create fs given source output parallel).disk.contentsAt (docsFile out) =
        .ok (Utf8.encode (ErrorScheme.ofScan r (config.map (·.project))).render) := by
  obtain ⟨config, src, r, text, hprints⟩ := prints_of_failure_eq_none hscan
  obtain ⟨config', src', out, r', hcreates⟩ := creates_of_failure_eq_none hcreate
  obtain rfl : config = config' := Except.ok.inj (hprints.loaded.symm.trans hcreates.loaded)
  obtain rfl : src = src' := Option.some.inj (hprints.chosen.symm.trans hcreates.chosen)
  obtain rfl : r = r' := by
    have := hcreates.scan_eq hfs (Scan.isDirectory_of_scan hprints.scanned)
    exact Except.ok.inj (hprints.scanned.symm.trans this)
  exact ⟨config, src, out, r, text, hprints, hcreates.target,
    fun hfiles => hprints.parse?_output (hprints.isPortable hfiles),
    hcreates.documents.contents⟩

theorem files_sourceDir : Visit.files ((workTree [sourceDir []]).walk (optionsOf none).filter
    (.ofString "s")) = [.ofString "s/a"] := by
  cbv

/-- Documentation is written into the directory that is scanned. -/
theorem create_agrees_with_scan_inPlace :
    let fs := workTree [sourceDir []]
    let printed := scan fs none (some "s")
    let written := create fs none (some "s") (some "s") false
    fs.WellFormed ∧ printed.failure = none ∧ written.failure = none ∧
      ∃ r, (Json.parse? printed.output).bind ScanResult.ofJson? = some r ∧
        written.disk.contentsAt (docsFile (.ofString "s")) =
          .ok (Utf8.encode (ErrorScheme.ofScan r none).render) := by
  obtain ⟨_, hcreates⟩ := exists_creates_sourceDir
  have hwritten := hcreates.create.1
  have hprinted : (scan (workTree [sourceDir []]) none (some "s")).failure = none := by
    refine failure_scan_eq_none hcreates.loaded hcreates.chosen (by cbv) (Path.isUtf8_ofString _) ?_
    rw [files_sourceDir]
    exact List.forall_mem_singleton.mpr (Path.isUtf8_ofString _)
  refine ⟨wellFormed_sourceDir, hprinted, hwritten, ?_⟩
  obtain ⟨config, src, out, r, text, hprints, hout, hread, hcontents⟩ :=
    create_agrees_with_scan _ wellFormed_sourceDir none (some "s") (some "s") false hprinted
      hwritten
  obtain rfl : none = config := Except.ok.inj (hcreates.loaded.symm.trans hprints.loaded)
  obtain rfl : Path.ofString "s" = out := Option.some.inj hout
  obtain rfl : Path.ofString "s" = src := Option.some.inj hprints.chosen
  refine ⟨r, hread ?_, hcontents⟩
  rw [hprints.files_eq, files_sourceDir]
  decide

end ErrorDocs.CommandLine
