import ErrorDocs.Proofs.CommandLine.Agreement
import ErrorDocs.Proofs.FileSystem.Extension
import ErrorDocs.Proofs.Scan.Root

/-!
# What creating documentation changes

A run that writes documentation makes the output directory and the missing ones above it, scans,
and writes one file. `Stops` says where a run that fails can stop: before it makes the directories,
or after that. Either way the directories are all that it can leave behind.

* `stops_of_failure`: the runs that fail.
* **`create_leaves_nothing_behind`**: runs that cannot scan.
* `create_makes_output_beside_file`: what such a run leaves if its source is a file.
* **`create_touches_documentation`**: what a run may change, whether or not it fails.
-/

namespace ErrorDocs.CommandLine

open FileSystem (AtOrAbove Extends LeadsTo)

variable {fs fs' : FileSystem} {given source output : Option String} {parallel : Bool}
  {config : Option Config} {src out : Path} {r : ScanResult}

/-! ## Runs that fail -/

/-- Where a run can stop, and the file system that it leaves. -/
inductive Stops (fs : FileSystem) (given source output : Option String) : FileSystem → Prop where
  /-- The configuration cannot be loaded. -/
  | unloaded {e : LoadError} (h : loadConfig fs given = .error e) : Stops fs given source output fs
  /-- A directory is neither given nor configured. -/
  | unspecified {config : Option Config} (hloaded : loadConfig fs given = .ok config)
      (h : chooseDir source config Config.scanDir = none ∨
        chooseDir output config Config.outputDir = none) : Stops fs given source output fs
  /-- The source leads to nothing. -/
  | missing {config : Option Config} {src out : Path} (hloaded : loadConfig fs given = .ok config)
      (hchosen : chooseDir source config Config.scanDir = some src)
      (htarget : chooseDir output config Config.outputDir = some out)
      (h : fs.pathExists src = false) : Stops fs given source output fs
  /-- The directories have been made, or some of them. -/
  | made {config : Option Config} {src out : Path} (hloaded : loadConfig fs given = .ok config)
      (hchosen : chooseDir source config Config.scanDir = some src)
      (htarget : chooseDir output config Config.outputDir = some out)
      (h : fs.pathExists src = true) : Stops fs given source output (fs.makeDirs out).disk

theorem disk_writeDocs {log : List LogLine} (h : (writeDocs fs log out config r).failure ≠ none) :
    (writeDocs fs log out config r).disk = fs := by
  unfold writeDocs at h ⊢
  dsimp only at h ⊢
  split at h
  · rfl
  · exact absurd rfl h

theorem disk_createIn {log : List LogLine}
    (h : (createIn fs log config parallel src out).failure ≠ none) :
    (createIn fs log config parallel src out).disk = (fs.makeDirs out).disk := by
  unfold createIn at h ⊢
  dsimp only at h ⊢
  split at h
  · rfl
  · split at h
    · rfl
    · exact disk_writeDocs h

/-- **A run that fails has stopped at one of its steps.** -/
theorem stops_of_failure (h : (create fs given source output parallel).failure ≠ none) :
    Stops fs given source output (create fs given source output parallel).disk := by
  unfold create at h ⊢
  dsimp only at h ⊢
  cases hconfig : loadConfig fs given with
  | error e => exact .unloaded hconfig
  | ok config =>
    simp only [hconfig] at h ⊢
    cases hsource : chooseDir source config Config.scanDir with
    | none => exact .unspecified hconfig (.inl hsource)
    | some src =>
      cases houtput : chooseDir output config Config.outputDir with
      | none => exact .unspecified hconfig (.inr houtput)
      | some out =>
        simp only [hsource, houtput] at h ⊢
        split_ifs at h ⊢ with hfound
        · rw [disk_createIn h]
          exact .made hconfig hsource houtput hfound
        · exact .missing hconfig hsource houtput (Bool.eq_false_iff.mpr hfound)

/-! ## Runs that cannot scan -/

/-- The source of a run that does not fail is a directory before the output directory is made. -/
theorem Creates.isDirectory (h : Creates fs given source output parallel config src out r fs') :
    fs.isDirectory src := by
  have hmade := Scan.isDirectory_of_scan h.scanned
  have hfound := h.found
  unfold FileSystem.pathExists at hfound
  unfold FileSystem.isDirectory at hmade ⊢
  cases hstatus : fs.status src with
  | error e =>
    rw [hstatus] at hfound
    cases hfound
  | ok x =>
    obtain ⟨x', hstatus', hgrown⟩ :=
      (FileSystem.grows_makeDirs (fun _ => True) fs out).status hstatus
    rw [hstatus'] at hmade
    exact hgrown.keeps.isDirectory_eq.symm.trans hmade

theorem pathExists_of_refused {e : ScanError} (h : Scan.Refused fs src e) :
    fs.pathExists src = decide (e = .notADirectory src) := by
  unfold FileSystem.pathExists
  cases h with
  | missing h => simp [FileSystem.status_eq_error_iff.mpr h, Except.toBool]
  | blocked h hne => simp [FileSystem.status_eq_error_iff.mpr h, Except.toBool]
  | notADirectory hleads he hd =>
    simp [FileSystem.status_eq_ok_iff_leadsTo.mpr ⟨_, hleads, he⟩, Except.toBool]

theorem create_of_unloaded {e : LoadError} (h : loadConfig fs given = .error e) :
    let run := create fs given source output parallel
    run.failure ≠ none ∧ run.disk = fs := by
  simp [create, h]

theorem create_of_unspecified (hloaded : loadConfig fs given = .ok config)
    (h : chooseDir source config Config.scanDir = none ∨
      chooseDir output config Config.outputDir = none) :
    let run := create fs given source output parallel
    run.failure ≠ none ∧ run.disk = fs := by
  rcases h with h | h
  · simp [create, hloaded, h]
  · cases hsource : chooseDir source config Config.scanDir <;> simp [create, hloaded, hsource, h]

section Settled

variable (hloaded : loadConfig fs given = .ok config)
  (hchosen : chooseDir source config Config.scanDir = some src)
  (htarget : chooseDir output config Config.outputDir = some out)

include hloaded hchosen htarget

/-- A run that knows its directories makes the output directory if its source leads anywhere. -/
theorem Stops.disk_eq (h : Stops fs given source output fs') :
    fs' = if fs.pathExists src then (fs.makeDirs out).disk else fs := by
  cases h with
  | unloaded h =>
    rw [hloaded] at h
    cases h
  | unspecified hloaded' h =>
    obtain rfl := Except.ok.inj (hloaded.symm.trans hloaded')
    rw [hchosen, htarget] at h
    simp at h
  | missing hloaded' hchosen' htarget' h =>
    obtain rfl := Except.ok.inj (hloaded.symm.trans hloaded')
    obtain rfl := Option.some.inj (hchosen.symm.trans hchosen')
    simp [h]
  | made hloaded' hchosen' htarget' h =>
    obtain rfl := Except.ok.inj (hloaded.symm.trans hloaded')
    obtain rfl := Option.some.inj (hchosen.symm.trans hchosen')
    obtain rfl := Option.some.inj (htarget.symm.trans htarget')
    simp [h]

/-- A run whose source is refused fails, and makes the output directory before that only if the
source is something else than a directory. -/
theorem create_of_refused {e : ScanError} (h : Scan.Refused fs src e) :
    let run := create fs given source output parallel
    run.failure ≠ none ∧
      run.disk = if e = .notADirectory src then (fs.makeDirs out).disk else fs := by
  intro run
  have hfail : run.failure ≠ none := by
    -- a run that does not fail has scanned a directory
    intro hnone
    obtain ⟨config', src', out', r, hcreates⟩ := creates_of_failure_eq_none hnone
    obtain rfl := Except.ok.inj (hloaded.symm.trans hcreates.loaded)
    obtain rfl := Option.some.inj (hchosen.symm.trans hcreates.chosen)
    have hscan := Scan.scan_eq_of_isDirectory hcreates.isDirectory {}
    rw [Scan.scan_eq_error_iff.mpr h] at hscan
    cases hscan
  refine ⟨hfail, ?_⟩
  rw [(stops_of_failure hfail).disk_eq hloaded hchosen htarget, pathExists_of_refused h]
  simp

end Settled

/-- **A run that cannot scan leaves nothing behind**, unless its source is there and is no
directory. It fails, and the file system is as before, if the configuration cannot be loaded, if a
directory is neither given nor configured, or if the source is missing or cannot be reached. If the
source is something else than a directory, the run fails after it has made the output directory. -/
theorem create_leaves_nothing_behind (fs : FileSystem) (given source output : Option String)
    (parallel : Bool) :
    let run := create fs given source output parallel
    (∀ e, loadConfig fs given = .error e → run.failure ≠ none ∧ run.disk = fs) ∧
    ∀ config, loadConfig fs given = .ok config →
      (chooseDir source config Config.scanDir = none ∨
          chooseDir output config Config.outputDir = none →
        run.failure ≠ none ∧ run.disk = fs) ∧
      ∀ src out e, chooseDir source config Config.scanDir = some src →
        chooseDir output config Config.outputDir = some out →
        Scan.scan fs (createOptions config parallel) src = .error e →
        run.failure ≠ none ∧ (e ≠ .notADirectory src → run.disk = fs) ∧
          (e = .notADirectory src → run.disk = (fs.makeDirs out).disk) := by
  intro run
  refine ⟨fun e => create_of_unloaded, fun config hloaded => ⟨create_of_unspecified hloaded, ?_⟩⟩
  intro src out e hchosen htarget hscan
  obtain ⟨hfail, hdisk⟩ : run.failure ≠ none ∧ run.disk = _ :=
    create_of_refused hloaded hchosen htarget (Scan.scan_eq_error_iff.mp hscan)
  exact ⟨hfail, fun hne => hdisk.trans (if_neg hne), fun heq => hdisk.trans (if_pos heq)⟩

theorem create_leaves_nothing_behind_missing :
    let fs := workTree []
    let run := create fs none (some "s") (some "o") false
    Scan.scan fs (createOptions none false) (.ofString "s") =
        .error (.rootNotFound (.ofString "s")) ∧
      run.failure ≠ none ∧ run.disk = fs := by
  intro fs run
  have hloaded : loadConfig fs none = .ok none := by cbv
  have hscan : Scan.scan fs (createOptions none false) (.ofString "s") =
      .error (.rootNotFound (.ofString "s")) := by cbv
  obtain ⟨hfail, hdisk, -⟩ :=
    ((create_leaves_nothing_behind fs none (some "s") (some "o") false).2 none hloaded).2 _ _ _ rfl
      rfl hscan
  exact ⟨hscan, hfail, hdisk (by simp)⟩

/-- A tree with a file where a source directory is looked for. -/
def sourceFile : FileSystem := workTree [(bytesOf "s", .file [])]

/-- **A run whose source is a file makes the output directory** before it finds out. -/
theorem create_makes_output_beside_file :
    let run := create sourceFile none (some "s") (some "o") false
    Scan.scan sourceFile (createOptions none false) (.ofString "s") =
        .error (.notADirectory (.ofString "s")) ∧
      run.failure ≠ none ∧ sourceFile.pathExists (.ofString "o") = false ∧
      run.disk.isDirectory (.ofString "o") = true := by
  intro run
  have hloaded : loadConfig sourceFile none = .ok none := by cbv
  have hscan : Scan.scan sourceFile (createOptions none false) (.ofString "s") =
      .error (.notADirectory (.ofString "s")) := by cbv
  have hmade : (sourceFile.makeDirs (.ofString "o")).disk.isDirectory (.ofString "o") = true := by
    cbv
  obtain ⟨hfail, hdisk⟩ : run.failure ≠ none ∧ run.disk = _ :=
    create_of_refused hloaded rfl rfl (Scan.scan_eq_error_iff.mp hscan)
  refine ⟨hscan, hfail, by cbv, ?_⟩
  rw [hdisk, if_pos rfl]
  exact hmade

/-! ## What may change -/

/-- A run that fails leaves at most new directories behind. -/
theorem Stops.extends (h : Stops fs given source output fs') :
    fs' = fs ∨ ∃ config out, loadConfig fs given = .ok config ∧
      chooseDir output config Config.outputDir = some out ∧
      Extends (AtOrAbove out) none fs fs' := by
  cases h with
  | unloaded h => exact .inl rfl
  | unspecified hloaded h => exact .inl rfl
  | missing hloaded hchosen htarget h => exact .inl rfl
  | made hloaded hchosen htarget h =>
    exact .inr ⟨_, _, hloaded, htarget, FileSystem.extends_makeDirs fs _⟩

/-- A run that does not fail writes one file besides. -/
theorem Creates.extends (h : Creates fs given source output parallel config src out r fs') :
    ∃ l, LeadsTo fs' (docsFile out) l ∧ fs'.root.get? l = some (.file (docsOf config r)) ∧
      (∀ x, fs.root.get? l = some x → ∃ old, x = .file old) ∧
      Extends (AtOrAbove out) (some l) fs fs' := by
  have hmade := FileSystem.extends_makeDirs fs out
  obtain ⟨l, hleads, hl, hfile, hwritten⟩ :=
    FileSystem.extends_writeFile (AtOrAbove out) h.written
  refine ⟨l, hleads, hl, fun x hx => ?_, hmade.trans hwritten fun m hm => ?_⟩
  · obtain ⟨x', hx', hk⟩ := hmade.kept l x (by simp) hx
    obtain ⟨old, rfl⟩ := hfile x' hx'
    cases hk
    exact ⟨old, rfl⟩
  · obtain rfl := Option.some.inj hm
    exact hfile

/-- **What a run may change.** Whether or not it fails, every entry stays, and all that is new are
directories to which the path of the output directory or one above it leads. If the run does not
fail, there is besides one file, to which the path of the documentation leads: it is new, or was
there, and holds the documentation of what has been scanned. -/
theorem create_touches_documentation (fs : FileSystem) (given source output : Option String)
    (parallel : Bool) :
    let run := create fs given source output parallel
    (run.failure ≠ none → run.disk = fs ∨ ∃ config out, loadConfig fs given = .ok config ∧
      chooseDir output config Config.outputDir = some out ∧
      Extends (AtOrAbove out) none fs run.disk) ∧
    (run.failure = none → ∃ config src out r l, loadConfig fs given = .ok config ∧
      chooseDir source config Config.scanDir = some src ∧
      chooseDir output config Config.outputDir = some out ∧
      Scan.scan (fs.makeDirs out).disk (createOptions config parallel) src = .ok r ∧
      (fs.WellFormed → Scan.scan fs (optionsOf config) src = .ok r) ∧
      LeadsTo run.disk (docsFile out) l ∧
      run.disk.root.get? l = some (.file (docsOf config r)) ∧
      (∀ x, fs.root.get? l = some x → ∃ old, x = .file old) ∧
      Extends (AtOrAbove out) (some l) fs run.disk) := by
  intro run
  refine ⟨fun hfail => (stops_of_failure hfail).extends, fun hnone => ?_⟩
  obtain ⟨config, src, out, r, h⟩ := creates_of_failure_eq_none hnone
  obtain ⟨l, hleads, hl, hfile, hextends⟩ := h.extends
  exact ⟨config, src, out, r, l, h.loaded, h.chosen, h.target, h.scanned,
    fun hfs => h.scan_eq hfs h.isDirectory, hleads, hl, hfile, hextends⟩

/-- The tree with a source directory, after documentation has been written beside it. -/
def besideSource (contents : List UInt8) : FileSystem :=
  workTree [sourceDir [], (bytesOf "o", .directory [(outputFileName.bytes, .file contents)])]

theorem create_touches_documentation_besideSource :
    let fs := workTree [sourceDir []]
    let run := create fs none (some "s") (some "o") false
    run.failure = none ∧ ∃ r l, LeadsTo run.disk (docsFile (.ofString "o")) l ∧
      run.disk.root.get? l = some (.file (docsOf none r)) ∧
      Extends (AtOrAbove (.ofString "o")) (some l) fs run.disk := by
  intro fs run
  have hmade : fs.makeDirs (.ofString "o") =
      ⟨workTree [sourceDir [], (bytesOf "o", .directory [])], none⟩ := by cbv
  obtain ⟨r, h, -⟩ := exists_creates "s" "o" none besideSource (by cbv) (by cbv) hmade (by cbv)
    fun _ => by cbv
  have hrun : run.failure = none := h.create.1
  obtain ⟨config, src, out, r', l, hloaded, -, htarget, -, -, hleads, hl, -, hextends⟩ :=
    (create_touches_documentation fs none (some "s") (some "o") false).2 hrun
  obtain rfl := Except.ok.inj (h.loaded.symm.trans hloaded)
  obtain rfl := Option.some.inj htarget
  exact ⟨hrun, r', l, hleads, hl, hextends⟩

end ErrorDocs.CommandLine
