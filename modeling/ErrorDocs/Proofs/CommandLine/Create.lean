import Mathlib
import ErrorDocs.CommandLine.Commands
import ErrorDocs.Proofs.Scan.Growth
import ErrorDocs.Proofs.Scheme.Unclosed

/-!
# Creating documentation

`Creates` says what a run that does not fail has done, step by step. The file that it writes may
lie among the files that it scans. It has no comments in it, so that the next run finds in it
nothing to document, and the errors that are listed are the same.

* `creates_of_failure_eq_none`, `Creates.create`: the runs that do not fail.
* `Creates.grows_written`, `Creates.blocks_eq`: what a run leaves to the next one.
* **`documentation_feeds_nothing_back`**: written documentation is not documented again.
* `create_twice_lists_other_errors`: what the output directory can change by being made.
-/

namespace ErrorDocs.CommandLine

/-! ## Runs that do not fail -/

/-- The options of the scan of a run. -/
def createOptions (config : Option Config) (parallel : Bool) : ScanOptions :=
  { optionsOf config with parallel := parallel || (optionsOf config).parallel }

/-- The file that documentation is written to in a directory. -/
def docsFile (out : Path) : Path :=
  out.join outputFileName

/-- What a run writes that has a scan with the given result. -/
def docsOf (config : Option Config) (r : ScanResult) : List UInt8 :=
  Utf8.encode (ErrorScheme.ofScan r (config.map (·.project))).render

/-- A run goes through all its steps, with this configuration, these directories and this result
of the scan. -/
structure Creates (fs : FileSystem) (given source output : Option String) (parallel : Bool)
    (config : Option Config) (src out : Path) (r : ScanResult) (fs' : FileSystem) : Prop where
  loaded : loadConfig fs given = .ok config
  chosen : chooseDir source config Config.scanDir = some src
  target : chooseDir output config Config.outputDir = some out
  found : fs.pathExists src
  made : (fs.makeDirs out).failure = none
  scanned : Scan.scan (fs.makeDirs out).disk (createOptions config parallel) src = .ok r
  written : (fs.makeDirs out).disk.writeFile (docsFile out) (docsOf config r) = .ok fs'

section

variable {fs fs' : FileSystem} {given source output : Option String} {parallel : Bool}
  {config : Option Config} {src out : Path} {r : ScanResult}

/-- **A run that does not fail has gone through all its steps.** -/
theorem creates_of_failure_eq_none (h : (create fs given source output parallel).failure = none) :
    ∃ config src out r, Creates fs given source output parallel config src out r
      (create fs given source output parallel).disk := by
  unfold create at h ⊢
  dsimp only at h ⊢
  cases hconfig : loadConfig fs given with
  | error e => simp [hconfig] at h
  | ok config =>
    cases hsource : chooseDir source config Config.scanDir with
    | none => simp [hconfig, hsource] at h
    | some src =>
      cases houtput : chooseDir output config Config.outputDir with
      | none => simp [hconfig, hsource, houtput] at h
      | some out =>
        by_cases hfound : fs.pathExists src
        · simp only [hconfig, hsource, houtput, hfound, if_true] at h ⊢
          unfold createIn at h ⊢
          dsimp only at h ⊢
          cases hmade : (fs.makeDirs out).failure with
          | some e => simp [hmade] at h
          | none =>
            simp only [hmade] at h ⊢
            cases hscan : Scan.scan (fs.makeDirs out).disk (createOptions config parallel) src with
            | error e =>
              rw [createOptions] at hscan
              simp [hscan] at h
            | ok r =>
              refine ⟨config, src, out, r, hconfig, hsource, houtput, hfound, hmade, hscan, ?_⟩
              rw [createOptions] at hscan
              simp only [hscan] at h ⊢
              unfold writeDocs at h ⊢
              dsimp only at h ⊢
              split at h
              · cases h
              · rename_i hw
                exact hw
        · simp [hconfig, hsource, houtput, hfound] at h

/-- A run that can go through all its steps does so. -/
theorem Creates.create
    (h : Creates fs given source output parallel config src out r fs') :
    (create fs given source output parallel).failure = none ∧
      (create fs given source output parallel).disk = fs' := by
  have hscan := h.scanned
  have hwritten := h.written
  rw [createOptions] at hscan
  rw [docsFile, docsOf] at hwritten
  unfold CommandLine.create createIn writeDocs
  simp only [h.loaded, h.chosen, h.target, h.found, h.made, hscan, hwritten, if_true, and_self]

/-! ## What a run leaves to the next one -/

/-- The file that is written holds the documentation of what is scanned. -/
structure Documents (fs : FileSystem) (config : Option Config) (parallel : Bool) (src out : Path)
    (r : ScanResult) (fs' : FileSystem) : Prop where
  scanned : Scan.scan (fs.makeDirs out).disk (createOptions config parallel) src = .ok r
  contents : fs'.contentsAt (docsFile out) = .ok (docsOf config r)

theorem Creates.documents (h : Creates fs given source output parallel config src out r fs') :
    Documents fs config parallel src out r fs' :=
  ⟨h.scanned, FileSystem.contentsAt_writeFile h.written⟩

theorem exists_of_mem_blocks_scan {options : ScanOptions} {root : Path}
    (h : Scan.scan fs options root = .ok r) :
    ∀ b ∈ r.blocks, ∃ path text, b ∈ extractDocs path text := by
  intro b hb
  rw [Scan.blocks_scan h] at hb
  obtain ⟨path, -, hb⟩ := List.mem_flatMap.mp hb
  unfold Scan.readAt Scan.docsAt at hb
  split_ifs at hb
  · split at hb
    · exact ⟨path, _, hb⟩
    · cases hb
  · cases hb

theorem Creates.undocumented (h : Creates fs given source output parallel config src out r fs')
    (hconfig : ∀ c ∈ config, c.project.Unclosed) : Scan.Undocumented (docsOf config r) := by
  refine fun path => ErrorScheme.extractDocs_encode_render (exists_of_mem_blocks_scan h.scanned)
    (fun p hp => ?_) path
  obtain ⟨c, hc, rfl⟩ := Option.mem_map.mp hp
  exact hconfig c hc

/-- A run that writes a new file lets the file system grow by nothing that is documented. -/
theorem Creates.grows_written (h : Creates fs given source output parallel config src out r fs')
    (hconfig : ∀ c ∈ config, c.project.Unclosed)
    (hnew : ∀ e, (fs.makeDirs out).disk.linkStatus (docsFile out) ≠ .ok e) :
    FileSystem.Grows Scan.Undocumented (fs.makeDirs out).disk fs' :=
  FileSystem.grows_writeFile (h.undocumented hconfig) hnew h.written

theorem Creates.wellFormed (h : Creates fs given source output parallel config src out r fs')
    (hfs : fs.WellFormed) : fs'.WellFormed := by
  have hmade := hfs.makeDirsOf (FileSystem.ancestors (out.bytes.length + 1) out)
  exact hmade.writeAt (fun _ => hmade.isName_of_resolve) h.written

/-- A configuration that has been read is read again, if it is looked for in the same file. -/
theorem loadConfig_of_grows {fresh : List UInt8 → Prop} (hg : FileSystem.Grows fresh fs fs')
    (hfile : configFile? fs' given = configFile? fs given) (h : loadConfig fs given = .ok config) :
    loadConfig fs' given = .ok config := by
  unfold loadConfig at h ⊢
  rw [hfile]
  cases hpath : configFile? fs given with
  | none =>
    rw [hpath] at h
    exact h
  | some path =>
    simp only [hpath] at h ⊢
    unfold Config.ofFile at h ⊢
    cases htext : fs.textAt path with
    | error e => simp [htext] at h
    | ok text =>
      rw [htext] at h
      rw [hg.textAt htext]
      exact h

/-- **The next run finds the same blocks**, if it has the same configuration. -/
theorem Creates.blocks_eq {fs'' : FileSystem} {src' out' : Path} {r' : ScanResult}
    {config' : Option Config}
    (h : Creates fs given source output parallel config src out r fs') (hfs : fs.WellFormed)
    (hconfig : ∀ c ∈ config, c.project.Unclosed)
    (hnew : ∀ e, (fs.makeDirs out).disk.linkStatus (docsFile out) ≠ .ok e)
    (hfile : configFile? fs' given = configFile? fs given)
    (h' : Creates fs' given source output parallel config' src' out' r' fs'') :
    config' = config ∧ src' = src ∧ out' = out ∧ r'.blocks = r.blocks := by
  have hmade := FileSystem.grows_makeDirs Scan.Undocumented fs out
  have hwritten := h.grows_written hconfig hnew
  obtain rfl : config = config' := by
    have := (loadConfig_of_grows (hmade.trans hwritten) hfile h.loaded).symm.trans h'.loaded
    exact Except.ok.inj this
  obtain rfl : src = src' := Option.some.inj (h.chosen.symm.trans h'.chosen)
  obtain rfl : out = out' := Option.some.inj (h.target.symm.trans h'.target)
  have hgrown := hwritten.trans (FileSystem.grows_makeDirs Scan.Undocumented fs' out)
  refine ⟨rfl, rfl, rfl, Scan.blocks_eq_of_grows ?_ ?_ hgrown h.scanned h'.scanned⟩
  · exact (hfs.makeDirsOf _).root
  · exact ((h.wellFormed hfs).makeDirsOf _).root

end

/-- **Written documentation is not documented again.** A scheme has no comments in it, if the
project closes none in what it says. So of two runs in a row with the same arguments, the second
lists the same errors, provided that both find the same configuration file, or none, and that the
output directory, once it is there, has no entry of the name of the file that is written. -/
theorem documentation_feeds_nothing_back :
    (∀ (scan : ScanResult) (project : Option ProjectMeta),
      (∀ b ∈ scan.blocks, ∃ path text, b ∈ extractDocs path text) →
      (∀ p ∈ project, p.Unclosed) →
      Comment.blocks (ErrorScheme.ofScan scan project).render = []) ∧
    ∀ (fs : FileSystem) (given source output : Option String) (parallel : Bool)
      (config : Option Config) (out : Path),
      let first := create fs given source output parallel
      let second := create first.disk given source output parallel
      fs.WellFormed →
      loadConfig fs given = .ok config → (∀ c ∈ config, c.project.Unclosed) →
      chooseDir output config Config.outputDir = some out →
      (∀ e, (fs.makeDirs out).disk.linkStatus (docsFile out) ≠ .ok e) →
      configFile? first.disk given = configFile? fs given →
      first.failure = none → second.failure = none →
      ∃ src r r', Documents fs config parallel src out r first.disk ∧
        Documents first.disk config parallel src out r' second.disk ∧
        (ErrorScheme.ofScan r' (config.map (·.project))).errors =
          (ErrorScheme.ofScan r (config.map (·.project))).errors := by
  refine ⟨fun scan project => ErrorScheme.blocks_render_ofScan, ?_⟩
  intro fs given source output parallel config out first second hfs hconfig hproject hout hnew
    hfile hfirst hsecond
  obtain ⟨config₁, src, out₁, r, h⟩ := creates_of_failure_eq_none hfirst
  obtain ⟨config₂, src', out₂, r', h'⟩ := creates_of_failure_eq_none hsecond
  obtain rfl : config = config₁ := Except.ok.inj (hconfig.symm.trans h.loaded)
  obtain rfl : out = out₁ := Option.some.inj (hout.symm.trans h.target)
  obtain ⟨rfl, rfl, rfl, hblocks⟩ := h.blocks_eq hfs hproject hnew hfile h'
  refine ⟨src', r, r', h.documents, h'.documents, ?_⟩
  rw [ErrorScheme.ofScan, ErrorScheme.ofScan, hblocks]

/-! ## Runs on small trees -/

/-- The bytes of a text. -/
def bytesOf (s : String) : List UInt8 :=
  Utf8.encode s.toList

/-- A file system with the given entries in the current directory. -/
def workTree (entries : List (Name × Entry)) : FileSystem :=
  ⟨.directory [([0x77], .directory entries)], [[0x77]]⟩

/-- A directory with a documented file in it. -/
def sourceDir (more : List (Name × Entry)) : Name × Entry :=
  (bytesOf "s", .directory ((bytesOf "a", .file (bytesOf "/** @error */")) :: more))

/-- The tree with nothing but that directory, after documentation has been written into it. -/
def inPlace (contents : List UInt8) : FileSystem :=
  workTree [sourceDir [(outputFileName.bytes, .file contents)]]

theorem wellFormed_sourceDir : (workTree [sourceDir []]).WellFormed := by
  have hplanted : workTree [sourceDir []] =
      FileSystem.fresh.plant (.ofString "s/a") (.file (bytesOf "/** @error */")) := by cbv
  rw [hplanted]
  exact (FileSystem.Reachable.fresh.plant (by decide +kernel) (.file _ _)).wellFormed

/-- A run whose steps can all be taken: what it finds are the blocks of the files of the walk. -/
theorem exists_creates {fs made : FileSystem} (source output : String) (config : Option Config)
    (after : List UInt8 → FileSystem) (hloaded : loadConfig fs none = .ok config)
    (hfound : fs.pathExists (.ofString source))
    (hmade : fs.makeDirs (.ofString output) = ⟨made, none⟩)
    (hdir : made.isDirectory (.ofString source))
    (hwritten : ∀ contents,
      made.writeFile (docsFile (.ofString output)) contents = .ok (after contents)) :
    ∃ r, Creates fs none (some source) (some output) false config (.ofString source)
        (.ofString output) r (after (docsOf config r)) ∧
      r.blocks = (Visit.files (made.walk (createOptions config false).filter
        (.ofString source))).flatMap (Scan.readAt made (createOptions config false)) := by
  have hscan := Scan.scan_eq_of_isDirectory hdir (createOptions config false)
  refine ⟨_, ⟨hloaded, rfl, rfl, hfound, ?_, ?_, ?_⟩, Scan.blocks_scan hscan⟩
  · rw [hmade]
  · rw [hmade]
    exact hscan
  · rw [hmade]
    exact hwritten _

theorem exists_creates_sourceDir : ∃ r, Creates (workTree [sourceDir []]) none (some "s") (some "s")
    false none (.ofString "s") (.ofString "s") r (inPlace (docsOf none r)) := by
  have hmade : (workTree [sourceDir []]).makeDirs (.ofString "s") =
      ⟨workTree [sourceDir []], none⟩ := by cbv
  obtain ⟨r, h, -⟩ := exists_creates "s" "s" none inPlace (by cbv) (by cbv) hmade (by cbv)
    fun _ => by cbv
  exact ⟨r, h⟩

theorem exists_creates_inPlace (contents : List UInt8) : ∃ r, Creates (inPlace contents) none
    (some "s") (some "s") false none (.ofString "s") (.ofString "s") r
    (inPlace (docsOf none r)) := by
  have hmade : (inPlace contents).makeDirs (.ofString "s") = ⟨inPlace contents, none⟩ := by cbv
  obtain ⟨r, h, -⟩ := exists_creates "s" "s" none inPlace (by cbv) (by cbv) hmade (by cbv)
    fun _ => by cbv
  exact ⟨r, h⟩

theorem documentation_feeds_nothing_back_inPlace :
    let fs := workTree [sourceDir []]
    let out := Path.ofString "s"
    let first := create fs none (some "s") (some "s") false
    let second := create first.disk none (some "s") (some "s") false
    (Comment.blocks (ErrorScheme.ofScan
      ⟨out, extractDocs out ['/', '*', '*', '@', 'e', 'r', 'r', 'o', 'r', '*', '/'], 1, 0⟩
      none).render = []) ∧
    fs.WellFormed ∧ loadConfig fs none = .ok none ∧
    (∀ e, (fs.makeDirs out).disk.linkStatus (docsFile out) ≠ .ok e) ∧
    configFile? first.disk none = configFile? fs none ∧
    first.failure = none ∧ second.failure = none ∧
    ∃ src r r', Documents fs none false src out r first.disk ∧
      Documents first.disk none false src out r' second.disk ∧
      (ErrorScheme.ofScan r' none).errors = (ErrorScheme.ofScan r none).errors := by
  intro fs out first second
  obtain ⟨r, h⟩ := exists_creates_sourceDir
  obtain ⟨r', h'⟩ := exists_creates_inPlace (docsOf none r)
  have hfirst : first.failure = none := h.create.1
  have hdisk : first.disk = inPlace (docsOf none r) := h.create.2
  have hsecond : second.failure = none := by
    show (create first.disk none (some "s") (some "s") false).failure = none
    rw [hdisk]
    exact h'.create.1
  have hnew : ∀ e, (fs.makeDirs out).disk.linkStatus (docsFile out) ≠ .ok e := by
    have hnone : (fs.makeDirs out).disk.linkStatus (docsFile out) = .error .notFound := by cbv
    rw [hnone]
    exact fun e => by simp
  have hfile : configFile? first.disk none = configFile? fs none := by
    have hnone : configFile? fs none = none := by cbv
    have hnone' : ∀ contents, configFile? (inPlace contents) none = none := fun _ => by cbv
    rw [hdisk, hnone, hnone']
  refine ⟨documentation_feeds_nothing_back.1 _ _ (fun b hb => ⟨_, _, hb⟩) (by simp),
    wellFormed_sourceDir, h.loaded, hnew, hfile, hfirst, hsecond, ?_⟩
  exact documentation_feeds_nothing_back.2 fs none (some "s") (some "s") false none out
    wellFormed_sourceDir h.loaded (by simp) rfl hnew hfile hfirst hsecond

/-! ## Runs that list other errors

Both provisions are needed. Making the output directory can let a link lead to a configuration
that was not found before, and it can let the path to the output lead to a file that is scanned. -/

/-- Two runs in a row with the same arguments succeed on a tree without the file that they write,
with projects that close no comment, and list different errors. -/
def ListsOtherErrors (fs : FileSystem) (source output : String) : Prop :=
  let out := Path.ofString output
  let first := create fs none (some source) (some output) false
  let second := create first.disk none (some source) (some output) false
  fs.WellFormed ∧ (∀ e, fs.linkStatus (docsFile out) ≠ .ok e) ∧
    first.failure = none ∧ second.failure = none ∧
    ∃ config config' src r r', loadConfig fs none = .ok config ∧
      loadConfig first.disk none = .ok config' ∧ (∀ c ∈ config, c.project.Unclosed) ∧
      (∀ c ∈ config', c.project.Unclosed) ∧ Documents fs config false src out r first.disk ∧
      Documents first.disk config' false src out r' second.disk ∧
      (ErrorScheme.ofScan r' (config'.map (·.project))).errors ≠
        (ErrorScheme.ofScan r (config.map (·.project))).errors

theorem listsOtherErrors_of_creates {fs fs' fs'' : FileSystem} {source output : String}
    {config config' : Option Config} {src : Path} {r r' : ScanResult} (hfs : fs.WellFormed)
    (habsent : ∀ e, fs.linkStatus (docsFile (.ofString output)) ≠ .ok e)
    (h : Creates fs none (some source) (some output) false config src (.ofString output) r fs')
    (h' : Creates fs' none (some source) (some output) false config' src (.ofString output) r' fs'')
    (hconfig : ∀ c ∈ config, c.project.Unclosed) (hconfig' : ∀ c ∈ config', c.project.Unclosed)
    (hblocks : (r.blocks.filterMap SchemeError.ofBlock?).length = 1) (hblocks' : r'.blocks = []) :
    ListsOtherErrors fs source output := by
  obtain ⟨hfirst, hdisk⟩ := h.create
  obtain ⟨hsecond, hdisk'⟩ := h'.create
  rw [← hdisk] at hsecond hdisk'
  refine ⟨hfs, habsent, hfirst, hsecond, config, config', src, r, r', h.loaded, ?_, hconfig,
    hconfig', ?_, ?_, ?_⟩
  · rw [hdisk]
    exact h'.loaded
  · rw [hdisk]
    exact h.documents
  · rw [hdisk', hdisk]
    exact h'.documents
  · intro he
    have hlength := congrArg List.length he
    rw [ErrorScheme.ofScan, ErrorScheme.ofScan, hblocks, hblocks'] at hlength
    cases hlength

/-- The text of a configuration that passes over all files but empty ones. -/
def cappedText : String := "\x7b\"options\":\x7b\"maxFileSize\":0\x7d\x7d"

/-- The configuration of that text, in the current directory. -/
def cappedConfig : Config where
  options := { maxFileSize := some 0 }
  baseDir := some ⟨[Path.dot]⟩

/-- A tree whose configuration file is a link over a directory that may be missing. -/
def linkedConfig (more : List (Name × Entry)) : FileSystem :=
  workTree ([sourceDir [], (bytesOf "r", .file (bytesOf cappedText)),
    (bytesOf "errogger.config.jsonc", .link (bytesOf "o/../r"))] ++ more)

theorem wellFormed_linkedConfig : (linkedConfig []).WellFormed := by
  have hplanted : linkedConfig [] =
      ((FileSystem.fresh.plant (.ofString "s/a") (.file (bytesOf "/** @error */"))).plant
        (.ofString "r") (.file (bytesOf cappedText))).plant
        (.ofString "errogger.config.jsonc") (.link (bytesOf "o/../r")) := by cbv
  rw [hplanted]
  refine (FileSystem.Reachable.plant (.plant (.plant .fresh ?_ ?_) ?_ ?_) ?_ ?_).wellFormed
  · decide +kernel
  · exact .file _ _
  · decide +kernel
  · exact .file _ _
  · decide +kernel
  · exact .link (by decide +kernel)

/-- The tree after a run. -/
def linkedConfigAfter (contents : List UInt8) : FileSystem :=
  linkedConfig [(bytesOf "o", .directory [(outputFileName.bytes, .file contents)])]

theorem loadConfig_linkedConfigAfter (contents : List UInt8) :
    loadConfig (linkedConfigAfter contents) none = .ok (some cappedConfig) := by
  have hfile : configFile? (linkedConfigAfter contents) none =
      some (.ofString "./errogger.config.jsonc") := by cbv
  have hcontents : (linkedConfigAfter contents).contentsAt (.ofString "./errogger.config.jsonc") =
      .ok (bytesOf cappedText) := by cbv
  have hdecoded : Utf8.decode? (bytesOf cappedText) = some cappedText.toList := by decide +kernel
  have hread : (Config.ofText cappedText.toList).toOption =
      some { cappedConfig with baseDir := none } := by decide +kernel
  have hparent : (Path.ofString "./errogger.config.jsonc").parent? = some ⟨[Path.dot]⟩ := by
    decide +kernel
  rw [loadConfig, hfile]
  unfold Config.ofFile FileSystem.textAt
  simp only [hcontents, hdecoded]
  cases htext : Config.ofText cappedText.toList with
  | error e =>
    rw [htext] at hread
    cases hread
  | ok c =>
    rw [htext] at hread
    obtain rfl : c = _ := Option.some.inj hread
    simp only [hparent]
    rfl

theorem exists_creates_linkedConfig : ∃ r, Creates (linkedConfig []) none (some "s") (some "o")
    false none (.ofString "s") (.ofString "o") r (linkedConfigAfter (docsOf none r)) ∧
    (r.blocks.filterMap SchemeError.ofBlock?).length = 1 := by
  have hmade : (linkedConfig []).makeDirs (.ofString "o") =
      ⟨linkedConfig [(bytesOf "o", .directory [])], none⟩ := by cbv
  obtain ⟨r, h, hblocks⟩ := exists_creates "s" "o" none linkedConfigAfter (by cbv) (by cbv) hmade
    (by cbv) fun _ => by cbv
  refine ⟨r, h, ?_⟩
  rw [hblocks]
  cbv

theorem exists_creates_linkedConfigAfter (contents : List UInt8) : ∃ r,
    Creates (linkedConfigAfter contents) none (some "s") (some "o") false (some cappedConfig)
      (.ofString "s") (.ofString "o") r (linkedConfigAfter (docsOf (some cappedConfig) r)) ∧
    r.blocks = [] := by
  have hmade : (linkedConfigAfter contents).makeDirs (.ofString "o") =
      ⟨linkedConfigAfter contents, none⟩ := by cbv
  obtain ⟨r, h, hblocks⟩ := exists_creates "s" "o" (some cappedConfig) linkedConfigAfter
    (loadConfig_linkedConfigAfter contents) (by cbv) hmade (by cbv) fun _ => by cbv
  refine ⟨r, h, ?_⟩
  rw [hblocks]
  cbv

/-- The first run makes the directory that the link to the configuration needs. -/
theorem listsOtherErrors_linkedConfig : ListsOtherErrors (linkedConfig []) "s" "o" := by
  have habsent : (linkedConfig []).linkStatus (docsFile (.ofString "o")) = .error .notFound := by
    cbv
  obtain ⟨r, h, hblocks⟩ := exists_creates_linkedConfig
  obtain ⟨r', h', hblocks'⟩ := exists_creates_linkedConfigAfter (docsOf none r)
  refine listsOtherErrors_of_creates wellFormed_linkedConfig (by simp [habsent]) h h' (by simp) ?_
    hblocks hblocks'
  rintro c ⟨⟩
  exact ⟨by decide, by decide, by decide⟩

/-- A tree whose scanned directory holds nothing but a file with the name of the documentation. -/
def detour (contents : List UInt8) (more : List (Name × Entry)) : FileSystem :=
  workTree ((bytesOf "s", .directory [(outputFileName.bytes, .file contents)]) :: more)

theorem wellFormed_detour : (detour (bytesOf "/** @error */") []).WellFormed := by
  have hplanted : detour (bytesOf "/** @error */") [] = FileSystem.fresh.plant
      (.ofString "s/errogger-docs.json") (.file (bytesOf "/** @error */")) := by cbv
  rw [hplanted]
  exact (FileSystem.Reachable.fresh.plant (by decide +kernel) (.file _ _)).wellFormed

/-- The blocks of the only file of the tree. -/
def detourBlocks (contents : List UInt8) : List DocBlock :=
  Scan.readAt (detour contents [(bytesOf "n", .directory [])]) (createOptions none false)
    (.ofString "s/errogger-docs.json")

theorem exists_creates_detour (contents : List UInt8) (more : List (Name × Entry))
    (hmore : more = [] ∨ more = [(bytesOf "n", .directory [])]) : ∃ r,
    Creates (detour contents more) none (some "s") (some "n/../s") false none (.ofString "s")
      (.ofString "n/../s") r (detour (docsOf none r) [(bytesOf "n", .directory [])]) ∧
    r.blocks = detourBlocks contents := by
  have hmade : (detour contents more).makeDirs (.ofString "n/../s") =
      ⟨detour contents [(bytesOf "n", .directory [])], none⟩ := by
    rcases hmore with rfl | rfl <;> cbv
  have hloaded : loadConfig (detour contents more) none = .ok none := by
    rcases hmore with rfl | rfl <;> cbv
  have hfound : (detour contents more).pathExists (.ofString "s") := by
    rcases hmore with rfl | rfl <;> cbv
  have hfiles : Visit.files ((detour contents [(bytesOf "n", .directory [])]).walk
      (createOptions none false).filter (.ofString "s")) =
      [.ofString "s/errogger-docs.json"] := by cbv
  obtain ⟨r, h, hblocks⟩ := exists_creates "s" "n/../s" none
    (fun contents => detour contents [(bytesOf "n", .directory [])]) hloaded hfound hmade (by cbv)
    fun _ => by cbv
  refine ⟨r, h, ?_⟩
  rw [hblocks, hfiles, List.flatMap_singleton, detourBlocks]

/-- The first run makes the directory that the path to the output leads through. -/
theorem listsOtherErrors_detour :
    ListsOtherErrors (detour (bytesOf "/** @error */") []) "s" "n/../s" := by
  have habsent : (detour (bytesOf "/** @error */") []).linkStatus
      (docsFile (.ofString "n/../s")) = .error .notFound := by cbv
  obtain ⟨r, h, hblocks⟩ := exists_creates_detour (bytesOf "/** @error */") [] (.inl rfl)
  obtain ⟨r', h', hblocks'⟩ := exists_creates_detour (docsOf none r) _ (.inr rfl)
  have hcontents : ∀ contents, (detour contents [(bytesOf "n", .directory [])]).contentsAt
      (.ofString "s/errogger-docs.json") = .ok contents := fun _ => by cbv
  refine listsOtherErrors_of_creates wellFormed_detour (by simp [habsent]) h h' (by simp)
    (by simp) ?_ ?_
  · rw [hblocks]
    cbv
  · rw [hblocks']
    refine Scan.readAt_eq_nil (Scan.docsAt_eq_nil fun contents hc => ?_) _
    rw [hcontents] at hc
    obtain rfl := Except.ok.inj hc
    exact h.undocumented (by simp)

/-- **A run can list other errors than the one before**, although nothing was found at the path that
both write to. -/
theorem create_twice_lists_other_errors :
    ListsOtherErrors (linkedConfig []) "s" "o" ∧
      ListsOtherErrors (detour (bytesOf "/** @error */") []) "s" "n/../s" :=
  ⟨listsOtherErrors_linkedConfig, listsOtherErrors_detour⟩

end ErrorDocs.CommandLine
