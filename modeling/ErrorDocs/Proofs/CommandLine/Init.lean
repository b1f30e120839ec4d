import Mathlib
import ErrorDocs.CommandLine.Commands
import ErrorDocs.Proofs.FileSystem.Replacement
import ErrorDocs.Proofs.Text.Encoding

/-!
# A new configuration file

`init` writes one file in the current directory and touches nothing else. What may stand in its way
is looked at in three ways: a file is looked for through links, an entry that is to be replaced is
taken as it is, and a new file is made only where there is no entry at all.

* `HasRoom`: when there is room for the file.
* `init_cases`: a run either fails and has changed nothing, or there was room and the file is there.
* **`init_touches_new_config`**: what is touched, when the run succeeds, and what holds afterwards.
* `init_changes_link_target`: a link may lead to the file itself.
-/

namespace ErrorDocs.CommandLine

open FileSystem (SameBut)

/-- The place of a new configuration file. -/
def newPlace (fs : FileSystem) : Location :=
  fs.workingDirectory ++ [newConfig.bytes]

/-- The bytes of a new configuration file. -/
def templateBytes : List UInt8 :=
  Utf8.encode Config.template.toList

/-- The path at which a configuration file of the current directory is looked for. -/
def configPath (name : String) : Path :=
  here.join (.ofString name)

/-- There is room for a new configuration file. If what is there may be replaced, only a directory
is in the way; otherwise any entry of its name is, and so is a file that the other name leads to. -/
def HasRoom (fs : FileSystem) : Bool → Prop
  | true => ∀ entries fault, fs.root.get? (newPlace fs) ≠ some (.directory entries fault)
  | false => fs.root.get? (newPlace fs) = none ∧ ¬ fs.isFile (configPath "errogger.config.json")

/-- The new configuration file is there, and nothing else has changed. -/
structure Initialized (fs fs' : FileSystem) : Prop where
  written : fs'.root.get? (newPlace fs) = some (.file templateBytes)
  elsewhere : SameBut (newPlace fs) fs fs'

theorem isName_newConfig : Entry.IsName newConfig.bytes := by decide +kernel

theorem configPath_newFileName :
    configPath Config.newFileName = (⟨Path.here⟩ : Path).child newConfig.bytes := by
  decide +kernel

theorem discover?_here (fs : FileSystem) : Config.discover? fs here =
    [configPath Config.newFileName, configPath "errogger.config.json"].find? fs.isFile := rfl

theorem init_of_discover? {fs : FileSystem} {path : Path}
    (h : Config.discover? fs here = some path) :
    (init fs false).failure ≠ none ∧ (init fs false).disk = fs := by
  simp [init, h]

/-! ## The steps -/

section Steps

variable {fs : FileSystem} {entries : List (Name × Entry)} {fault : Option OsError}
  (hhere : fs.root.get? fs.workingDirectory = some (.directory entries fault))

include hhere

theorem createFile_newConfig (contents : List UInt8) : fs.createFile newConfig contents =
    fs.createAt (.ok (newPlace fs)) (.file contents) :=
  FileSystem.createFile_name hhere isName_newConfig contents

theorem linkStatus_newConfig : fs.linkStatus newConfig = fs.entryAt (.ok (newPlace fs)) :=
  FileSystem.linkStatus_name hhere isName_newConfig

/-- A file is found only where there is an entry. -/
theorem get?_newPlace_of_isFile (h : fs.isFile (configPath Config.newFileName)) :
    fs.root.get? (newPlace fs) ≠ none := by
  intro hnone
  unfold FileSystem.isFile at h
  rw [configPath_newFileName] at h
  have hlink := FileSystem.linkStatus_here_child hhere isName_newConfig
  rw [← newPlace, FileSystem.entryAt, hnone] at hlink
  cases hstatus : fs.status ((⟨Path.here⟩ : Path).child newConfig.bytes) with
  | error e =>
    rw [hstatus] at h
    cases h
  | ok e =>
    rcases FileSystem.linkStatus_of_status hstatus with he | ⟨target, he⟩
    · exact absurd (hlink.symm.trans he) (by simp)
    · exact absurd (hlink.symm.trans he) (by simp)

theorem writeTemplate_of_none (hnone : fs.root.get? (newPlace fs) = none) :
    (writeTemplate fs).failure = none ∧ Initialized fs (writeTemplate fs).disk := by
  have hcreated : fs.createFile newConfig templateBytes =
      .ok (fs.put (newPlace fs) (.file templateBytes)) := by
    rw [createFile_newConfig hhere, FileSystem.createAt, hnone]
  have hfree : ∀ es fault, fs.root.get? (newPlace fs) ≠ some (.directory es fault) := by
    simp [hnone]
  have hat := Entry.get?_modify_concat (y := .file templateBytes) hhere newConfig.bytes []
  rw [List.append_nil, Entry.get?_nil] at hat
  rw [writeTemplate, ← templateBytes, hcreated]
  exact ⟨rfl, hat, FileSystem.sameBut_put hhere hfree _⟩

theorem writeTemplate_of_some {e : Entry} (he : fs.root.get? (newPlace fs) = some e) :
    (writeTemplate fs).failure ≠ none ∧ (writeTemplate fs).disk = fs := by
  have hcreated : fs.createFile newConfig templateBytes = .error .alreadyExists := by
    rw [createFile_newConfig hhere, FileSystem.createAt, he]
  rw [writeTemplate, ← templateBytes, hcreated]
  exact ⟨by simp, rfl⟩

/-- A directory is not replaced. -/
theorem makeRoom_of_directory {es : List (Name × Entry)} {fault' : Option OsError}
    (hdir : fs.root.get? (newPlace fs) = some (.directory es fault')) :
    ∃ f, makeRoom fs = .error f := by
  rw [makeRoom, linkStatus_newConfig hhere, FileSystem.entryAt, hdir]
  exact ⟨_, rfl⟩

/-- Anything else makes room, and only that. -/
theorem exists_makeRoom (hfs : fs.root.WellFormed) (hroom : HasRoom fs true) :
    ∃ fs', makeRoom fs = .ok fs' ∧ fs'.root.get? (newPlace fs) = none ∧
      SameBut (newPlace fs) fs fs' := by
  cases he : fs.root.get? (newPlace fs) with
  | none =>
    refine ⟨fs, ?_, he, fun m _ => Entry.rel_refl _, rfl⟩
    rw [makeRoom, linkStatus_newConfig hhere, FileSystem.entryAt, he]
  | some e =>
    have hfree : e.isDirectory = false := by
      cases e with
      | directory es fault' => exact absurd he (hroom es fault')
      | file contents fault' => rfl
      | link target => rfl
    have hremoved : fs.removeFile newConfig = .ok (fs.erase (newPlace fs)) :=
      FileSystem.removeFile_name hhere isName_newConfig he hfree
    refine ⟨fs.erase (newPlace fs), ?_, Entry.get?_modify_none hfs hhere _,
      FileSystem.sameBut_erase hhere hroom hfs⟩
    simp [makeRoom, linkStatus_newConfig hhere, FileSystem.entryAt, he, hfree, hremoved]

end Steps

/-! ## Runs -/

theorem SameBut.directory {l dir : Location} {fs fs' : FileSystem} {entries : List (Name × Entry)}
    {fault : Option OsError} (h : SameBut l fs fs')
    (hd : fs.root.get? dir = some (.directory entries fault)) (hdir : dir ≠ l) :
    ∃ entries', fs'.root.get? dir = some (.directory entries' fault) := by
  have hrel := h.elsewhere dir hdir
  rw [hd] at hrel
  generalize fs'.root.get? dir = o at hrel ⊢
  cases hrel with
  | some hk =>
    cases hk with
    | directory _ entries' _ => exact ⟨entries', rfl⟩

/-- **A run either fails and has changed nothing, or there was room and the file is there.** -/
theorem init_cases {fs : FileSystem} {entries : List (Name × Entry)} {fault : Option OsError}
    (hhere : fs.root.get? fs.workingDirectory = some (.directory entries fault))
    (hfs : fs.root.WellFormed) (force : Bool) :
    (init fs force).failure ≠ none ∧ (init fs force).disk = fs ∧ ¬ HasRoom fs force ∨
      (init fs force).failure = none ∧ Initialized fs (init fs force).disk ∧
        HasRoom fs force := by
  cases force with
  | true =>
    by_cases hroom : HasRoom fs true
    · right
      obtain ⟨fs', hmade, hnone, hsame⟩ := exists_makeRoom hhere hfs hroom
      have hplace : newPlace fs' = newPlace fs := by rw [newPlace, hsame.here, newPlace]
      obtain ⟨entries', hhere'⟩ := SameBut.directory hsame hhere (by simp [newPlace])
      rw [← hsame.here] at hhere'
      rw [← hplace] at hnone
      obtain ⟨hok, hwritten⟩ := writeTemplate_of_none hhere' hnone
      have hrun : init fs true = writeTemplate fs' := by simp [init, hmade]
      rw [hrun]
      refine ⟨hok, ⟨hplace ▸ hwritten.written, hsame.trans (hplace ▸ hwritten.elsewhere)⟩, hroom⟩
    · left
      obtain ⟨es, fault', hes⟩ :
          ∃ es fault', fs.root.get? (newPlace fs) = some (.directory es fault') := by
        simpa [HasRoom] using hroom
      obtain ⟨f, hf⟩ := makeRoom_of_directory hhere hes
      have hrun : init fs true = { disk := fs, log := [], failure := some f } := by
        simp [init, hf]
      rw [hrun]
      exact ⟨by simp, rfl, hroom⟩
  | false =>
    by_cases hroom : HasRoom fs false
    · right
      have hnew : ¬ fs.isFile (configPath Config.newFileName) := fun h =>
        get?_newPlace_of_isFile hhere h hroom.1
      have hfound : Config.discover? fs here = none := by
        simp [discover?_here, hnew, hroom.2]
      have hrun : init fs false = writeTemplate fs := by simp [init, hfound]
      obtain ⟨hok, hwritten⟩ := writeTemplate_of_none hhere hroom.1
      rw [hrun]
      exact ⟨hok, hwritten, hroom⟩
    · left
      cases hfound : Config.discover? fs here with
      | some path =>
        obtain ⟨hfailed, hdisk⟩ := init_of_discover? hfound
        exact ⟨hfailed, hdisk, hroom⟩
      | none =>
        -- no file is in the way, but some other entry is
        have hother : ¬ fs.isFile (configPath "errogger.config.json") := by
          rw [discover?_here, List.find?_eq_none] at hfound
          exact hfound _ (by simp)
        have htaken : fs.root.get? (newPlace fs) ≠ none := fun h => hroom ⟨h, hother⟩
        obtain ⟨e, he⟩ := Option.ne_none_iff_exists'.mp htaken
        obtain ⟨hfailed, hdisk⟩ := writeTemplate_of_some hhere he
        have hrun : init fs false = writeTemplate fs := by simp [init, hfound]
        rw [hrun]
        exact ⟨hfailed, hdisk, hroom⟩

/-! ## Afterwards -/

theorem exists_ofText_template : ∃ c, Config.ofText Config.template.toList = .ok c := by
  have hread : (Config.ofText Config.template.toList).isOk = true := by
    -- the lines as lists of characters, which are read much faster than the text is taken apart
    unfold Config.template
    simp only [String.toList_append, String.reduceToList]
    decide +kernel
  cases hc : Config.ofText Config.template.toList with
  | error e =>
    rw [hc] at hread
    cases hread
  | ok c => exact ⟨c, rfl⟩

/-- A file with the text of a configuration is a configuration file. -/
theorem ofFile_of_status {fs : FileSystem} {path : Path} {text : List Char} {c : Config}
    (hfile : fs.status path = .ok (.file (Utf8.encode text))) (hc : Config.ofText text = .ok c) :
    Config.ofFile fs path = .ok { c with baseDir := path.parent? } := by
  have htext : fs.textAt path = .ok text := by
    rw [FileSystem.textAt, FileSystem.contentsAt, hfile]
    simp only [Utf8.decode?_eq_some_iff.mpr rfl]
  rw [Config.ofFile, htext]
  simp only [hc]

section Afterwards

variable {fs fs' : FileSystem} {entries : List (Name × Entry)} {fault : Option OsError}
  (hhere : fs.root.get? fs.workingDirectory = some (.directory entries fault))

include hhere

theorem Initialized.status (h : Initialized fs fs') :
    fs'.status (configPath Config.newFileName) = .ok (.file templateBytes) := by
  obtain ⟨entries', hhere'⟩ := SameBut.directory h.elsewhere hhere (by simp [newPlace])
  have hwritten := h.written
  rw [newPlace, ← h.elsewhere.here] at hwritten
  rw [← h.elsewhere.here] at hhere'
  rw [configPath_newFileName]
  exact FileSystem.status_here_child hhere' isName_newConfig hwritten

theorem Initialized.discover? (h : Initialized fs fs') :
    Config.discover? fs' here = some (configPath Config.newFileName) := by
  have hfile : fs'.isFile (configPath Config.newFileName) = true := by
    rw [FileSystem.isFile, h.status hhere]
    rfl
  rw [discover?_here, List.find?_cons_of_pos hfile]

theorem Initialized.exists_ofFile (h : Initialized fs fs') :
    ∃ c, Config.ofFile fs' (configPath Config.newFileName) = .ok c := by
  obtain ⟨c, hc⟩ := exists_ofText_template
  exact ⟨_, ofFile_of_status (h.status hhere) hc⟩

end Afterwards

/-- **What `init` touches.** It fails and leaves the file system as it was, or it succeeds and all
that has changed is that the new configuration file stands in its place. A link of one of the two
names is not followed: what it leads to stands elsewhere, or is the file itself. It succeeds just if
there is room, and then the file is the one that is found, it can be read, and the next run fails
unless it may replace it. -/
theorem init_touches_new_config (fs : FileSystem) (hfs : fs.WellFormed)
    (entries : List (Name × Entry)) (fault : Option OsError)
    (hhere : fs.root.get? fs.workingDirectory = some (.directory entries fault)) (force : Bool) :
    let run := init fs force
    (run.failure ≠ none → run.disk = fs) ∧
      (run.failure = none → Initialized fs run.disk) ∧
      (run.failure = none ↔ HasRoom fs force) ∧
      (run.failure = none →
        Config.discover? run.disk here = some (configPath Config.newFileName) ∧
          (∃ c, Config.ofFile run.disk (configPath Config.newFileName) = .ok c) ∧
          (init run.disk false).failure ≠ none) := by
  intro run
  rcases init_cases hhere hfs.root force with ⟨hfailed, hdisk, hroom⟩ | ⟨hok, hinit, hroom⟩
  · exact ⟨fun _ => hdisk, fun h => absurd h hfailed, iff_of_false hfailed hroom,
      fun h => absurd h hfailed⟩
  · have hfound := hinit.discover? hhere
    exact ⟨fun h => absurd hok h, fun _ => hinit, iff_of_true hok hroom,
      fun _ => ⟨hfound, hinit.exists_ofFile hhere, (init_of_discover? hfound).1⟩⟩

/-! ## Links of the two names -/

/-- A tree with a file of one name, and a link to it of another name. -/
def linkTree (file link : String) : FileSystem :=
  (FileSystem.fresh.plant (.ofString file) (.file [])).plant (.ofString link)
    (.link (Path.ofString file).bytes)

theorem wellFormed_linkTree {file link : String} (hfile : 0 ∉ (Path.ofString file).bytes)
    (hlink : 0 ∉ (Path.ofString link).bytes) : (linkTree file link).WellFormed :=
  ((FileSystem.Reachable.fresh.plant hfile (.file _ _)).plant hlink (.link hfile)).wellFormed

/-- A tree with a link in the place of the new file. -/
def newLinked : FileSystem := linkTree "a" "errogger.config.jsonc"

/-- A tree with a link of the other name, to the place of the new file. -/
def otherLinked : FileSystem := linkTree "errogger.config.jsonc" "errogger.config.json"

/-- A link in the place of the new file is replaced, and the file that it led to is not. -/
theorem init_touches_new_config_link :
    newLinked.WellFormed ∧
      (∃ entries, newLinked.root.get? newLinked.workingDirectory = some (.directory entries)) ∧
      (init newLinked true).failure = none ∧ Initialized newLinked (init newLinked true).disk ∧
      (init (init newLinked true).disk false).failure ≠ none := by
  have hfs : newLinked.WellFormed := wellFormed_linkTree (by decide +kernel) (by decide +kernel)
  have hhere : newLinked.root.get? newLinked.workingDirectory = some (.directory
      [((Path.ofString "a").bytes, .file []),
        (newConfig.bytes, .link (Path.ofString "a").bytes)]) := by
    cbv
  have hroom : HasRoom newLinked true := by
    have hplace : newLinked.root.get? (newPlace newLinked) =
        some (.link (Path.ofString "a").bytes) := by cbv
    simp [HasRoom, hplace]
  obtain ⟨-, hinit, hok, hafter⟩ := init_touches_new_config newLinked hfs _ _ hhere true
  have hrun : (init newLinked true).failure = none := hok.mpr hroom
  exact ⟨hfs, ⟨_, hhere⟩, hrun, hinit hrun, (hafter hrun).2.2⟩

/-- The path of the other name. -/
def otherConfig : Path := .ofString "errogger.config.json"

/-- **What a link leads to can be the file that is replaced.** The link of the other name is kept,
and what is read through it is the new file. -/
theorem init_changes_link_target :
    otherLinked.WellFormed ∧ (init otherLinked true).failure = none ∧
      otherLinked.linkStatus otherConfig = .ok (.link newConfig.bytes) ∧
      otherLinked.contentsAt otherConfig = .ok [] ∧
      (init otherLinked true).disk.contentsAt otherConfig = .ok templateBytes ∧
      templateBytes ≠ [] := by
  have hfs : otherLinked.WellFormed := wellFormed_linkTree (by decide +kernel) (by decide +kernel)
  have hroom : makeRoom otherLinked = .ok (otherLinked.erase (newPlace otherLinked)) := by cbv
  have hwritten : ∀ contents,
      ∃ fs, (otherLinked.erase (newPlace otherLinked)).createFile newConfig contents = .ok fs ∧
        fs.contentsAt otherConfig = .ok contents := by
    intro contents
    refine ⟨(otherLinked.erase (newPlace otherLinked)).put (newPlace otherLinked) (.file contents),
      by cbv, by cbv⟩
  obtain ⟨fs, hcreated, hread⟩ := hwritten templateBytes
  have hrun : (init otherLinked true).failure = none ∧ (init otherLinked true).disk = fs := by
    rw [templateBytes] at hcreated
    simp [init, hroom, writeTemplate, hcreated]
  refine ⟨hfs, hrun.1, by cbv, by cbv, hrun.2 ▸ hread, ?_⟩
  unfold templateBytes Config.template
  simp only [String.toList_append, -String.reduceToList]
  decide +kernel

end ErrorDocs.CommandLine
