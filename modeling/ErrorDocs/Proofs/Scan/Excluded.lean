import ErrorDocs.Proofs.Scan.Growth

/-!
# What a scan does not depend on

A scan leaves out what is below a directory with an ignored name, what links lead to, and the
contents of files that are not eligible or too large. `Agrees` relates trees that differ in such
things only, and their scans give the same result, whatever else the file systems hold.

* `Agrees.exists_counterpart`: what can be got to in one tree has a counterpart in the other.
* `blocks?_outcome_of_agrees`: what comes of a file and of its counterpart.
* **`scan_eq_of_agrees`**: the scans of two file systems.
-/

namespace ErrorDocs.Scan

open FileSystem (IsIgnoredName IsOpen HasFile Passes skips)

/-- Two entries at one path below the root of a scan agree: they differ in nothing but what the
scan leaves out. -/
inductive Agrees (options : ScanOptions) : Path → Entry → Entry → Prop where
  | file (path : Path) (contents : List UInt8) (fault : Option OsError) :
      Agrees options path (.file contents fault) (.file contents fault)
  | ineligible {path : Path} (h : options.filter.isEligibleFile path = false)
      (contents contents' : List UInt8) (fault fault' : Option OsError) :
      Agrees options path (.file contents fault) (.file contents' fault')
  | oversized (path : Path) {contents contents' : List UInt8}
      (h : options.maxFileSize < contents.length) (h' : options.maxFileSize < contents'.length)
      (fault fault' : Option OsError) :
      Agrees options path (.file contents fault) (.file contents' fault')
  | link (path : Path) (target target' : List UInt8) :
      Agrees options path (.link target) (.link target')
  | directory {path : Path} {entries entries' : List (Name × Entry)} (fault : Option OsError)
      (names : (entries.map (·.1)).Perm (entries'.map (·.1)))
      (below : ∀ name e e', (name, e) ∈ entries → (name, e') ∈ entries' →
        ¬ (e.isDirectory ∧ e'.isDirectory ∧ IsIgnoredName options.ignoreDirs name) →
          Agrees options (path.child name) e e') :
      Agrees options path (.directory entries fault) (.directory entries' fault)

variable {options : ScanOptions}

namespace Agrees

theorem symm {path : Path} {e e' : Entry} (h : Agrees options path e e') :
    Agrees options path e' e := by
  induction h with
  | file path contents fault => exact .file path contents fault
  | ineligible h contents contents' fault fault' =>
    exact .ineligible h contents' contents fault' fault
  | oversized path h h' fault fault' => exact .oversized path h' h fault' fault
  | link path target target' => exact .link path target' target
  | directory fault names below ih =>
    refine .directory fault names.symm fun name e e' he he' hopen => ih name e' e he' he ?_
    exact fun ⟨hd, hd', hi⟩ => hopen ⟨hd', hd, hi⟩

/-- Entries of directories that agree, if the one is a file or its name is not ignored. -/
theorem exists_entry {path : Path} {entries : List (Name × Entry)} {fault : Option OsError}
    {e' sub : Entry} {name : Name} (h : Agrees options path (.directory entries fault) e')
    (he' : e'.WellFormed) (hf : Entry.find? name entries = some sub)
    (hopen : ¬ (sub.isDirectory ∧ IsIgnoredName options.ignoreDirs name)) :
    ∃ entries' sub', e' = .directory entries' fault ∧ Entry.find? name entries' = some sub' ∧
      Agrees options (path.child name) sub sub' := by
  cases h with
  | @directory _ _ entries' _ names below =>
    cases he' with
    | directory _ nodup _ _ =>
      have hmem := Entry.mem_of_find? hf
      have hname : name ∈ entries'.map (·.1) := names.mem_iff.mp (List.mem_map_of_mem hmem)
      obtain ⟨⟨_, sub'⟩, hmem', rfl⟩ := List.mem_map.mp hname
      refine ⟨entries', sub', rfl, (Entry.find?_eq_some_iff nodup).mpr hmem', ?_⟩
      exact below _ sub sub' hmem hmem' fun ⟨hd, _, hi⟩ => hopen ⟨hd, hi⟩

/-- **What can be got to has a counterpart** in a tree that agrees. -/
theorem exists_counterpart {path : Path} {e e' x : Entry} {l : Location}
    (h : Agrees options path e e') (he' : e'.WellFormed) (hl : e.get? l = some x)
    (hpasses : Passes options.filter l x) :
    ∃ x', e'.get? l = some x' ∧ Agrees options (path.below l) x x' := by
  induction l generalizing path e e' with
  | nil =>
    rw [Entry.get?_nil, Option.some.injEq] at hl
    subst hl
    exact ⟨e', Entry.get?_nil e', by rwa [Path.below_nil]⟩
  | cons name l ih =>
    obtain ⟨entries, fault, sub, rfl, hf, hl⟩ := Entry.get?_cons_eq_some_iff.mp hl
    obtain ⟨hname, hrest⟩ := (FileSystem.passes_cons_iff hl).mp hpasses
    have hopen : ¬ (sub.isDirectory ∧ IsIgnoredName options.ignoreDirs name) := by
      rintro ⟨hd, hi⟩
      simp [hd, FileSystem.skips_new_iff.mpr hi, ScanOptions.filter] at hname
    obtain ⟨entries', sub', rfl, hf', hsub⟩ := h.exists_entry he' hf hopen
    obtain ⟨x', hl', hagree⟩ := ih hsub (he'.of_find? hf').2 hl hrest
    refine ⟨x', Entry.get?_cons_eq_some_iff.mpr ⟨entries', fault, sub', rfl, hf', hl'⟩, ?_⟩
    rwa [Path.below_cons]

theorem exists_file {path : Path} {e e' : Entry} {l : Location} {contents : List UInt8}
    {fault : Option OsError} (h : Agrees options path e e') (he' : e'.WellFormed)
    (hl : e.get? l = some (.file contents fault)) (hopen : IsOpen options.filter path e l) :
    ∃ contents' fault', e'.get? l = some (.file contents' fault') ∧
      Agrees options (path.below l) (.file contents fault) (.file contents' fault') := by
  obtain ⟨x', hl', hagree⟩ := h.exists_counterpart he' hl ⟨hopen.named, by simp [Entry.isDirectory]⟩
  cases hagree with
  | file _ _ _ => exact ⟨_, _, hl', .file _ _ _⟩
  | ineligible h _ _ _ _ => exact ⟨_, _, hl', .ineligible h _ _ _ _⟩
  | oversized _ h h' _ _ => exact ⟨_, _, hl', .oversized _ h h' _ _⟩

/-- A way that is open in a tree is open in one that agrees. -/
theorem isOpen {path : Path} {e e' : Entry} {l : Location} (h : Agrees options path e e')
    (he' : e'.WellFormed) (hopen : IsOpen options.filter path e l) :
    IsOpen options.filter path e' l := by
  refine ⟨hopen.named, fun m hm hne => ?_⟩
  obtain ⟨entries, fault, hd, hlist⟩ := hopen.opens m hm hne
  have hnames : ∀ n ∈ m, ¬ skips options.filter n := by
    obtain ⟨t, rfl⟩ := hm
    have ht : t ≠ [] := by
      rintro rfl
      exact hne (List.append_nil m).symm
    have hnamed := hopen.named
    rw [List.dropLast_append_of_ne_nil ht] at hnamed
    exact fun n hn => hnamed n (List.mem_append_left _ hn)
  obtain ⟨x', hd', hagree⟩ := h.exists_counterpart he' hd
    ⟨fun n hn => hnames n (List.mem_of_mem_dropLast hn), fun _ => hnames⟩
  cases hagree with
  | directory _ _ _ => exact ⟨_, fault, hd', hlist⟩

theorem hasFile {path : Path} {e e' : Entry} {l : Location} (h : Agrees options path e e')
    (he' : e'.WellFormed) (hfile : HasFile options.filter path e l) :
    HasFile options.filter path e' l := by
  obtain ⟨⟨contents, fault, hl⟩, hopen⟩ := hfile
  obtain ⟨contents', fault', hl', -⟩ := h.exists_file he' hl hopen
  exact ⟨⟨contents', fault', hl'⟩, h.isOpen he' hopen⟩

end Agrees

/-! ## What comes of files -/

/-- What comes of a file and of its counterpart. -/
theorem blocks?_outcome_of_agrees {fs fs' : FileSystem} {path : Path}
    {contents contents' : List UInt8} {fault fault' : Option OsError} {check : Except OsError Unit}
    (h : Agrees options path (.file contents fault) (.file contents' fault'))
    (hc : fs.contentsAt path = check.bind fun _ => fault.elim (.ok contents) .error)
    (hc' : fs'.contentsAt path = check.bind fun _ => fault'.elim (.ok contents') .error) :
    (outcome fs options.filter path).blocks? = (outcome fs' options.filter path).blocks? := by
  rw [blocks?_outcome, blocks?_outcome]
  unfold selects docsAt
  rw [hc, hc']
  cases check with
  | error e => rfl
  | ok u =>
    cases h with
    | file _ _ _ => rfl
    | ineligible h _ _ _ _ => simp [h]
    | oversized _ h h' _ _ =>
      cases fault <;> cases fault' <;>
        simp [Except.bind, Nat.not_le.mpr h, Nat.not_le.mpr h']

/-- The total of outcomes depends on the blocks of the files that are read, and on how many are
not. -/
theorem total_congr (root : Path) {outcomes outcomes' : List Outcome}
    (h : outcomes.map Outcome.blocks? = outcomes'.map Outcome.blocks?) :
    total root outcomes = total root outcomes' := by
  have hread : ∀ os : List Outcome,
      os.filterMap Outcome.blocks? = (os.map Outcome.blocks?).filterMap id := by
    intro os
    rw [List.filterMap_map]
    rfl
  have hskipped : ∀ os : List Outcome,
      os.countP (·.blocks?.isNone) = (os.map Outcome.blocks?).countP Option.isNone := by
    intro os
    rw [List.countP_map]
    rfl
  rw [total_eq, total_eq, hread, hread, hskipped, hskipped, h]

/-! ## Scans -/

/-- **What is excluded cannot influence a scan.** A root may lead to two directories that agree but
for what is below ignored directories, for the targets of links, and for the contents of files that
are not eligible or that are too large in both; the scans of the two give the same result. -/
theorem scan_eq_of_agrees (options : ScanOptions) (root : Path) (fs fs' : FileSystem)
    (hfs : fs.root.WellFormed) (hfs' : fs'.root.WellFormed) (entries entries' : List (Name × Entry))
    (fault fault' : Option OsError) (hroot : fs.status root = .ok (.directory entries fault))
    (hroot' : fs'.status root = .ok (.directory entries' fault'))
    (h : Agrees options root (.directory entries fault) (.directory entries' fault')) :
    ∃ r, scan fs options root = .ok r ∧ scan fs' options root = .ok r := by
  obtain ⟨-, loc, -, hget⟩ := FileSystem.status_eq_ok_iff.mp hroot
  obtain ⟨-, loc', -, hget'⟩ := FileSystem.status_eq_ok_iff.mp hroot'
  obtain ⟨places, hfiles, hsorted, hmem⟩ :=
    FileSystem.exists_filePlaces hfs hroot options.filter
  obtain ⟨places', hfiles', hsorted', hmem'⟩ :=
    FileSystem.exists_filePlaces hfs' hroot' options.filter
  have hplaces : places = places' := by
    refine hsorted.eq_of_mem_iff hsorted' fun l => ?_
    rw [hmem, hmem']
    exact ⟨h.hasFile (hfs'.of_get? hget').2, h.symm.hasFile (hfs.of_get? hget).2⟩
  have hsame : ∀ l ∈ places, (outcome fs options.filter (root.below l)).blocks? =
      (outcome fs' options.filter (root.below l)).blocks? := by
    intro l hl
    obtain ⟨⟨contents, fault, hl⟩, hopen⟩ := (hmem l).mp hl
    obtain ⟨contents', fault', hl', hagree⟩ := h.exists_file (hfs'.of_get? hget').2 hl hopen
    exact blocks?_outcome_of_agrees hagree (FileSystem.contentsAt_below hfs hroot hl)
      (FileSystem.contentsAt_below hfs' hroot' hl')
  have hdir := checkRoot_eq_ok_iff.mpr (FileSystem.isDirectory_iff.mpr ⟨entries, fault, hroot⟩)
  have hdir' := checkRoot_eq_ok_iff.mpr (FileSystem.isDirectory_iff.mpr ⟨entries', fault', hroot'⟩)
  refine ⟨total root ((places.map root.below).map (outcome fs options.filter)), ?_, ?_⟩
  · rw [scan, hdir, outcomes_eq_map, hfiles]
  · rw [scan, hdir', outcomes_eq_map, hfiles', ← hplaces]
    refine congrArg Except.ok (total_congr root ?_)
    simp only [List.map_map]
    exact List.map_congr_left fun l hl => (hsame l hl).symm

/-- The entries of a directory with a file `c.js`, and with things that a scan for `.js` files of
at most two bytes leaves out: the directory `out`, the link `l`, and the files `a` and `b.js`. All
that can have a fault among these have the same. -/
def cluttered (out : List (Name × Entry)) (target small large : List UInt8)
    (fault : Option OsError) : List (Name × Entry) :=
  [([0x6F, 0x75, 0x74], .directory out fault), ([0x6C], .link target), ([0x61], .file small fault),
    ([0x62, 0x2E, 0x6A, 0x73], .file large fault), ([0x63, 0x2E, 0x6A, 0x73], .file [0x2F])]

theorem wellFormed_cluttered {out : List (Name × Entry)} {target small large : List UInt8}
    {fault : Option OsError} (hout : (Entry.directory out fault).WellFormed)
    (htarget : 0 ∉ target) :
    (Entry.directory (cluttered out target small large fault)).WellFormed := by
  have hnames : ∀ n ∈ (cluttered out target small large fault).map (·.1), Entry.IsName n := by
    show ∀ n ∈ [[0x6F, 0x75, 0x74], [0x6C], [0x61], [0x62, 0x2E, 0x6A, 0x73],
      [0x63, 0x2E, 0x6A, 0x73]], Entry.IsName n
    decide
  refine .directory none (by simp [cluttered]) (List.forall_mem_map.mp hnames) ?_
  simp only [cluttered, List.forall_mem_cons]
  exact ⟨hout, .link htarget, .file _ _, .file _ _, .file _ _, by simp⟩

theorem agrees_cluttered (out out' : List (Name × Entry))
    (target target' small small' large large' : List UInt8) (fault fault' : Option OsError)
    (hl : 2 < large.length) (hl' : 2 < large'.length) :
    Agrees ⟨[], [".js"], 2, false⟩ ⟨[Path.dot]⟩
      (.directory (cluttered out target small large fault))
      (.directory (cluttered out' target' small' large' fault')) := by
  refine .directory none (.refl _) fun name e e' he he' hopen => ?_
  simp only [cluttered, List.mem_cons, Prod.mk.injEq, List.not_mem_nil, or_false] at he
  rcases he with ⟨rfl, rfl⟩ | ⟨rfl, rfl⟩ | ⟨rfl, rfl⟩ | ⟨rfl, rfl⟩ | ⟨rfl, rfl⟩
  · obtain rfl : e' = .directory out' fault' := by simpa [cluttered] using he'
    exact absurd ⟨rfl, rfl, .inl (by decide)⟩ hopen
  · obtain rfl : e' = .link target' := by simpa [cluttered] using he'
    exact .link _ target target'
  · obtain rfl : e' = .file small' fault' := by simpa [cluttered] using he'
    exact .ineligible (by decide +kernel) small small' fault fault'
  · obtain rfl : e' = .file large' fault' := by simpa [cluttered] using he'
    exact .oversized _ hl hl' fault fault'
  · obtain rfl : e' = .file [0x2F] := by simpa [cluttered] using he'
    exact .file _ _ none

theorem status_dot (entries : List (Name × Entry)) :
    (⟨.directory entries, []⟩ : FileSystem).status ⟨[Path.dot]⟩ = .ok (.directory entries) :=
  FileSystem.status_eq_ok_iff.mpr ⟨rfl, [], .idle rfl rfl (.done _ _), rfl⟩

theorem scan_eq_of_agrees_cluttered :
    let entries := cluttered [] [0x61] [] [0, 0, 0] none
    let entries' :=
      cluttered [([0x62], .file [1])] [0x62] [1] [1, 1, 1, 1] (some .permissionDenied)
    Agrees ⟨[], [".js"], 2, false⟩ ⟨[Path.dot]⟩ (.directory entries) (.directory entries') ∧
      ∃ r, scan ⟨.directory entries, []⟩ ⟨[], [".js"], 2, false⟩ ⟨[Path.dot]⟩ = .ok r ∧
        scan ⟨.directory entries', []⟩ ⟨[], [".js"], 2, false⟩ ⟨[Path.dot]⟩ = .ok r := by
  intro entries entries'
  have hentries : (Entry.directory entries).WellFormed :=
    wellFormed_cluttered (.directory _ (by simp) (by simp) (by simp)) (by decide)
  have hentries' : (Entry.directory entries').WellFormed := by
    refine wellFormed_cluttered (.directory _ (by simp) ?_ ?_) (by decide)
    · exact List.forall_mem_singleton.mpr (by decide)
    · exact List.forall_mem_singleton.mpr (.file [1] none)
  have hagrees := agrees_cluttered [] [([0x62], .file [1])] [0x61] [0x62] [] [1] [0, 0, 0]
    [1, 1, 1, 1] none (some .permissionDenied) (by decide) (by decide)
  exact ⟨hagrees, scan_eq_of_agrees _ _ _ _ hentries hentries' entries entries' none none
    (status_dot entries) (status_dot entries') hagrees⟩

end ErrorDocs.Scan
