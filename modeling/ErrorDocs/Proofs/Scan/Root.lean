import ErrorDocs.Proofs.FileSystem.Obstacle
import ErrorDocs.Proofs.Scan.Growth

/-!
# Roots that cannot be scanned

A scan fails only at its root. Whatever is wrong below it (directories that cannot be listed, links
that lead nowhere, files that cannot be read) is passed over or counted. The error tells what is
wrong with the root: it is missing, it is no directory, or something stands in the way to it.

* `Refused`, `checkRoot_eq_error_iff`: the roots that are refused.
* `scan_eq_error_iff`, `exists_scan_eq_ok_iff`: a scan fails just where its root is refused.
* `scan_eq_of_unlistable`: the scan of a root that cannot be listed.
* **`scan_fails_only_at_root`**: when a scan fails, and for which cause.
-/

namespace ErrorDocs.Scan

open FileSystem (LeadsTo LeadsNowhere)

/-- What refuses a path as the root of a scan. -/
inductive Refused (fs : FileSystem) (root : Path) : ScanError → Prop where
  /-- Nothing is there. -/
  | missing (h : LeadsNowhere fs root .notFound) : Refused fs root (.rootNotFound root)
  /-- What is there is no directory. -/
  | notADirectory {loc : Location} {e : Entry} (hleads : LeadsTo fs root loc)
      (he : fs.root.get? loc = some e) (hd : e.isDirectory = false) :
      Refused fs root (.notADirectory root)
  /-- Something stands in the way. -/
  | blocked {cause : OsError} (h : LeadsNowhere fs root cause) (hne : cause ≠ .notFound) :
      Refused fs root (.os cause)

variable {fs : FileSystem} {options : ScanOptions} {root : Path}

theorem checkRoot_of_status_error {cause : OsError} (h : fs.status root = .error cause)
    (hne : cause ≠ .notFound) : checkRoot fs root = .error (.os cause) := by
  unfold checkRoot
  rw [h]
  cases cause with
  | notFound => exact absurd rfl hne
  | _ => rfl

theorem checkRoot_of_refused {e : ScanError} (h : Refused fs root e) :
    checkRoot fs root = .error e := by
  cases h with
  | missing h => rw [checkRoot, FileSystem.status_eq_error_iff.mpr h]
  | notADirectory hleads he hd =>
    rw [checkRoot, FileSystem.status_eq_ok_iff_leadsTo.mpr ⟨_, hleads, he⟩]
    simp [hd]
  | blocked h hne => exact checkRoot_of_status_error (FileSystem.status_eq_error_iff.mpr h) hne

theorem refused_of_checkRoot {e : ScanError} (h : checkRoot fs root = .error e) :
    Refused fs root e := by
  cases hstatus : fs.status root with
  | error cause =>
    have hleads := FileSystem.status_eq_error_iff.mp hstatus
    by_cases hne : cause = .notFound
    · subst hne
      rw [checkRoot, hstatus] at h
      cases h
      exact .missing hleads
    · rw [checkRoot_of_status_error hstatus hne] at h
      cases h
      exact .blocked hleads hne
  | ok entry =>
    obtain ⟨loc, hleads, he⟩ := FileSystem.status_eq_ok_iff_leadsTo.mp hstatus
    rw [checkRoot, hstatus] at h
    cases hd : entry.isDirectory with
    | true => simp [hd] at h
    | false =>
      simp only [hd, Bool.false_eq_true, if_false, Except.error.injEq] at h
      exact h ▸ .notADirectory hleads he hd

/-- **The roots that are refused.** -/
theorem checkRoot_eq_error_iff {e : ScanError} :
    checkRoot fs root = .error e ↔ Refused fs root e :=
  ⟨refused_of_checkRoot, checkRoot_of_refused⟩

/-- Whatever lies below its root, a scan fails just where the root is refused. -/
theorem scan_eq_error_iff {e : ScanError} :
    scan fs options root = .error e ↔ Refused fs root e := by
  rw [← checkRoot_eq_error_iff, scan]
  cases checkRoot fs root with
  | error c => simp
  | ok u => simp

theorem exists_scan_eq_ok_iff : (∃ r, scan fs options root = .ok r) ↔
    ∃ loc entries fault, LeadsTo fs root loc ∧
      fs.root.get? loc = some (.directory entries fault) := by
  constructor
  · rintro ⟨r, h⟩
    obtain ⟨entries, fault, hstatus⟩ := FileSystem.isDirectory_iff.mp (isDirectory_of_scan h)
    obtain ⟨loc, hleads, hd⟩ := FileSystem.status_eq_ok_iff_leadsTo.mp hstatus
    exact ⟨loc, entries, fault, hleads, hd⟩
  · rintro ⟨loc, entries, fault, hleads, hd⟩
    have hstatus := FileSystem.status_eq_ok_iff_leadsTo.mpr ⟨loc, hleads, hd⟩
    have hdir := FileSystem.isDirectory_iff.mpr ⟨entries, fault, hstatus⟩
    exact ⟨_, scan_eq_of_isDirectory hdir options⟩

/-- A root that cannot be listed is scanned like an empty directory: nothing is counted. -/
theorem scan_eq_of_unlistable {entries : List (Name × Entry)} {e : OsError}
    (hroot : fs.status root = .ok (.directory entries (some e))) :
    scan fs options root = .ok ⟨root, [], 0, 0⟩ := by
  obtain ⟨cause, hcause⟩ : ∃ cause, FileSystem.listFault root (some e) = some cause := by
    unfold FileSystem.listFault
    split <;> exact ⟨_, rfl⟩
  have hwalk : fs.walk options.filter root = [.failed root cause] := by
    rw [FileSystem.walk_eq_walkTree hroot, FileSystem.walkTree_directory, hcause]
  rw [scan_eq_of_isDirectory (FileSystem.isDirectory_iff.mpr ⟨entries, some e, hroot⟩), hwalk]
  rfl

theorem Refused.cause {e : ScanError} (h : Refused fs root e) :
    e = .rootNotFound root ∨ e = .notADirectory root ∨
      ∃ cause, e = .os cause ∧ (cause = .notADirectory ∨ cause = .tooManyLinks ∨
        cause = .nameTooLong ∨ cause = .zeroByte) := by
  cases h with
  | missing h => exact .inl rfl
  | notADirectory hleads he hd => exact .inr (.inl rfl)
  | blocked h hne => exact .inr (.inr ⟨_, rfl, h.cause hne⟩)

/-- **A scan fails only at its root.** It has a result just if the root leads to a directory,
whether that and what lies below can be opened or not. Otherwise the error tells whether the root
is missing, leads to something else, or cannot be reached for one of four other causes. -/
theorem scan_fails_only_at_root (fs : FileSystem) (options : ScanOptions) (root : Path) :
    ((∃ r, scan fs options root = .ok r) ↔
      ∃ loc entries fault, LeadsTo fs root loc ∧
        fs.root.get? loc = some (.directory entries fault)) ∧
    (scan fs options root = .error (.rootNotFound root) ↔ LeadsNowhere fs root .notFound) ∧
    (scan fs options root = .error (.notADirectory root) ↔
      ∃ loc e, LeadsTo fs root loc ∧ fs.root.get? loc = some e ∧ e.isDirectory = false) ∧
    (∀ cause, scan fs options root = .error (.os cause) ↔
      cause ≠ .notFound ∧ LeadsNowhere fs root cause) ∧
    ∀ e, scan fs options root = .error e →
      e = .rootNotFound root ∨ e = .notADirectory root ∨
        ∃ cause, e = .os cause ∧ (cause = .notADirectory ∨ cause = .tooManyLinks ∨
          cause = .nameTooLong ∨ cause = .zeroByte) := by
  refine ⟨exists_scan_eq_ok_iff, scan_eq_error_iff.trans ⟨?_, .missing⟩,
    scan_eq_error_iff.trans ⟨?_, ?_⟩, fun cause => scan_eq_error_iff.trans ⟨?_, ?_⟩,
    fun e h => (scan_eq_error_iff.mp h).cause⟩
  · intro h
    cases h with
    | missing h => exact h
  · intro h
    cases h with
    | notADirectory hleads he hd => exact ⟨_, _, hleads, he, hd⟩
  · rintro ⟨loc, e, hleads, he, hd⟩
    exact .notADirectory hleads he hd
  · intro h
    cases h with
    | blocked h hne => exact ⟨hne, h⟩
  · rintro ⟨hne, h⟩
    exact .blocked h hne

end ErrorDocs.Scan
