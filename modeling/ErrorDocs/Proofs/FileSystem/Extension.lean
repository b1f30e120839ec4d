import ErrorDocs.Proofs.FileSystem.Growth
import ErrorDocs.Proofs.FileSystem.Obstacle
import ErrorDocs.Proofs.Text.Blank

/-!
# File systems that gain directories

Making a directory and the missing ones above it changes nothing that is there. All that is new are
directories, each of them where one of the paths leads that were asked for. Writing a file changes
nothing but that file.

* `Extends`: the changes that may be made, with one location left out of account.
* `Leads.kept`: paths to directories, when other things change.
* `extends_makeDir`, **`extends_makeDirs`**: making one directory, and all of them.
* **`extends_writeFile`**: writing a file.
-/

namespace ErrorDocs.FileSystem

/-- A path is another one or lies above it, as they are written. -/
def AtOrAbove (path : Path) : Path → Prop :=
  Relation.ReflTransGen (fun p q => p.parent? = some q) path

/-- A file system has all that another has, each entry in its place, and besides it has only
directories to which some of the given paths lead. Of one location nothing is said. -/
structure Extends (paths : Path → Prop) (except : Option Location) (fs fs' : FileSystem) :
    Prop where
  here : fs'.workingDirectory = fs.workingDirectory
  kept : ∀ l x, l ∉ except → fs.root.get? l = some x →
    ∃ x', fs'.root.get? l = some x' ∧ x.Keeps x'
  new : ∀ l x, l ∉ except → fs.root.get? l = none → fs'.root.get? l = some x →
    x.isDirectory ∧ ∃ path, paths path ∧ LeadsTo fs' path l

/-! ## Paths to directories -/

section Leads

variable {root root' : Entry} {last : LastPart} {links : Nat} {here loc : Location}
  {parts : List Name} {entries : List (Name × Entry)} {fault : Option OsError}

/-- What leads to a directory starts from one. -/
theorem Leads.exists_start (h : Leads root last links here parts loc)
    (hd : root.get? loc = some (.directory entries fault)) :
    ∃ entries' fault', root.get? here = some (.directory entries' fault') := by
  cases h with
  | done => exact ⟨_, _, hd⟩
  | idle hhere _ _ => exact ⟨_, _, hhere⟩
  | above hhere _ => exact ⟨_, _, hhere⟩
  | missing hhere _ _ => exact ⟨_, _, hhere⟩
  | link hhere _ _ _ => exact ⟨_, _, hhere⟩
  | through hhere _ _ _ _ => exact ⟨_, _, hhere⟩
  | into hhere _ _ _ _ => exact ⟨_, _, hhere⟩

/-- **A path to a directory leads there as before** when directories and links are kept. -/
theorem Leads.kept (h : Leads root .target links here parts loc)
    (hd : root.get? loc = some (.directory entries fault))
    (hkept : ∀ m x, x.isFile = false → root.get? m = some x →
      ∃ x', root'.get? m = some x' ∧ x.Keeps x') :
    Leads root' .target links here parts loc := by
  have hdir {m : Location} {es : List (Name × Entry)} {fault : Option OsError}
      (hm : root.get? m = some (.directory es fault)) :
      ∃ es', root'.get? m = some (.directory es' fault) := by
    obtain ⟨x', hx', hk⟩ := hkept m _ rfl hm
    cases hk with
    | directory _ es' _ => exact ⟨es', hx'⟩
  induction h with
  | done links here => exact .done links here
  | idle hhere hp h ih =>
    obtain ⟨es', hhere'⟩ := hdir hhere
    exact .idle hhere' hp (ih hd)
  | above hhere h ih =>
    obtain ⟨es', hhere'⟩ := hdir hhere
    exact .above hhere' (ih hd)
  | missing hhere hp hf =>
    rw [Entry.get?_concat hhere, hf] at hd
    cases hd
  | link hhere hp hf hl => cases hl
  | through hhere hp hf hl h ih =>
    obtain ⟨es', hhere'⟩ := hdir hhere
    obtain ⟨x', hx', hk⟩ := hkept _ _ rfl ((Entry.get?_concat hhere _).trans hf)
    rw [Entry.get?_concat hhere'] at hx'
    cases hk
    exact .through hhere' hp hx' hl (ih hd)
  | into hhere hp hf he h ih =>
    -- what the path goes into is a directory, since it leads on to one
    obtain ⟨es', hhere'⟩ := hdir hhere
    obtain ⟨es, fault', hnext⟩ := h.exists_start hd
    obtain ⟨es'', hnext'⟩ := hdir hnext
    rw [Entry.get?_concat hhere'] at hnext'
    exact .into hhere' hp hnext' (by simp) (ih hd)

theorem leads_idle {idle : List Name} (hidle : ∀ part ∈ idle, Path.isIdlePart part)
    (hd : root.get? here = some (.directory entries fault)) :
    Leads root .target links here idle here := by
  induction idle with
  | nil => exact .done links here
  | cons part idle ih =>
    obtain ⟨hpart, hrest⟩ := List.forall_mem_cons.mp hidle
    exact .idle hd hpart (ih hrest)

end Leads

/-! ## One change after another -/

namespace Extends

variable {paths : Path → Prop} {except : Option Location} {fs fs' fs'' : FileSystem}

theorem refl (paths : Path → Prop) (fs : FileSystem) : Extends paths none fs fs where
  here := rfl
  kept l x _ hx := ⟨x, hx, .refl x⟩
  new l x _ hnone hx := by
    rw [hnone] at hx
    cases hx

/-- The second change may be to one file besides. The paths to the new directories do not go
through it. -/
theorem trans (h : Extends paths none fs fs') (h' : Extends paths except fs' fs'')
    (hfile : ∀ l ∈ except, ∀ x, fs'.root.get? l = some x → ∃ contents, x = .file contents) :
    Extends paths except fs fs'' where
  here := h'.here.trans h.here
  kept l x hl hx := by
    obtain ⟨x', hx', hk⟩ := h.kept l x (by simp) hx
    obtain ⟨x'', hx'', hk'⟩ := h'.kept l x' hl hx'
    exact ⟨x'', hx'', hk.trans hk'⟩
  new l x hl hnone hx := by
    cases hmid : fs'.root.get? l with
    | none => exact h'.new l x hl hmid hx
    | some x' =>
      -- a directory that the first change has made: the same path leads to it as before
      obtain ⟨hdir, path, hpath, hcheck, hleads⟩ := h.new l x' (by simp) hnone hmid
      obtain ⟨x'', hx'', hk⟩ := h'.kept l x' hl hmid
      obtain rfl := Option.some.inj (hx''.symm.trans hx)
      refine ⟨hk.isDirectory_eq.trans hdir, path, hpath, hcheck, ?_⟩
      cases x' with
      | file contents fault => cases hdir
      | link target => cases hdir
      | directory entries fault =>
        rw [h'.here]
        refine hleads.kept hmid fun m y hy hm => h'.kept m y ?_ hm
        intro hexcept
        obtain ⟨contents, rfl⟩ := hfile m hexcept y hm
        cases hy

end Extends

/-! ## Operations -/

section Operations

variable {fs fs' : FileSystem} {path : Path} {paths : Path → Prop}

/-- Where nothing was, nothing is but what has been put there. -/
theorem eq_of_get?_put {last : LastPart} {l m : Location} (hl : fs.locate last path = .ok l)
    {x y : Entry} (hbare : ∀ name rest, y.get? (name :: rest) = none)
    (hnone : fs.root.get? m = none) (hx : (fs.put l y).root.get? m = some x) : m = l ∧ x = y := by
  by_cases hpre : l <+: m
  · obtain ⟨rest, rfl⟩ := hpre
    rw [Entry.get?_append, get?_put_self hl, Option.bind_some] at hx
    cases rest with
    | nil =>
      rw [Entry.get?_nil, Option.some.injEq] at hx
      exact ⟨List.append_nil l, hx.symm⟩
    | cons name rest =>
      rw [hbare] at hx
      cases hx
  · have hrel := Entry.rel_get?_modify (e := fs.root) (fun _ => some y) hpre
    have hafter : (fs.root.modify (fun _ => some y) l).get? m = some x := hx
    rw [hnone, hafter] at hrel
    cases hrel

theorem exists_bytes_withoutEndSlashes (path : Path) : ∃ slashes,
    (∀ b ∈ slashes, b = Path.slash) ∧ path.bytes = (withoutEndSlashes path).bytes ++ slashes := by
  obtain ⟨slashes, hslashes, hbytes⟩ :=
    Text.exists_eq_dropEndWhile_append (· == Path.slash) path.bytes
  exact ⟨slashes, fun b hb => by simpa using hslashes b hb, hbytes⟩

/-- Slashes after a path add idle parts. -/
theorem exists_partsOf_append {slashes : List UInt8} (h : ∀ b ∈ slashes, b = Path.slash)
    (bytes : List UInt8) : ∃ idle, (∀ part ∈ idle, Path.isIdlePart part) ∧
      Path.partsOf (bytes ++ slashes) = Path.partsOf bytes ++ idle := by
  induction slashes generalizing bytes with
  | nil => exact ⟨[], by simp, by simp⟩
  | cons b slashes ih =>
    obtain ⟨rfl, hrest⟩ := List.forall_mem_cons.mp h
    obtain ⟨idle, hidle, hparts⟩ := ih hrest []
    refine ⟨[] :: idle, List.forall_mem_cons.mpr ⟨rfl, hidle⟩, ?_⟩
    rw [Path.partsOf_append_slash, ← List.nil_append slashes, hparts]
    rfl

/-- Making a directory. -/
theorem extends_makeDir (hpath : paths path) (h : fs.makeDir path = .ok fs') :
    Extends paths none fs fs' := by
  have hgrows := grows_makeDir (fun _ => False) h
  obtain ⟨l, hcheck, hne, hl, hnone, rfl⟩ := makeDir_eq_ok h
  refine ⟨rfl, fun m x _ => hgrows.root.kept m x, ?_⟩
  intro m x _ hm hx
  obtain ⟨rfl, rfl⟩ := eq_of_get?_put hl (fun _ _ => rfl) hm hx
  refine ⟨rfl, path, hpath, hcheck, ?_⟩
  -- the directory is made without the slashes at the end of the path, which are idle parts of it
  obtain ⟨slashes, hslashes, hbytes⟩ := exists_bytes_withoutEndSlashes path
  obtain ⟨idle, hidle, hparts⟩ := exists_partsOf_append hslashes (withoutEndSlashes path).bytes
  have hstart : startOf path.bytes fs.workingDirectory =
      startOf (withoutEndSlashes path).bytes fs.workingDirectory := by
    rw [startOf, hbytes, List.head?_append_of_ne_nil _ hne, startOf]
  have hleads := (leads_of_follow hl).arrives (fun n y _ => hgrows.root.kept n y) (by simp [hnone])
    hx (by simp) fun links => leads_idle hidle hx
  show Leads _ .target maxLinks (startOf path.bytes fs.workingDirectory) path.parts m
  rw [hstart, Path.parts, hbytes, hparts]
  exact hleads

theorem extends_makeDirsOf (fs : FileSystem) {above : List Path} (h : ∀ p ∈ above, paths p) :
    Extends paths none fs (fs.makeDirsOf above).disk := by
  induction above with
  | nil => exact .refl paths fs
  | cons path above ih =>
    obtain ⟨hpath, habove⟩ := List.forall_mem_cons.mp h
    rw [makeDirsOf]
    split
    · rename_i hm
      exact extends_makeDir hpath hm
    · dsimp only
      split
      · exact ih habove
      · split
        · rename_i hm
          exact (ih habove).trans (extends_makeDir hpath hm) (by simp)
        · split <;> exact ih habove
    · split <;> exact .refl paths fs

theorem atOrAbove_of_mem_ancestors {fuel : Nat} {p : Path} (h : p ∈ ancestors fuel path) :
    AtOrAbove path p := by
  induction fuel generalizing path with
  | zero => cases h
  | succ fuel ih =>
    rw [ancestors] at h
    split at h
    · cases h
    · rename_i parent hparent
      rcases List.mem_cons.mp h with rfl | h
      · exact .refl
      · exact .head hparent (ih h)

/-- **Making a directory and the missing ones above it**, whether or not all of them are made. -/
theorem extends_makeDirs (fs : FileSystem) (path : Path) :
    Extends (AtOrAbove path) none fs (fs.makeDirs path).disk :=
  extends_makeDirsOf fs fun _ => atOrAbove_of_mem_ancestors

/-- **Writing a file** changes nothing but that file, to which the path leads then. -/
theorem extends_writeFile (paths : Path → Prop) {contents : List UInt8}
    (h : fs.writeFile path contents = .ok fs') :
    ∃ l, LeadsTo fs' path l ∧ fs'.root.get? l = some (.file contents) ∧
      (∀ x, fs.root.get? l = some x → ∃ old, x = .file old) ∧
      Extends paths (some l) fs fs' := by
  obtain ⟨l, hcheck, hl, hfile, rfl⟩ := writeFile_eq_ok h
  have hkept := fun m x => exists_keeps_put hfile (.file contents) (m := m) (x := x)
  have hnew := get?_put_self hl (.file contents)
  refine ⟨l, ⟨hcheck, (leads_of_follow hl).written hkept hfile hnew⟩, hnew, hfile, rfl, ?_, ?_⟩
  · intro m x hm hx
    exact hkept m x (fun heq => hm (heq ▸ rfl)) hx
  · intro m x hm hnone hx
    exact absurd (eq_of_get?_put hl (fun _ _ => rfl) hnone hx).1 (fun heq => hm (heq ▸ rfl))

end Operations

end ErrorDocs.FileSystem
