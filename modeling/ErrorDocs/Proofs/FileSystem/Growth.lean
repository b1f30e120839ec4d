import ErrorDocs.Proofs.FileSystem.Invariant

/-!
# File systems that grow

Making directories and writing a file that was not there leaves everything in its place: a tree
*grows* if files and links stay as they are, directories stay directories, and the files that are
new have contents of a given kind. A path that leads to an entry then goes on
leading to it.

* `Entry.rel_get?_modify`, `Entry.get?_modify_concat`: what stands where after one change.
* `Entry.Grows`, `FileSystem.Grows`: growing trees.
* `Leads.grows`, **`Grows.status`**: paths in a file system that has grown.
* `Leads.arrives`: paths to what is put where they lead.
* `grows_makeDirs`, `grows_writeFile`: the operations that let a file system grow.
* **`contentsAt_writeFile`**: a file that is written is read back.
-/

namespace ErrorDocs

namespace Entry

/-! ## One change to a tree -/

section Alter

variable {name : Name} {f : Option Entry → Option Entry} {entries : List (Name × Entry)}

theorem find?_cons (x : Name × Entry) (n : Name) :
    find? n (x :: entries) = if x.1 = n then some x.2 else find? n entries := by
  unfold find?
  by_cases h : x.1 = n
  · rw [List.find?_cons_of_pos (by simpa using h), if_pos h, Option.map_some]
  · rw [List.find?_cons_of_neg (by simpa using h), if_neg h]

theorem find?_alter_self (hf : ∀ e, (f (some e)).isSome) :
    find? name (alter name f entries) = f (find? name entries) := by
  induction entries with
  | nil =>
    rw [alter]
    cases hnone : f none with
    | none => simp [find?, hnone]
    | some e => simp [find?, hnone]
  | cons x rest ih =>
    rw [alter, find?_cons]
    split
    · obtain ⟨e, he⟩ := Option.isSome_iff_exists.mp (hf x.2)
      rename_i hx
      rw [he, find?_cons, if_pos hx]
    · rename_i hx
      rw [find?_cons, if_neg hx, ih]

theorem find?_alter_of_ne {n : Name} (hn : n ≠ name) :
    find? n (alter name f entries) = find? n entries := by
  induction entries with
  | nil =>
    rw [alter]
    cases f none with
    | none => rfl
    | some e => rw [find?_cons, if_neg hn.symm]
  | cons x rest ih =>
    rw [alter, find?_cons]
    split
    · rename_i hx
      have hxn : ¬ x.1 = n := fun h => hn (h.symm.trans hx)
      rw [if_neg hxn]
      cases f (some x.2) with
      | none => rfl
      | some e => rw [find?_cons, if_neg hxn]
    · rw [find?_cons, ih]

theorem get?_concat {e : Entry} {here : Location} {fault : Option OsError}
    (hd : e.get? here = some (.directory entries fault)) (name : Name) :
    e.get? (here ++ [name]) = find? name entries := by
  rw [get?_append, hd, Option.bind_some, get?_directory_cons]
  cases find? name entries with
  | none => rfl
  | some x => exact get?_nil x

theorem modify_cons (fault : Option OsError) (rest : Location) (hrest : rest ≠ []) :
    modify f (name :: rest) (.directory entries fault) =
      .directory (alter name (Option.map (modify f rest)) entries) fault := by
  obtain ⟨next, rest, rfl⟩ := List.exists_cons_of_ne_nil hrest
  rw [modify]

end Alter

/-- What stays of an entry when other things change: files and links as they are, directories as
directories, with the fault that they have. -/
inductive Keeps : Entry → Entry → Prop where
  | file (contents : List UInt8) (fault : Option OsError) :
      Keeps (.file contents fault) (.file contents fault)
  | link (target : List UInt8) : Keeps (.link target) (.link target)
  | directory (entries entries' : List (Name × Entry)) (fault : Option OsError) :
      Keeps (.directory entries fault) (.directory entries' fault)

namespace Keeps

variable {e e' e'' : Entry}

theorem refl (e : Entry) : Keeps e e := by
  cases e with
  | file contents fault => exact .file contents fault
  | link target => exact .link target
  | directory entries fault => exact .directory entries entries fault

theorem trans (h : Keeps e e') (h' : Keeps e' e'') : Keeps e e'' := by
  cases h with
  | file contents fault => exact h'
  | link target => exact h'
  | directory entries entries' fault =>
    cases h' with
    | directory _ entries'' _ => exact .directory entries entries'' fault

theorem isDirectory_eq (h : Keeps e e') : e'.isDirectory = e.isDirectory := by
  cases h <;> rfl

end Keeps

theorem rel_refl (o : Option Entry) : Option.Rel Keeps o o := by
  cases o with
  | none => exact .none
  | some e => exact .some (.refl e)

/-- What stands elsewhere stays when the entry at one location is changed. -/
theorem rel_get?_modify {e : Entry} (f : Option Entry → Option Entry) {l m : Location}
    (h : ¬ l <+: m) : Option.Rel Keeps (e.get? m) ((e.modify f l).get? m) := by
  induction l generalizing e m with
  | nil => exact absurd List.nil_prefix h
  | cons name rest ih =>
    cases e with
    | file contents fault => exact rel_refl _
    | link target => exact rel_refl _
    | directory entries fault =>
      cases m with
      | nil =>
        rw [get?_nil, get?_nil]
        cases rest with
        | nil => exact .some (.directory _ _ _)
        | cons next rest => exact .some (.directory _ _ _)
      | cons n m =>
        by_cases hn : n = name
        · subst hn
          have hrest : ¬ rest <+: m := fun hpre => h (List.cons_prefix_cons.mpr ⟨rfl, hpre⟩)
          have hne : rest ≠ [] := by
            rintro rfl
            exact hrest List.nil_prefix
          rw [modify_cons fault rest hne, get?_directory_cons, get?_directory_cons,
            find?_alter_self fun e => rfl]
          cases find? n entries with
          | none => exact .none
          | some sub => exact ih hrest
        · have hsame : (modify f (name :: rest) (.directory entries fault)).get? (n :: m) =
              (directory entries fault).get? (n :: m) := by
            cases rest with
            | nil => rw [modify, get?_directory_cons, find?_alter_of_ne hn, get?_directory_cons]
            | cons next rest =>
              rw [modify, get?_directory_cons, find?_alter_of_ne hn, get?_directory_cons]
          rw [hsame]
          exact rel_refl _

theorem exists_keeps_modify {e x : Entry} (y : Entry) {l m : Location} (h : ¬ l <+: m)
    (hx : e.get? m = some x) :
    ∃ x', (e.modify (fun _ => some y) l).get? m = some x' ∧ x.Keeps x' := by
  have hrel := rel_get?_modify (e := e) (fun _ => some y) h
  rw [hx] at hrel
  generalize (e.modify (fun _ => some y) l).get? m = o at hrel ⊢
  cases hrel with
  | some hk => exact ⟨_, rfl, hk⟩

/-- What is put under a name of a directory stands there. -/
theorem get?_modify_concat {e y : Entry} {here : Location} {entries : List (Name × Entry)}
    {fault : Option OsError} (hd : e.get? here = some (.directory entries fault)) (name : Name)
    (m : Location) :
    (e.modify (fun _ => some y) (here ++ [name])).get? (here ++ [name] ++ m) = y.get? m := by
  induction here generalizing e with
  | nil =>
    rw [get?_nil, Option.some.injEq] at hd
    subst hd
    rw [List.nil_append, List.singleton_append, modify, get?_directory_cons,
      find?_alter_self fun e => rfl, Option.bind_some]
  | cons n here ih =>
    obtain ⟨entries', fault', sub, rfl, hf, hsub⟩ := get?_cons_eq_some_iff.mp hd
    rw [List.cons_append, modify_cons fault' _ (by simp), List.cons_append, get?_directory_cons,
      find?_alter_self fun e => rfl, hf]
    exact ih hsub

/-! ## Growing trees -/

/-- A tree has all that another has, each entry in its place, and the files that it has besides have
contents of a kind. -/
structure Grows (fresh : List UInt8 → Prop) (e e' : Entry) : Prop where
  kept : ∀ l x, e.get? l = some x → ∃ x', e'.get? l = some x' ∧ x.Keeps x'
  new : ∀ l contents fault, e.get? l = none → e'.get? l = some (.file contents fault) →
    fresh contents

namespace Grows

variable {fresh : List UInt8 → Prop} {e e' e'' : Entry}

theorem refl (fresh : List UInt8 → Prop) (e : Entry) : Grows fresh e e where
  kept l x hx := ⟨x, hx, .refl x⟩
  new l contents fault hnone hx := by rw [hnone] at hx; cases hx

theorem file_or_fresh (h : Grows fresh e e') {l : Location} {contents : List UInt8}
    {fault : Option OsError} (hl : e'.get? l = some (.file contents fault)) :
    e.get? l = some (.file contents fault) ∨ fresh contents := by
  cases hold : e.get? l with
  | none => exact .inr (h.new l contents fault hold hl)
  | some x =>
    obtain ⟨x', hx', hk⟩ := h.kept l x hold
    rw [hl, Option.some.injEq] at hx'
    subst hx'
    cases hk
    exact .inl rfl

theorem trans (h : Grows fresh e e') (h' : Grows fresh e' e'') : Grows fresh e e'' where
  kept l x hx := by
    obtain ⟨x', hx', hk⟩ := h.kept l x hx
    obtain ⟨x'', hx'', hk'⟩ := h'.kept l x' hx'
    exact ⟨x'', hx'', hk.trans hk'⟩
  new l contents fault hnone hx := by
    rcases h'.file_or_fresh hx with hmid | hnew
    · exact h.new l contents fault hnone hmid
    · exact hnew

theorem keeps (h : Grows fresh e e') : e.Keeps e' := by
  obtain ⟨x', hx', hk⟩ := h.kept [] e (get?_nil e)
  rw [get?_nil, Option.some.injEq] at hx'
  rwa [hx']

/-- A tree that grows does so below each of its places. -/
theorem below (h : Grows fresh e e') {l : Location} {x x' : Entry} (hx : e.get? l = some x)
    (hx' : e'.get? l = some x') : Grows fresh x x' := by
  have hsub : ∀ m, e.get? (l ++ m) = x.get? m := fun m => by
    rw [get?_append, hx, Option.bind_some]
  have hsub' : ∀ m, e'.get? (l ++ m) = x'.get? m := fun m => by
    rw [get?_append, hx', Option.bind_some]
  constructor
  · intro m y hy
    rw [← hsub] at hy
    rw [← hsub']
    exact h.kept (l ++ m) y hy
  · intro m contents fault hnone hfile
    rw [← hsub] at hnone
    rw [← hsub'] at hfile
    exact h.new (l ++ m) contents fault hnone hfile

theorem file (h : Grows fresh e e') {l : Location} {contents : List UInt8} {fault : Option OsError}
    (hl : e.get? l = some (.file contents fault)) : e'.get? l = some (.file contents fault) := by
  obtain ⟨x', hx', hk⟩ := h.kept l _ hl
  cases hk
  exact hx'

theorem directory (h : Grows fresh e e') {l : Location} {entries : List (Name × Entry)}
    {fault : Option OsError} (hl : e.get? l = some (.directory entries fault)) :
    ∃ entries', e'.get? l = some (.directory entries' fault) := by
  obtain ⟨x', hx', hk⟩ := h.kept l _ hl
  cases hk with
  | directory _ entries' _ => exact ⟨entries', hx'⟩

theorem find? (h : Grows fresh e e') {here : Location} {entries : List (Name × Entry)}
    {fault : Option OsError} (hd : e.get? here = some (.directory entries fault)) {name : Name}
    {x : Entry} (hf : find? name entries = some x) :
    ∃ entries' x', e'.get? here = some (.directory entries' fault) ∧
      Entry.find? name entries' = some x' ∧ x.Keeps x' := by
  obtain ⟨x', hx', hk⟩ := h.kept (here ++ [name]) x (by rw [get?_concat hd, hf])
  obtain ⟨entries', hd'⟩ := h.directory hd
  rw [get?_concat hd'] at hx'
  exact ⟨entries', x', hd', hx', hk⟩

/-- A tree grows when something new is put into a directory: an empty directory, or a file with
contents of the kind. -/
theorem modify_concat {here : Location} {entries : List (Name × Entry)} {fault : Option OsError}
    (hd : e.get? here = some (.directory entries fault)) {name : Name}
    (hnone : e.get? (here ++ [name]) = none) {y : Entry}
    (hy : y = .directory [] ∨ ∃ contents, y = .file contents ∧ fresh contents) :
    Grows fresh e (e.modify (fun _ => some y) (here ++ [name])) := by
  -- elsewhere all is as before, and there is nothing below the new entry
  have hnew : ∀ m x', e.get? m = none →
      (e.modify (fun _ => some y) (here ++ [name])).get? m = some x' → x' = y := by
    intro m x' hm hx'
    by_cases hpre : here ++ [name] <+: m
    · obtain ⟨t, rfl⟩ := hpre
      rw [get?_modify_concat hd] at hx'
      cases t with
      | nil => exact (Option.some.inj (get?_nil y ▸ hx')).symm
      | cons n t =>
        obtain ⟨es, fault', sub, hes, hf, -⟩ := get?_cons_eq_some_iff.mp hx'
        rcases hy with rfl | ⟨contents, rfl, -⟩
        · obtain ⟨rfl, -⟩ := Entry.directory.inj hes
          cases hf
        · cases hes
    · have hrel := rel_get?_modify (e := e) (fun _ => some y) hpre
      rw [hm, hx'] at hrel
      cases hrel
  refine ⟨fun l x hx => ?_, fun l contents fault' hm hx => ?_⟩
  · have hpre : ¬ here ++ [name] <+: l := by
      rintro ⟨t, rfl⟩
      rw [get?_append, hnone, Option.bind_none] at hx
      cases hx
    exact exists_keeps_modify y hpre hx
  · have hxy := hnew l _ hm hx
    rcases hy with rfl | ⟨contents', rfl, hfresh⟩
    · cases hxy
    · cases hxy
      exact hfresh

end Grows

end Entry

namespace FileSystem

/-! ## Paths in a file system that grows -/

/-- A path that leads to an entry goes on leading to it. -/
theorem Leads.grows {fresh : List UInt8 → Prop} {root root' : Entry} (hg : root.Grows fresh root')
    {last : LastPart} {links : Nat} {here loc : Location} {parts : List Name}
    (h : Leads root last links here parts loc) {e : Entry} (he : root.get? loc = some e) :
    Leads root' last links here parts loc := by
  induction h with
  | done links here => exact .done links here
  | idle hd hp h ih =>
    obtain ⟨entries', hd'⟩ := hg.directory hd
    exact .idle hd' hp (ih he)
  | above hd h ih =>
    obtain ⟨entries', hd'⟩ := hg.directory hd
    exact .above hd' (ih he)
  | missing hd hp hf =>
    rw [Entry.get?_concat hd, hf] at he
    cases he
  | link hd hp hf hl =>
    obtain ⟨entries', x', hd', hf', hk⟩ := hg.find? hd hf
    cases hk
    exact .link hd' hp hf' hl
  | through hd hp hf hl h ih =>
    obtain ⟨entries', x', hd', hf', hk⟩ := hg.find? hd hf
    cases hk
    exact .through hd' hp hf' hl (ih he)
  | into hd hp hf hlink h ih =>
    obtain ⟨entries', x', hd', hf', hk⟩ := hg.find? hd hf
    refine .into hd' hp hf' ?_ (ih he)
    rintro target rfl
    cases hk
    exact hlink target rfl

/-- File systems that grow. -/
structure Grows (fresh : List UInt8 → Prop) (fs fs' : FileSystem) : Prop where
  root : fs.root.Grows fresh fs'.root
  here : fs'.workingDirectory = fs.workingDirectory

namespace Grows

variable {fresh : List UInt8 → Prop} {fs fs' fs'' : FileSystem} {path : Path}

theorem refl (fresh : List UInt8 → Prop) (fs : FileSystem) : Grows fresh fs fs :=
  ⟨.refl fresh fs.root, rfl⟩

theorem trans (h : Grows fresh fs fs') (h' : Grows fresh fs' fs'') : Grows fresh fs fs'' :=
  ⟨h.root.trans h'.root, h'.here.trans h.here⟩

/-- **What a path leads to has grown**, and the path leads to it as before. -/
theorem status (h : Grows fresh fs fs') {e : Entry} (hs : fs.status path = .ok e) :
    ∃ e', fs'.status path = .ok e' ∧ e.Grows fresh e' := by
  obtain ⟨hcheck, loc, hleads, hget⟩ := status_eq_ok_iff.mp hs
  obtain ⟨e', hget', -⟩ := h.root.kept loc e hget
  refine ⟨e', status_eq_ok_iff.mpr ⟨hcheck, loc, ?_, hget'⟩, h.root.below hget hget'⟩
  rw [h.here]
  exact hleads.grows h.root hget

theorem isDirectory (h : Grows fresh fs fs') (hd : fs.isDirectory path) : fs'.isDirectory path := by
  unfold FileSystem.isDirectory at hd ⊢
  cases hs : fs.status path with
  | error e =>
    rw [hs] at hd
    cases hd
  | ok e =>
    obtain ⟨e', hs', hgrown⟩ := h.status hs
    rw [hs] at hd
    rw [hs']
    exact hgrown.keeps.isDirectory_eq.trans hd

theorem contentsAt (h : Grows fresh fs fs') {contents : List UInt8}
    (hc : fs.contentsAt path = .ok contents) : fs'.contentsAt path = .ok contents := by
  obtain ⟨e', hs', hgrown⟩ := h.status (contentsAt_eq_ok_iff.mp hc)
  cases hgrown.keeps
  exact contentsAt_eq_ok_iff.mpr hs'

theorem textAt (h : Grows fresh fs fs') {text : List Char} (ht : fs.textAt path = .ok text) :
    fs'.textAt path = .ok text := by
  unfold FileSystem.textAt at ht ⊢
  split at ht
  · cases ht
  · rename_i hc
    rw [h.contentsAt hc]
    exact ht

end Grows

/-! ## Operations -/

section Operations

variable {fs fs' : FileSystem} {path : Path}

/-- The location that a path leads to is that of an entry, or a new one in a directory. -/
theorem Leads.exists_or_room {root : Entry} {last : LastPart} {links : Nat} {here loc : Location}
    {parts : List Name} (h : Leads root last links here parts loc) (hparts : parts ≠ []) :
    (∃ e, root.get? loc = some e ∧ (last ≠ .itself → ∀ target, e ≠ .link target)) ∨
      ∃ dir name entries fault, loc = dir ++ [name] ∧
        root.get? dir = some (.directory entries fault) ∧ root.get? loc = none := by
  induction h with
  | done links here => exact absurd rfl hparts
  | @idle links here loc entries fault part rest hd hp h ih =>
    by_cases hrest : rest = []
    · subst hrest
      cases h
      exact .inl ⟨_, hd, by simp⟩
    · exact ih hrest
  | @above links here loc entries fault rest hd h ih =>
    by_cases hrest : rest = []
    · subst hrest
      cases h
      left
      rcases List.eq_nil_or_concat' here with rfl | ⟨dir, name, rfl⟩
      · exact ⟨_, hd, by simp⟩
      · rw [List.dropLast_concat]
        obtain ⟨entries', fault', hd'⟩ := Entry.exists_directory_of_get?_append_cons hd
        exact ⟨_, hd', by simp⟩
    · exact ih hrest
  | missing hd hp hf =>
    right
    exact ⟨_, _, _, _, rfl, hd, by rw [Entry.get?_concat hd, hf]⟩
  | link hd hp hf hl =>
    left
    exact ⟨_, by rw [Entry.get?_concat hd, hf], fun hne => absurd hl hne⟩
  | through hd hp hf hl h ih =>
    exact ih (by simp [Path.partsOf_eq_splitOn, List.splitOn_ne_nil])
  | @into links here loc entries fault part rest e hd hp hf he h ih =>
    by_cases hrest : rest = []
    · subst hrest
      cases h
      left
      exact ⟨_, by rw [Entry.get?_concat hd, hf], fun _ => he⟩
    · exact ih hrest

theorem exists_or_room_of_locate {last : LastPart} {l : Location}
    (h : fs.locate last path = .ok l) :
    (∃ e, fs.root.get? l = some e ∧ (last ≠ .itself → ∀ target, e ≠ .link target)) ∨
      ∃ dir name entries fault, l = dir ++ [name] ∧
        fs.root.get? dir = some (.directory entries fault) ∧ fs.root.get? l = none := by
  refine (leads_of_follow h).exists_or_room ?_
  rw [Path.parts, Path.partsOf_eq_splitOn]
  exact List.splitOn_ne_nil _ _

theorem grows_put {last : LastPart} {l : Location} (hl : fs.locate last path = .ok l)
    (hnone : fs.root.get? l = none) {fresh : List UInt8 → Prop} {y : Entry}
    (hy : y = .directory [] ∨ ∃ contents, y = .file contents ∧ fresh contents) :
    Grows fresh fs (fs.put l y) := by
  rcases exists_or_room_of_locate hl with ⟨e, he, -⟩ | ⟨dir, name, entries, fault, rfl, hd, -⟩
  · rw [hnone] at he
    cases he
  · exact ⟨.modify_concat hd hnone hy, rfl⟩

/-- What making a directory does. -/
theorem makeDir_eq_ok (h : fs.makeDir path = .ok fs') :
    ∃ l, checkPath path = .ok () ∧ (withoutEndSlashes path).bytes ≠ [] ∧
      fs.locate .itself (withoutEndSlashes path) = .ok l ∧ fs.root.get? l = none ∧
      fs' = fs.put l (.directory []) := by
  unfold makeDir at h
  split at h
  · cases h
  · rename_i hcheck
    unfold makeDirAt at h
    dsimp only at h
    split at h
    · cases h
    · rename_i last hlast
      split at h
      · split at h <;> cases h
      · rename_i hname
        have hne : (withoutEndSlashes path).bytes ≠ [] := by
          intro hnil
          rw [Path.parts, hnil, Path.partsOf_nil] at hlast
          obtain rfl : [] = last := by simpa using hlast
          simp [Path.isIdlePart] at hname
        unfold createAt at h
        split at h
        · cases h
        · rename_i l hl
          split at h
          · cases h
          · rename_i hnone
            exact ⟨l, hcheck, hne, hl, hnone, (Except.ok.inj h).symm⟩

theorem grows_makeDir (fresh : List UInt8 → Prop) (h : fs.makeDir path = .ok fs') :
    Grows fresh fs fs' := by
  obtain ⟨l, -, -, hl, hnone, rfl⟩ := makeDir_eq_ok h
  exact grows_put hl hnone (.inl rfl)

theorem grows_makeDirsOf (fresh : List UInt8 → Prop) (fs : FileSystem) (paths : List Path) :
    Grows fresh fs (fs.makeDirsOf paths).disk := by
  induction paths with
  | nil => exact .refl fresh fs
  | cons path above ih =>
    rw [makeDirsOf]
    split
    · rename_i hm
      exact grows_makeDir fresh hm
    · dsimp only
      split
      · exact ih
      · split
        · rename_i hm
          exact ih.trans (grows_makeDir fresh hm)
        · split <;> exact ih
    · split <;> exact .refl fresh fs

/-- **Making directories lets a file system grow**, whether or not all of them are made. -/
theorem grows_makeDirs (fresh : List UInt8 → Prop) (fs : FileSystem) (path : Path) :
    Grows fresh fs (fs.makeDirs path).disk :=
  grows_makeDirsOf fresh fs _

/-- What writing a file does. What stands there before, if anything, is a file that can be
opened. -/
theorem writeFile_eq_ok {contents : List UInt8} (h : fs.writeFile path contents = .ok fs') :
    ∃ l, checkPath path = .ok () ∧ fs.locate .forFile path = .ok l ∧
      (∀ x, fs.root.get? l = some x → ∃ old, x = .file old) ∧ fs' = fs.put l (.file contents) := by
  unfold writeFile writeAt at h
  split at h
  · cases h
  · rename_i l hl
    unfold resolve at hl
    split at hl
    · cases hl
    · rename_i hcheck
      split at h
      · cases h
      · cases h
      · rename_i hdirectory hfault
        refine ⟨l, hcheck, hl, fun x hx => ?_, (Except.ok.inj h).symm⟩
        rcases exists_or_room_of_locate hl with ⟨e, he, hlink⟩ | ⟨-, -, -, -, -, -, hnone⟩
        · rw [hx, Option.some.injEq] at he
          subst he
          cases x with
          | file old fault =>
            cases fault with
            | none => exact ⟨old, rfl⟩
            | some e => exact (hfault old e hx).elim
          | link target => exact absurd rfl (hlink (by simp) target)
          | directory entries fault => exact (hdirectory entries fault hx).elim
        · rw [hx] at hnone
          cases hnone

/-- **Writing a file that is not there lets a file system grow.** -/
theorem grows_writeFile {fresh : List UInt8 → Prop} {contents : List UInt8}
    (hfresh : fresh contents) (hnone : ∀ e, fs.linkStatus path ≠ .ok e)
    (h : fs.writeFile path contents = .ok fs') : Grows fresh fs fs' := by
  obtain ⟨l, hcheck, hl, -, rfl⟩ := writeFile_eq_ok h
  refine grows_put hl ?_ (.inr ⟨contents, rfl, hfresh⟩)
  -- an entry there would be what the path names, or behind a link that the path names
  cases hget : fs.root.get? l with
  | none => rfl
  | some e =>
    exfalso
    obtain ⟨l', hl', hsame⟩ := (leads_of_follow hl).itself
    have hitself : fs.linkStatus path = fs.entryAt (.ok l') := by
      rw [linkStatus, resolve, hcheck]
      exact congrArg fs.entryAt (follow_of_leads hl')
    rw [hitself] at hnone
    rcases hsame with rfl | ⟨target, hlink⟩
    · exact hnone e (by simp only [entryAt, hget])
    · exact hnone (.link target) (by simp only [entryAt, hlink])

/-! ## Reading what is written -/

/-- **A path leads to what is put where it leads**, in place of nothing or of a file, when
everything else stays. Parts may come after it that do not lead on. -/
theorem Leads.arrives {root root' : Entry} {last : LastPart} {links : Nat} {here l : Location}
    {parts : List Name} (h : Leads root last links here parts l)
    (hkept : ∀ m x, m ≠ l → root.get? m = some x → ∃ x', root'.get? m = some x' ∧ x.Keeps x')
    (hfile : ∀ x, root.get? l = some x → ∃ contents, x = .file contents) {y : Entry}
    (hl : root'.get? l = some y) (hlink : ∀ target, y ≠ .link target) {idle : List Name}
    (hidle : ∀ links, Leads root' .target links l idle l) :
    Leads root' .target links here (parts ++ idle) l := by
  have hnames {part rest rest'} (hp : Names last part rest) : Names .target part rest' :=
    ⟨hp.notIdle, hp.notAbove, by simp, hp.short⟩
  have hdir {m : Location} {entries : List (Name × Entry)} {fault : Option OsError}
      (hd : root.get? m = some (.directory entries fault)) :
      ∃ entries', root'.get? m = some (.directory entries' fault) := by
    have hm : m ≠ l := by
      rintro rfl
      obtain ⟨contents', hx⟩ := hfile _ hd
      cases hx
    obtain ⟨x', hx', hk⟩ := hkept m _ hm hd
    cases hk with
    | directory _ entries' _ => exact ⟨entries', hx'⟩
  induction h with
  | done links here => exact hidle links
  | idle hd hp h ih =>
    obtain ⟨entries', hd'⟩ := hdir hd
    exact .idle hd' hp (ih hkept hfile hl hidle)
  | above hd h ih =>
    obtain ⟨entries', hd'⟩ := hdir hd
    exact .above hd' (ih hkept hfile hl hidle)
  | missing hd hp hf =>
    obtain ⟨entries', hd'⟩ := hdir hd
    rw [Entry.get?_concat hd'] at hl
    exact .into hd' (hnames hp) hl hlink (hidle _)
  | link hd hp hf hlast =>
    obtain ⟨contents', hx⟩ := hfile _ ((Entry.get?_concat hd _).trans hf)
    cases hx
  | @through links here loc entries fault part rest target hd hp hf hlast h ih =>
    obtain ⟨entries', hd'⟩ := hdir hd
    have hget := (Entry.get?_concat hd part).trans hf
    have hm : here ++ [part] ≠ loc := by
      rintro rfl
      obtain ⟨contents', hx⟩ := hfile _ hget
      cases hx
    obtain ⟨x', hx', hk⟩ := hkept _ _ hm hget
    cases hk
    rw [Entry.get?_concat hd'] at hx'
    have hrest := ih hkept hfile hl hidle
    rw [List.append_assoc] at hrest
    exact .through hd' (hnames hp) hx' (by simp) hrest
  | @into links here loc entries fault part rest e hd hp hf he h ih =>
    obtain ⟨entries', hd'⟩ := hdir hd
    have hget := (Entry.get?_concat hd part).trans hf
    obtain ⟨x', hx', hlink'⟩ : ∃ x', root'.get? (here ++ [part]) = some x' ∧
        ∀ target, x' ≠ .link target := by
      by_cases hm : here ++ [part] = loc
      · exact ⟨y, hm ▸ hl, hlink⟩
      · obtain ⟨x', hx', hk⟩ := hkept _ _ hm hget
        refine ⟨x', hx', ?_⟩
        rintro target rfl
        cases hk
        exact he target rfl
    rw [Entry.get?_concat hd'] at hx'
    exact .into hd' (hnames hp) hx' hlink' (ih hkept hfile hl hidle)

/-- A path leads to a file that is written where it leads. -/
theorem Leads.written {root root' : Entry} {links : Nat} {here l : Location} {parts : List Name}
    (h : Leads root .forFile links here parts l)
    (hkept : ∀ m x, m ≠ l → root.get? m = some x → ∃ x', root'.get? m = some x' ∧ x.Keeps x')
    (hfile : ∀ x, root.get? l = some x → ∃ contents, x = .file contents) {contents : List UInt8}
    (hl : root'.get? l = some (.file contents)) : Leads root' .target links here parts l := by
  have hleads := h.arrives hkept hfile hl (by simp) fun links => .done links l
  rwa [List.append_nil] at hleads

theorem get?_put_self {last : LastPart} {l : Location} (hl : fs.locate last path = .ok l)
    (y : Entry) : (fs.put l y).root.get? l = some y := by
  rcases List.eq_nil_or_concat' l with rfl | ⟨dir, name, rfl⟩
  · exact Entry.get?_nil _
  · obtain ⟨entries, fault, hd⟩ :
        ∃ entries fault, fs.root.get? dir = some (.directory entries fault) := by
      rcases exists_or_room_of_locate hl with ⟨e, he, -⟩ | ⟨dir', name', entries, fault, heq, hd, -⟩
      · exact Entry.exists_directory_of_get?_append_cons he
      · exact ⟨entries, fault, (List.append_inj_left' heq rfl).symm ▸ hd⟩
    have hat := Entry.get?_modify_concat (y := y) hd name []
    rwa [List.append_nil, Entry.get?_nil] at hat

/-- Nothing else changes when something is put where nothing or a file is. -/
theorem exists_keeps_put {l : Location}
    (hfile : ∀ x, fs.root.get? l = some x → ∃ old, x = .file old) (y : Entry) {m : Location}
    {x : Entry} (hm : m ≠ l) (hx : fs.root.get? m = some x) :
    ∃ x', (fs.put l y).root.get? m = some x' ∧ x.Keeps x' := by
  refine Entry.exists_keeps_modify y ?_ hx
  rintro ⟨t, rfl⟩
  cases t with
  | nil => exact hm (List.append_nil l)
  | cons n t =>
    obtain ⟨entries, fault, hd⟩ := Entry.exists_directory_of_get?_append_cons hx
    obtain ⟨old, hold⟩ := hfile _ hd
    cases hold

/-- **A file that is written is read back.** -/
theorem contentsAt_writeFile {contents : List UInt8} (h : fs.writeFile path contents = .ok fs') :
    fs'.contentsAt path = .ok contents := by
  obtain ⟨l, hcheck, hl, hfile, rfl⟩ := writeFile_eq_ok h
  have hnew := get?_put_self hl (.file contents)
  have hleads := (leads_of_follow hl).written
    (fun m x => exists_keeps_put hfile (.file contents)) hfile hnew
  exact contentsAt_eq_ok_iff.mpr (status_eq_ok_iff.mpr ⟨hcheck, l, hleads, hnew⟩)

end Operations

end FileSystem

end ErrorDocs
