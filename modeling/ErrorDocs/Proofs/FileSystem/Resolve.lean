import ErrorDocs.FileSystem.Operations
import ErrorDocs.Proofs.FileSystem.Path

/-!
# Where paths lead

`Leads` says what following a path can do, one rule for each way to get past a part, and
`follow_eq_ok_iff` that following does just this. What is said below of paths is shown from the
rules: a path that leads to a directory can be continued, and names put after it lead down the
tree from there.

* `Leads.split`: the first parts of a path lead to a directory, from which any others may go on.
* `Leads.itself`: a path that is taken up to a link at its end instead of through it.
* **`status_below`**: the path of a place below a directory leads to what stands at the place.
* `contentsAt_eq_ok_iff`, `CanList`: what can be read and what can be listed.
-/

namespace ErrorDocs.FileSystem

/-- Parts that name an entry, when others come after them. -/
structure Names (last : LastPart) (part : Name) (rest : List Name) : Prop where
  notIdle : ¬ Path.isIdlePart part
  notAbove : part ≠ Path.above
  notSlashed : ¬ (last = .forFile ∧ endsInSlash rest)
  short : part.length ≤ maxName

/-- Following parts of a path from a location leads to another, over so many links at most. -/
inductive Leads (root : Entry) (last : LastPart) :
    Nat → Location → List Name → Location → Prop where
  | done (links : Nat) (here : Location) : Leads root last links here [] here
  | idle {links : Nat} {here loc : Location} {entries : List (Name × Entry)}
      {fault : Option OsError} {part : Name} {rest : List Name}
      (hd : root.get? here = some (.directory entries fault)) (hp : Path.isIdlePart part)
      (h : Leads root last links here rest loc) : Leads root last links here (part :: rest) loc
  | above {links : Nat} {here loc : Location} {entries : List (Name × Entry)}
      {fault : Option OsError} {rest : List Name}
      (hd : root.get? here = some (.directory entries fault))
      (h : Leads root last links here.dropLast rest loc) :
      Leads root last links here (Path.above :: rest) loc
  | missing {links : Nat} {here : Location} {entries : List (Name × Entry)}
      {fault : Option OsError} {part : Name}
      (hd : root.get? here = some (.directory entries fault)) (hp : Names last part [])
      (hf : Entry.find? part entries = none) : Leads root last links here [part] (here ++ [part])
  | link {links : Nat} {here : Location} {entries : List (Name × Entry)} {fault : Option OsError}
      {part : Name} {target : List UInt8}
      (hd : root.get? here = some (.directory entries fault)) (hp : Names last part [])
      (hf : Entry.find? part entries = some (.link target)) (hl : last = .itself) :
      Leads root last links here [part] (here ++ [part])
  | through {links : Nat} {here loc : Location} {entries : List (Name × Entry)}
      {fault : Option OsError} {part : Name} {rest : List Name} {target : List UInt8}
      (hd : root.get? here = some (.directory entries fault)) (hp : Names last part rest)
      (hf : Entry.find? part entries = some (.link target)) (hl : ¬ (rest = [] ∧ last = .itself))
      (h : Leads root last links (startOf target here) (Path.partsOf target ++ rest) loc) :
      Leads root last (links + 1) here (part :: rest) loc
  | into {links : Nat} {here loc : Location} {entries : List (Name × Entry)}
      {fault : Option OsError} {part : Name} {rest : List Name} {e : Entry}
      (hd : root.get? here = some (.directory entries fault)) (hp : Names last part rest)
      (hf : Entry.find? part entries = some e) (he : ∀ target, e ≠ .link target)
      (h : Leads root last links (here ++ [part]) rest loc) :
      Leads root last links here (part :: rest) loc

section

variable {root : Entry} {last : LastPart}

theorem leads_of_follow {links : Nat} {here loc : Location} {parts : List Name}
    (h : follow root last links here parts = .ok loc) : Leads root last links here parts loc := by
  fun_induction follow root last links here parts with
  | case1 links here =>
    obtain rfl := Except.ok.inj h
    exact .done links here
  | case2 links here part rest entries fault hd hp ih => exact .idle hd hp (ih h)
  | case3 links here rest entries fault hd hp ih => exact .above hd (ih h)
  | case6 links here part rest entries fault hd hp ha hs hlen hf hrest =>
    obtain rfl := Except.ok.inj h
    obtain rfl := List.isEmpty_iff.mp hrest
    exact .missing hd ⟨hp, ha, hs, Nat.not_lt.mp hlen⟩ hf
  | case8 links here part rest entries fault hd hp ha hs hlen target hf hl =>
    obtain rfl := Except.ok.inj h
    obtain rfl := List.isEmpty_iff.mp hl.1
    exact .link hd ⟨hp, ha, hs, Nat.not_lt.mp hlen⟩ hf hl.2
  | case10 here part rest entries fault hd hp ha hs hlen target hf hl links ih =>
    exact .through hd ⟨hp, ha, hs, Nat.not_lt.mp hlen⟩ hf (by rwa [← List.isEmpty_iff]) (ih h)
  | case11 links here part rest entries fault hd hp ha hs hlen e he hf ih =>
    exact .into hd ⟨hp, ha, hs, Nat.not_lt.mp hlen⟩ hf he (ih h)
  -- the other cases are failures
  | case4 | case5 | case7 | case9 | case12 | case13 => cases h

theorem follow_of_leads {links : Nat} {here loc : Location} {parts : List Name}
    (h : Leads root last links here parts loc) : follow root last links here parts = .ok loc := by
  induction h with
  | done links here => rw [follow]
  | idle hd hp h ih =>
    rw [follow, hd]
    simpa only [hp, if_true] using ih
  | above hd h ih =>
    rw [follow, hd]
    exact ih
  | missing hd hp hf =>
    rw [follow, hd]
    simp [hp.notIdle, hp.notAbove, hp.notSlashed, Nat.not_lt.mpr hp.short, hf]
  | link hd hp hf hl =>
    rw [follow, hd]
    simp [hp.notIdle, hp.notAbove, Nat.not_lt.mpr hp.short, hf, hl]
  | through hd hp hf hl h ih =>
    rw [follow, hd]
    simpa [hp.notIdle, hp.notAbove, hp.notSlashed, Nat.not_lt.mpr hp.short, hf, hl] using ih
  | @into links here loc entries fault part rest e hd hp hf he h ih =>
    rw [follow, hd]
    simp only [hp.notIdle, hp.notAbove, hp.notSlashed, Nat.not_lt.mpr hp.short, hf, if_false]
    cases e with
    | link target => exact absurd rfl (he target)
    | file contents fault => exact ih
    | directory entries fault => exact ih

/-- **Following does what the rules say.** -/
theorem follow_eq_ok_iff {links : Nat} {here loc : Location} {parts : List Name} :
    follow root last links here parts = .ok loc ↔ Leads root last links here parts loc :=
  ⟨leads_of_follow, follow_of_leads⟩

namespace Leads

/-- **The first parts of a path lead to a directory**, and any others lead on from it. -/
theorem split {links : Nat} {here loc : Location} {ps qs : List Name}
    (h : Leads root .target links here (ps ++ qs) loc)
    (hend : qs = [] → ∃ entries fault, root.get? loc = some (.directory entries fault)) :
    ∃ links' mid, (∃ entries fault, root.get? mid = some (.directory entries fault)) ∧
      Leads root .target links' mid qs loc ∧
      ∀ qs' loc', Leads root .target links' mid qs' loc' →
        Leads root .target links here (ps ++ qs') loc' := by
  generalize hparts : ps ++ qs = parts at h
  induction h generalizing ps with
  | done links here =>
    obtain ⟨rfl, rfl⟩ := List.append_eq_nil_iff.mp hparts
    exact ⟨links, here, hend rfl, .done links here, fun _ _ h => h⟩
  | @idle links here loc entries fault part rest hd hp h ih =>
    cases ps with
    | nil =>
      obtain rfl := hparts
      exact ⟨links, here, ⟨entries, fault, hd⟩, .idle hd hp h, fun _ _ h => h⟩
    | cons p ps =>
      obtain ⟨rfl, rfl⟩ := List.cons.inj hparts
      obtain ⟨links', mid, hmid, hqs, hall⟩ := ih hend rfl
      exact ⟨links', mid, hmid, hqs, fun qs' loc' h' => .idle hd hp (hall qs' loc' h')⟩
  | @above links here loc entries fault rest hd h ih =>
    cases ps with
    | nil =>
      obtain rfl := hparts
      exact ⟨links, here, ⟨entries, fault, hd⟩, .above hd h, fun _ _ h => h⟩
    | cons p ps =>
      obtain ⟨rfl, rfl⟩ := List.cons.inj hparts
      obtain ⟨links', mid, hmid, hqs, hall⟩ := ih hend rfl
      exact ⟨links', mid, hmid, hqs, fun qs' loc' h' => .above hd (hall qs' loc' h')⟩
  | @missing links here entries fault part hd hp hf =>
    cases ps with
    | nil =>
      obtain rfl := hparts
      exact ⟨links, here, ⟨entries, fault, hd⟩, .missing hd hp hf, fun _ _ h => h⟩
    | cons p ps =>
      -- a missing entry is not a directory, from which the path could go on
      obtain ⟨rfl, hnil⟩ := List.cons.inj hparts
      obtain ⟨entries', fault', hdir⟩ := hend (List.append_eq_nil_iff.mp hnil).2
      rw [Entry.get?_append, hd, Option.bind_some, Entry.get?_directory_cons, hf] at hdir
      cases hdir
  | link hd hp hf hl => cases hl
  | @through links here loc entries fault part rest target hd hp hf hl h ih =>
    cases ps with
    | nil =>
      obtain rfl := hparts
      exact ⟨links + 1, here, ⟨entries, fault, hd⟩, .through hd hp hf hl h, fun _ _ h => h⟩
    | cons p ps =>
      obtain ⟨rfl, rfl⟩ := List.cons.inj hparts
      obtain ⟨links', mid, hmid, hqs, hall⟩ := ih hend (List.append_assoc _ _ _)
      refine ⟨links', mid, hmid, hqs, fun qs' loc' h' => ?_⟩
      have := hall qs' loc' h'
      rw [List.append_assoc] at this
      exact .through hd ⟨hp.notIdle, hp.notAbove, by simp, hp.short⟩ hf (by simp) this
  | @into links here loc entries fault part rest e hd hp hf he h ih =>
    cases ps with
    | nil =>
      obtain rfl := hparts
      exact ⟨links, here, ⟨entries, fault, hd⟩, .into hd hp hf he h, fun _ _ h => h⟩
    | cons p ps =>
      obtain ⟨rfl, rfl⟩ := List.cons.inj hparts
      obtain ⟨links', mid, hmid, hqs, hall⟩ := ih hend rfl
      exact ⟨links', mid, hmid, hqs, fun qs' loc' h' =>
        .into hd ⟨hp.notIdle, hp.notAbove, by simp, hp.short⟩ hf he (hall qs' loc' h')⟩

/-- A path leads to the same when it is not followed through a link at its end, or to that link. -/
theorem itself {links : Nat} {here loc : Location} {parts : List Name}
    (h : Leads root last links here parts loc) :
    ∃ loc', Leads root .itself links here parts loc' ∧
      (loc' = loc ∨ ∃ target, root.get? loc' = some (.link target)) := by
  have hnames {part rest} (hp : Names last part rest) : Names .itself part rest :=
    ⟨hp.notIdle, hp.notAbove, by simp, hp.short⟩
  induction h with
  | done links here => exact ⟨here, .done links here, .inl rfl⟩
  | idle hd hp h ih =>
    obtain ⟨loc', h', hloc⟩ := ih
    exact ⟨loc', .idle hd hp h', hloc⟩
  | above hd h ih =>
    obtain ⟨loc', h', hloc⟩ := ih
    exact ⟨loc', .above hd h', hloc⟩
  | missing hd hp hf => exact ⟨_, .missing hd (hnames hp) hf, .inl rfl⟩
  | link hd hp hf hl => exact ⟨_, .link hd (hnames hp) hf rfl, .inl rfl⟩
  | @through links here loc entries fault part rest target hd hp hf hl h ih =>
    by_cases hrest : rest = []
    · subst hrest
      refine ⟨here ++ [part], .link hd (hnames hp) hf rfl, .inr ⟨target, ?_⟩⟩
      rw [Entry.get?_append, hd, Option.bind_some, Entry.get?_directory_cons, hf, Option.bind_some,
        Entry.get?_nil]
    · obtain ⟨loc', h', hloc⟩ := ih
      exact ⟨loc', .through hd (hnames hp) hf (fun hl => hrest hl.1) h', hloc⟩
  | into hd hp hf he h ih =>
    obtain ⟨loc', h', hloc⟩ := ih
    exact ⟨loc', .into hd (hnames hp) hf he h', hloc⟩

end Leads

theorem names_of_isName {part : Name} (h : Entry.IsName part) (rest : List Name) :
    Names .target part rest where
  notIdle := by simpa [Path.isIdlePart] using ⟨h.nonempty, h.ne_here⟩
  notAbove := h.ne_above
  notSlashed := by simp
  short := h.short

/-- Names lead down the tree. -/
theorem leads_names {here l : Location} {e e' : Entry} (hhere : root.get? here = some e)
    (he : e.get? l = some e') (hlink : ∀ target, e' ≠ .link target)
    (hnames : ∀ n ∈ l, Entry.IsName n) (links : Nat) :
    Leads root .target links here l (here ++ l) := by
  induction l generalizing here e with
  | nil =>
    rw [List.append_nil]
    exact .done links here
  | cons name l ih =>
    obtain ⟨hname, hl⟩ := List.forall_mem_cons.mp hnames
    obtain ⟨entries, fault, sub, rfl, hf, hsub⟩ := Entry.get?_cons_eq_some_iff.mp he
    have hnext : root.get? (here ++ [name]) = some sub := by
      rw [Entry.get?_append, hhere, Option.bind_some, Entry.get?_directory_cons, hf,
        Option.bind_some, Entry.get?_nil]
    have hsublink : ∀ target, sub ≠ .link target := by
      rintro target rfl
      cases l with
      | nil => exact hlink target (Option.some.inj hsub).symm
      | cons n l => cases hsub
    have := ih hnext hsub hl
    rw [List.append_assoc, List.singleton_append] at this
    exact .into hhere (names_of_isName hname l) hf hsublink this

end

/-! ## What paths lead to -/

theorem status_eq_ok_iff {fs : FileSystem} {path : Path} {e : Entry} :
    fs.status path = .ok e ↔ checkPath path = .ok () ∧
      ∃ loc, Leads fs.root .target maxLinks (startOf path.bytes fs.workingDirectory) path.parts
          loc ∧ fs.root.get? loc = some e := by
  simp only [← follow_eq_ok_iff]
  unfold status entryAt resolve locate
  cases hcheck : checkPath path with
  | error e => simp
  | ok u =>
    cases hfollow : follow fs.root .target maxLinks (startOf path.bytes fs.workingDirectory)
      path.parts with
    | error e => simp
    | ok loc => cases hget : fs.root.get? loc <;> simp [hget]

theorem linkStatus_of_status {fs : FileSystem} {path : Path} {e : Entry}
    (h : fs.status path = .ok e) :
    fs.linkStatus path = .ok e ∨ ∃ target, fs.linkStatus path = .ok (.link target) := by
  obtain ⟨hcheck, loc, hleads, hget⟩ := status_eq_ok_iff.mp h
  obtain ⟨loc', hleads', hloc⟩ := hleads.itself
  have hitself : fs.linkStatus path = fs.entryAt (.ok loc') := by
    rw [linkStatus, resolve, hcheck]
    exact congrArg fs.entryAt (follow_of_leads hleads')
  rw [hitself, entryAt]
  rcases hloc with rfl | ⟨target, hlink⟩
  · left
    rw [hget]
  · right
    exact ⟨target, by rw [hlink]⟩

theorem checkPath_eq_ok_iff {path : Path} : checkPath path = .ok () ↔
    0 ∉ path.bytes ∧ path.bytes ≠ [] ∧ path.bytes.length ≤ maxPath := by
  unfold checkPath
  simp only [List.contains_iff_mem, List.isEmpty_iff]
  split_ifs with h1 h2 h3
  · simp [h1]
  · simp [h2]
  · simp [Nat.not_le.mpr h3]
  · simp [h1, h2, Nat.not_lt.mp h3]

theorem checkPath_below {root : Path} (h : checkPath root = .ok ()) {l : Location}
    (hl : ∀ n ∈ l, Entry.IsName n) :
    checkPath (root.below l) = .ok () ↔ (root.below l).bytes.length ≤ maxPath := by
  obtain ⟨hzero, hne, -⟩ := checkPath_eq_ok_iff.mp h
  have hne' : (root.below l).bytes ≠ [] := (root.bytes_below_of_prefix hl).ne_nil hne
  rw [checkPath_eq_ok_iff, root.zero_mem_below hl]
  simp [hzero, hne']

theorem startOf_below {root : Path} (hroot : root.bytes ≠ []) {l : Location}
    (hl : ∀ n ∈ l, Entry.IsName n) (here : Location) :
    startOf (root.below l).bytes here = startOf root.bytes here := by
  obtain ⟨ys, hys⟩ := root.bytes_below_of_prefix hl
  rw [startOf, ← hys, List.head?_append_of_ne_nil _ hroot, startOf]

/-- A path that leads to a directory does so without an empty part at its end, and can be gone on
from there. -/
theorem leads_stem {root : Entry} {links : Nat} {here loc : Location} {path : Path}
    {entries : List (Name × Entry)} {fault : Option OsError}
    (h : Leads root .target links here path.parts loc)
    (hd : root.get? loc = some (.directory entries fault)) :
    ∃ links', ∀ qs loc', Leads root .target links' loc qs loc' →
      Leads root .target links here (path.stem ++ qs) loc' := by
  rcases path.parts_eq_stem with hparts | hparts
  · rw [hparts, ← List.append_nil path.stem] at h
    obtain ⟨links', mid, -, hnil, hall⟩ := h.split fun _ => ⟨entries, fault, hd⟩
    cases hnil
    exact ⟨links', hall⟩
  · rw [hparts] at h
    obtain ⟨links', mid, -, hidle, hall⟩ := h.split (by simp)
    have hmid : mid = loc := by
      cases hidle with
      | idle _ _ h => cases h; rfl
      | missing _ hp _ => exact absurd rfl hp.notIdle
      | link _ hp _ _ => exact absurd rfl hp.notIdle
      | through _ hp _ _ _ => exact absurd rfl hp.notIdle
      | into _ hp _ _ _ => exact absurd rfl hp.notIdle
    exact ⟨links', hmid ▸ hall⟩

/-- **The path of a place below a directory leads to what stands at the place**, if it is short
enough to be used. -/
theorem status_below {fs : FileSystem} (hfs : fs.root.WellFormed) {root : Path}
    {entries : List (Name × Entry)} {fault : Option OsError}
    (hroot : fs.status root = .ok (.directory entries fault)) {l : Location} {e : Entry}
    (hl : (Entry.directory entries fault).get? l = some e)
    (hlink : ∀ target, e ≠ .link target) (hlen : (root.below l).bytes.length ≤ maxPath) :
    fs.status (root.below l) = .ok e := by
  obtain ⟨hcheck, loc, hleads, hget⟩ := status_eq_ok_iff.mp hroot
  have hnames := ((hfs.of_get? hget).2.of_get? hl).1
  by_cases hnil : l = []
  · subst hnil
    rw [Entry.get?_nil, Option.some.injEq] at hl
    rw [Path.below_nil, hroot, hl]
  refine status_eq_ok_iff.mpr ⟨(checkPath_below hcheck hnames).mpr hlen, loc ++ l, ?_, ?_⟩
  · obtain ⟨links', hgo⟩ := leads_stem hleads hget
    rw [root.parts_below hnames hnil, startOf_below (checkPath_eq_ok_iff.mp hcheck).2.1 hnames]
    exact hgo l _ (leads_names hget hl hlink hnames links')
  · rw [Entry.get?_append, hget, Option.bind_some, hl]

/-! ## What can be opened -/

/-- Files that can be read are there and have no fault. -/
theorem contentsAt_eq_ok_iff {fs : FileSystem} {path : Path} {contents : List UInt8} :
    fs.contentsAt path = .ok contents ↔ fs.status path = .ok (.file contents none) := by
  unfold contentsAt
  constructor
  · intro h
    split at h
    · cases h
    · rename_i hstatus
      obtain rfl := Except.ok.inj h
      exact hstatus
    · cases h
    · cases h
    · cases h
  · intro h
    rw [h]

/-- A path leads to a directory that can be listed. -/
def CanList (fs : FileSystem) (path : Path) : Prop :=
  ∃ entries, fs.entriesAt path = .ok entries

/-- Directories that can be listed are there and have no fault. -/
theorem canList_iff {fs : FileSystem} {path : Path} :
    fs.CanList path ↔ ∃ entries, fs.status path = .ok (.directory entries none) := by
  unfold CanList entriesAt
  constructor
  · rintro ⟨entries, h⟩
    split at h
    · cases h
    · rename_i hstatus
      exact ⟨_, hstatus⟩
    · cases h
    · cases h
  · rintro ⟨entries, h⟩
    exact ⟨entries, by rw [h]⟩

/-- A directory below another can be listed if its path is short enough and it has no fault. -/
theorem canList_below {fs : FileSystem} (hfs : fs.root.WellFormed) {root : Path}
    {entries sub : List (Name × Entry)} {fault fault' : Option OsError}
    (hroot : fs.status root = .ok (.directory entries fault)) {l : Location}
    (hl : (Entry.directory entries fault).get? l = some (.directory sub fault')) :
    fs.CanList (root.below l) ↔ listFault (root.below l) fault' = none := by
  rw [canList_iff, listFault]
  constructor
  · rintro ⟨entries', h⟩
    have hlen := (checkPath_eq_ok_iff.mp (status_eq_ok_iff.mp h).1).2.2
    have hsame := (status_below hfs hroot hl (by simp) hlen).symm.trans h
    simp only [Except.ok.injEq, Entry.directory.injEq] at hsame
    rw [if_neg (Nat.not_lt.mpr hlen), hsame.2]
  · intro h
    split_ifs at h with hlen
    subst h
    exact ⟨sub, status_below hfs hroot hl (by simp) (Nat.not_lt.mp hlen)⟩

end ErrorDocs.FileSystem
