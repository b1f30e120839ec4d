import Mathlib.Logic.Relation
import ErrorDocs.Proofs.FileSystem.Resolve

/-!
# What stands in the way of a path

A path is followed part by part. `Advance` is one step along it, `Obstacle` what can make the next
step impossible, each with its cause. A path that leads to no entry has met an obstacle on the way,
or has been followed to a place where there is nothing, or could not be used at all.

* `follow_of_advance`, `follow_of_obstacle`: what one step and what an obstacle mean for the rest.
* **`follow_eq_error_iff`**: following fails just if there is an obstacle on the way.
* **`status_eq_error_iff`**: the causes for which a path leads to no entry.
-/

namespace ErrorDocs.FileSystem

/-- How far a path has been followed: the number of links that may still be, where it has led to,
and the parts that are left. -/
structure Way where
  links : Nat
  here : Location
  ahead : List Name

/-- One step along a path, links followed. -/
inductive Advance (root : Entry) : Way → Way → Prop where
  | idle {links : Nat} {here : Location} {entries : List (Name × Entry)} {fault : Option OsError}
      {part : Name} {rest : List Name} (hd : root.get? here = some (.directory entries fault))
      (hp : Path.isIdlePart part) : Advance root ⟨links, here, part :: rest⟩ ⟨links, here, rest⟩
  | above {links : Nat} {here : Location} {entries : List (Name × Entry)} {fault : Option OsError}
      {rest : List Name} (hd : root.get? here = some (.directory entries fault)) :
      Advance root ⟨links, here, Path.above :: rest⟩ ⟨links, here.dropLast, rest⟩
  | through {links : Nat} {here : Location} {entries : List (Name × Entry)}
      {fault : Option OsError} {part : Name} {rest : List Name} {target : List UInt8}
      (hd : root.get? here = some (.directory entries fault)) (hp : Names .target part rest)
      (hf : Entry.find? part entries = some (.link target)) :
      Advance root ⟨links + 1, here, part :: rest⟩
        ⟨links, startOf target here, Path.partsOf target ++ rest⟩
  | into {links : Nat} {here : Location} {entries : List (Name × Entry)} {fault : Option OsError}
      {part : Name} {rest : List Name} {e : Entry}
      (hd : root.get? here = some (.directory entries fault)) (hp : Names .target part rest)
      (hf : Entry.find? part entries = some e) (he : ∀ target, e ≠ .link target) :
      Advance root ⟨links, here, part :: rest⟩ ⟨links, here ++ [part], rest⟩

/-- What makes the next step along a path impossible. -/
inductive Obstacle (root : Entry) : Way → OsError → Prop where
  /-- There is nothing to go on from. -/
  | nowhere {links : Nat} {here : Location} {part : Name} {rest : List Name}
      (hd : root.get? here = none) : Obstacle root ⟨links, here, part :: rest⟩ .notFound
  /-- A name on the way is missing. -/
  | missing {links : Nat} {here : Location} {entries : List (Name × Entry)}
      {fault : Option OsError} {part : Name} {rest : List Name}
      (hd : root.get? here = some (.directory entries fault)) (hp : Names .target part rest)
      (hf : Entry.find? part entries = none) (hrest : rest ≠ []) :
      Obstacle root ⟨links, here, part :: rest⟩ .notFound
  /-- Something else is used as a directory. -/
  | notADirectory {links : Nat} {here : Location} {e : Entry} {part : Name} {rest : List Name}
      (he : root.get? here = some e) (hd : e.isDirectory = false) :
      Obstacle root ⟨links, here, part :: rest⟩ .notADirectory
  /-- A part is longer than any name. -/
  | tooLong {links : Nat} {here : Location} {entries : List (Name × Entry)}
      {fault : Option OsError} {part : Name} {rest : List Name}
      (hd : root.get? here = some (.directory entries fault)) (hp : ¬ Path.isIdlePart part)
      (ha : part ≠ Path.above) (hlen : maxName < part.length) :
      Obstacle root ⟨links, here, part :: rest⟩ .nameTooLong
  /-- One link too many is to be followed. -/
  | tooManyLinks {here : Location} {entries : List (Name × Entry)} {fault : Option OsError}
      {part : Name} {rest : List Name} {target : List UInt8}
      (hd : root.get? here = some (.directory entries fault)) (hp : Names .target part rest)
      (hf : Entry.find? part entries = some (.link target)) :
      Obstacle root ⟨0, here, part :: rest⟩ .tooManyLinks

/-! ## Following -/

section Follow

variable {root : Entry}

theorem follow_of_advance {w w' : Way} (h : Advance root w w') :
    follow root .target w.links w.here w.ahead = follow root .target w'.links w'.here w'.ahead := by
  cases h with
  | idle hd hp => simp only [follow, hd, hp, if_true]
  | above hd => simp only [follow, hd, if_true]; rfl
  | through hd hp hf =>
    simp [follow, hd, hp.notIdle, hp.notAbove, Nat.not_lt.mpr hp.short, hf]
  | @into links here entries fault part rest e hd hp hf he =>
    cases e with
    | link target => exact absurd rfl (he target)
    | file contents fault' =>
      simp [follow, hd, hp.notIdle, hp.notAbove, Nat.not_lt.mpr hp.short, hf]
    | directory es fault' =>
      simp [follow, hd, hp.notIdle, hp.notAbove, Nat.not_lt.mpr hp.short, hf]

theorem follow_of_obstacle {w : Way} {e : OsError} (h : Obstacle root w e) :
    follow root .target w.links w.here w.ahead = .error e := by
  cases h with
  | nowhere hd => simp only [follow, hd]
  | missing hd hp hf hrest =>
    simp [follow, hd, hp.notIdle, hp.notAbove, Nat.not_lt.mpr hp.short, hf, hrest]
  | @notADirectory links here x part rest he hd =>
    cases x with
    | directory es fault => cases hd
    | file contents fault => simp only [follow, he]
    | link target => simp only [follow, he]
  | tooLong hd hp ha hlen => simp [follow, hd, hp, ha, hlen]
  | tooManyLinks hd hp hf =>
    simp [follow, hd, hp.notIdle, hp.notAbove, Nat.not_lt.mpr hp.short, hf]

theorem exists_obstacle_of_follow {links : Nat} {here : Location} {parts : List Name} {e : OsError}
    (h : follow root .target links here parts = .error e) :
    ∃ w, Relation.ReflTransGen (Advance root) ⟨links, here, parts⟩ w ∧ Obstacle root w e := by
  have hstep {w w' : Way} (hadvance : Advance root w w')
      (hrest : ∃ v, Relation.ReflTransGen (Advance root) w' v ∧ Obstacle root v e) :
      ∃ v, Relation.ReflTransGen (Advance root) w v ∧ Obstacle root v e := by
    obtain ⟨v, hv, hobstacle⟩ := hrest
    exact ⟨v, .head hadvance hv, hobstacle⟩
  have hhere {w : Way} (hobstacle : Obstacle root w e) :
      ∃ v, Relation.ReflTransGen (Advance root) w v ∧ Obstacle root v e :=
    ⟨w, .refl, hobstacle⟩
  fun_induction follow root .target links here parts with
  | case1 links here => cases h
  | case2 links here part rest entries fault hd hp ih => exact hstep (.idle hd hp) (ih h)
  | case3 links here rest entries fault hd hp ih => exact hstep (.above hd) (ih h)
  | case4 links here part rest entries fault hd hp ha hs => exact absurd hs.1 (by simp)
  | case5 links here part rest entries fault hd hp ha hs hlen =>
    obtain rfl := Except.error.inj h
    exact hhere (.tooLong hd hp ha hlen)
  | case6 => cases h
  | case7 links here part rest entries fault hd hp ha hs hlen hf hrest =>
    obtain rfl := Except.error.inj h
    exact hhere (.missing hd ⟨hp, ha, hs, Nat.not_lt.mp hlen⟩ hf (by simpa using hrest))
  | case8 => cases h
  | case9 here part rest entries fault hd hp ha hs hlen target hf hl =>
    obtain rfl := Except.error.inj h
    exact hhere (.tooManyLinks hd ⟨hp, ha, hs, Nat.not_lt.mp hlen⟩ hf)
  | case10 here part rest entries fault hd hp ha hs hlen target hf hl links ih =>
    exact hstep (.through hd ⟨hp, ha, hs, Nat.not_lt.mp hlen⟩ hf) (ih h)
  | case11 links here part rest entries fault hd hp ha hs hlen x hx hf ih =>
    exact hstep (.into hd ⟨hp, ha, hs, Nat.not_lt.mp hlen⟩ hf hx) (ih h)
  | case12 links here part rest x hx hd =>
    obtain rfl := Except.error.inj h
    refine hhere (.notADirectory hd ?_)
    cases x with
    | directory es fault => exact absurd rfl (hx es fault)
    | file contents fault => rfl
    | link target => rfl
  | case13 links here part rest hd =>
    obtain rfl := Except.error.inj h
    exact hhere (.nowhere hd)

/-- **Following a path fails just if there is an obstacle on the way**, for the cause that the
obstacle has. -/
theorem follow_eq_error_iff {links : Nat} {here : Location} {parts : List Name} {e : OsError} :
    follow root .target links here parts = .error e ↔
      ∃ w, Relation.ReflTransGen (Advance root) ⟨links, here, parts⟩ w ∧ Obstacle root w e := by
  refine ⟨exists_obstacle_of_follow, ?_⟩
  rintro ⟨w, hway, hobstacle⟩
  rw [← follow_of_obstacle hobstacle]
  clear hobstacle
  induction hway with
  | refl => rfl
  | tail _ hadvance ih => exact ih.trans (follow_of_advance hadvance)

end Follow

/-! ## Paths that lead to no entry -/

/-- The start of the way along a path. -/
def wayOf (fs : FileSystem) (path : Path) : Way :=
  ⟨maxLinks, startOf path.bytes fs.workingDirectory, path.parts⟩

/-- A path that can be used leads to a location, links followed. -/
def LeadsTo (fs : FileSystem) (path : Path) (loc : Location) : Prop :=
  checkPath path = .ok () ∧
    Leads fs.root .target maxLinks (startOf path.bytes fs.workingDirectory) path.parts loc

/-- The causes for which a path leads to no entry. -/
inductive LeadsNowhere (fs : FileSystem) (path : Path) : OsError → Prop where
  | zeroByte (h : 0 ∈ path.bytes) : LeadsNowhere fs path .zeroByte
  | empty (h : path.bytes = []) : LeadsNowhere fs path .notFound
  | tooLong (hzero : 0 ∉ path.bytes) (h : maxPath < path.bytes.length) :
      LeadsNowhere fs path .nameTooLong
  /-- There is an obstacle on the way. -/
  | blocked {w : Way} {e : OsError} (hcheck : checkPath path = .ok ())
      (hway : Relation.ReflTransGen (Advance fs.root) (wayOf fs path) w)
      (h : Obstacle fs.root w e) : LeadsNowhere fs path e
  /-- The way is free, but there is nothing at its end. -/
  | missing {loc : Location} (hleads : LeadsTo fs path loc) (h : fs.root.get? loc = none) :
      LeadsNowhere fs path .notFound

variable {fs : FileSystem} {path : Path}

theorem checkPath_eq_error_iff {e : OsError} : checkPath path = .error e ↔
    0 ∈ path.bytes ∧ e = .zeroByte ∨ path.bytes = [] ∧ e = .notFound ∨
      0 ∉ path.bytes ∧ maxPath < path.bytes.length ∧ e = .nameTooLong := by
  unfold checkPath
  simp only [List.contains_iff_mem, List.isEmpty_iff]
  split_ifs with hzero hempty hlong
  · have hne : path.bytes ≠ [] := List.ne_nil_of_mem hzero
    simp [hzero, hne, eq_comm]
  · simp [hempty, eq_comm]
  · simp [hzero, hempty, hlong, eq_comm]
  · simp [hzero, hempty, hlong]

theorem status_of_checkPath (hcheck : checkPath path = .ok ()) : fs.status path =
    fs.entryAt (follow fs.root .target maxLinks (startOf path.bytes fs.workingDirectory)
      path.parts) := by
  rw [status, resolve, hcheck, locate]

theorem status_of_checkPath_error {e : OsError} (hcheck : checkPath path = .error e) :
    fs.status path = .error e := by
  rw [status, resolve, hcheck, entryAt]

theorem status_of_leadsNowhere {e : OsError} (h : LeadsNowhere fs path e) :
    fs.status path = .error e := by
  cases h with
  | zeroByte h =>
    exact status_of_checkPath_error (checkPath_eq_error_iff.mpr (.inl ⟨h, rfl⟩))
  | empty h =>
    exact status_of_checkPath_error (checkPath_eq_error_iff.mpr (.inr (.inl ⟨h, rfl⟩)))
  | tooLong hzero h =>
    exact status_of_checkPath_error (checkPath_eq_error_iff.mpr (.inr (.inr ⟨hzero, h, rfl⟩)))
  | blocked hcheck hway h =>
    rw [status_of_checkPath hcheck, follow_eq_error_iff.mpr ⟨_, hway, h⟩, entryAt]
  | missing hleads h =>
    rw [status_of_checkPath hleads.1, follow_of_leads hleads.2, entryAt, h]

theorem leadsNowhere_of_status {e : OsError} (h : fs.status path = .error e) :
    LeadsNowhere fs path e := by
  cases hcheck : checkPath path with
  | error c =>
    rw [status_of_checkPath_error hcheck, Except.error.injEq] at h
    subst h
    rcases checkPath_eq_error_iff.mp hcheck with ⟨h, rfl⟩ | ⟨h, rfl⟩ | ⟨hzero, h, rfl⟩
    · exact .zeroByte h
    · exact .empty h
    · exact .tooLong hzero h
  | ok u =>
    rw [status_of_checkPath hcheck] at h
    cases hfollow : follow fs.root .target maxLinks (startOf path.bytes fs.workingDirectory)
      path.parts with
    | error c =>
      rw [hfollow, entryAt, Except.error.injEq] at h
      subst h
      obtain ⟨w, hway, hobstacle⟩ := follow_eq_error_iff.mp hfollow
      exact .blocked hcheck hway hobstacle
    | ok loc =>
      rw [hfollow, entryAt] at h
      cases hget : fs.root.get? loc with
      | some x =>
        rw [hget] at h
        cases h
      | none =>
        rw [hget, Except.error.injEq] at h
        exact h ▸ .missing ⟨hcheck, leads_of_follow hfollow⟩ hget

/-- **The causes for which a path leads to no entry.** -/
theorem status_eq_error_iff {e : OsError} : fs.status path = .error e ↔ LeadsNowhere fs path e :=
  ⟨leadsNowhere_of_status, status_of_leadsNowhere⟩

/-- What a path leads to stands at the location that it leads to. -/
theorem status_eq_ok_iff_leadsTo {e : Entry} :
    fs.status path = .ok e ↔ ∃ loc, LeadsTo fs path loc ∧ fs.root.get? loc = some e := by
  rw [status_eq_ok_iff]
  exact ⟨fun ⟨hcheck, loc, hleads, he⟩ => ⟨loc, ⟨hcheck, hleads⟩, he⟩,
    fun ⟨loc, ⟨hcheck, hleads⟩, he⟩ => ⟨hcheck, loc, hleads, he⟩⟩

/-- Of the causes, these do not mean that something is missing. -/
theorem LeadsNowhere.cause {e : OsError} (h : LeadsNowhere fs path e) (hne : e ≠ .notFound) :
    e = .notADirectory ∨ e = .tooManyLinks ∨ e = .nameTooLong ∨ e = .zeroByte := by
  cases h with
  | zeroByte h => simp
  | empty h => exact absurd rfl hne
  | tooLong hzero h => simp
  | missing hleads h => exact absurd rfl hne
  | blocked hcheck hway h =>
    cases h with
    | nowhere hd => exact absurd rfl hne
    | missing hd hp hf hrest => exact absurd rfl hne
    | notADirectory he hd => simp
    | tooLong hd hp ha hlen => simp
    | tooManyLinks hd hp hf => simp

end ErrorDocs.FileSystem
