import Mathlib
import ErrorDocs.Proofs.FileSystem.Resolve

/-!
# What a walk meets

A walk goes through the places of a tree in order, and what it meets at a place depends on the way
to it: on the names of the directories, and on whether they can be listed. `Meets` says what is
met, rule by rule, and `exists_met` that a walk meets this and nothing else, each place once.

* `walkTree_directory`: the walk of a directory, entry by entry in the order of the names.
* `walk_congr`: the part of a filter that a walk depends on.
* **`exists_met`**: the places that a walk meets are those of `Meets`, in order.
* `exists_filePlaces`: the files of a walk, by a condition on the tree alone.
* **`walk_places`**: the files of a walk, and its failures, in terms of the tree.
-/

namespace ErrorDocs

/-! ## The order of names -/

theorem nameLE_iff {a b : Name} : nameLE a b = true ↔ a ≤ b := by
  induction a generalizing b with
  | nil => simp [nameLE]
  | cons x xs ih =>
    cases b with
    | nil => simp [nameLE]
    | cons y ys => simp [nameLE, ih, List.cons_le_cons_iff]

namespace FileSystem

/-- The entries of a directory in the order of their names. -/
def byName (entries : List (Name × Entry)) : List (Name × Entry) :=
  entries.mergeSort fun a b => nameLE a.1 b.1

theorem mem_byName {entries : List (Name × Entry)} {x : Name × Entry} :
    x ∈ byName entries ↔ x ∈ entries :=
  (List.mergeSort_perm ..).mem_iff

/-- Names that differ are in strict order once they are sorted. -/
theorem pairwise_byName {entries : List (Name × Entry)} (h : (entries.map (·.1)).Nodup) :
    (byName entries).Pairwise fun a b => a.1 < b.1 := by
  have hsorted : (byName entries).Pairwise fun a b => nameLE a.1 b.1 = true := by
    refine List.pairwise_mergeSort (fun a b c hab hbc => ?_) (fun a b => ?_) entries
    · exact nameLE_iff.mpr (List.le_trans (nameLE_iff.mp hab) (nameLE_iff.mp hbc))
    · rw [Bool.or_eq_true, nameLE_iff, nameLE_iff]
      exact List.le_total a.1 b.1
  have hnodup : ((byName entries).map (·.1)).Nodup :=
    ((List.mergeSort_perm entries _).map _).nodup_iff.mpr h
  refine hsorted.imp₂ (fun a b hle hne => ?_) (List.pairwise_map.mp hnodup)
  exact Std.lt_of_le_of_ne (nameLE_iff.mp hle) hne

/-! ## Walking entry by entry -/

/-- Names of directories that are not entered. -/
def skips (filter : PathFilter) (name : Name) : Bool :=
  filter.isIgnoredDir (String.ofList (Utf8.decodeLossy name))

/-- The visits of an entry of a directory. -/
def visitsOf (filter : PathFilter) (dir : Path) (x : Name × Entry) : List Visit :=
  if x.2.isDirectory && skips filter x.1 then [.ignored (dir.child x.1)]
  else walkTree filter (dir.child x.1) x.2

theorem walkEntries_eq_map (filter : PathFilter) (dir : Path) (entries : List (Name × Entry)) :
    walkEntries filter dir entries = entries.map fun x => (x.1, visitsOf filter dir x) := by
  induction entries with
  | nil => rfl
  | cons x rest ih =>
    rw [walkEntries, ih]
    rfl

theorem walkTree_directory (filter : PathFilter) (path : Path) (entries : List (Name × Entry))
    (fault : Option OsError) :
    walkTree filter path (.directory entries fault) =
      match listFault path fault with
      | some e => [.failed path e]
      | none => (byName entries).flatMap (visitsOf filter path) := by
  have hsort := List.map_mergeSort (r := fun a b => nameLE a.1 b.1)
    (s := fun a b => nameLE a.1 b.1) (f := fun x : Name × Entry => (x.1, visitsOf filter path x))
    (l := entries) fun _ _ _ _ => rfl
  rw [walkTree, walkEntries_eq_map, inNameOrder, ← hsort, List.flatMap_map]
  rfl

/-- A walk depends on nothing of a filter but the names of directories. -/
theorem walkTree_congr {f g : PathFilter} (h : f.ignoreDirs = g.ignoreDirs) (path : Path)
    (e : Entry) : walkTree f path e = walkTree g path e := by
  induction e using Entry.entryInduction generalizing path with
  | file contents fault => rw [walkTree, walkTree]
  | link target => rw [walkTree, walkTree]
  | directory entries fault ih =>
    have hskips : skips f = skips g := by
      unfold skips PathFilter.isIgnoredDir
      rw [h]
    have hvisits : (byName entries).flatMap (visitsOf f path) =
        (byName entries).flatMap (visitsOf g path) := by
      refine List.flatMap_congr fun x hx => ?_
      rw [visitsOf, visitsOf, hskips, ih x (mem_byName.mp hx)]
    rw [walkTree_directory, walkTree_directory, hvisits]

theorem walk_congr {f g : PathFilter} (h : f.ignoreDirs = g.ignoreDirs) (fs : FileSystem)
    (root : Path) : fs.walk f root = fs.walk g root := by
  unfold walk
  simp only [walkTree_congr h]

/-- The walk from a root that leads to a directory. -/
theorem walk_eq_walkTree {fs : FileSystem} {root : Path} {entries : List (Name × Entry)}
    {fault : Option OsError} (h : fs.status root = .ok (.directory entries fault))
    (filter : PathFilter) :
    fs.walk filter root = walkTree filter root (.directory entries fault) := by
  unfold walk
  rcases linkStatus_of_status h with hlink | ⟨target, hlink⟩
  · rw [hlink]
  · rw [hlink, h]
    rfl

/-! ## What is met at a place -/

/-- What a walk meets below a directory that it has got to, at a place. -/
inductive Meets (filter : PathFilter) : Path → Entry → Location → Visit → Prop where
  | file (path : Path) (contents : List UInt8) (fault : Option OsError) :
      Meets filter path (.file contents fault) [] (.file path)
  | failed {path : Path} (entries : List (Name × Entry)) {fault : Option OsError} {e : OsError}
      (hp : listFault path fault = some e) :
      Meets filter path (.directory entries fault) [] (.failed path e)
  | ignored {path : Path} {entries : List (Name × Entry)} {fault : Option OsError}
      {x : Name × Entry} (hp : listFault path fault = none) (hx : x ∈ entries)
      (hi : (x.2.isDirectory && skips filter x.1) = true) :
      Meets filter path (.directory entries fault) [x.1] (.ignored (path.child x.1))
  | inside {path : Path} {entries : List (Name × Entry)} {fault : Option OsError}
      {x : Name × Entry} {l : Location} {v : Visit} (hp : listFault path fault = none)
      (hx : x ∈ entries) (hi : (x.2.isDirectory && skips filter x.1) = false)
      (h : Meets filter (path.child x.1) x.2 l v) :
      Meets filter path (.directory entries fault) (x.1 :: l) v

section Meets

variable {filter : PathFilter} {path : Path} {l : Location} {v : Visit}
  {entries : List (Name × Entry)} {fault : Option OsError}

theorem meets_file_iff {contents : List UInt8} :
    Meets filter path (.file contents fault) l v ↔ l = [] ∧ v = .file path := by
  constructor
  · rintro ⟨⟩
    exact ⟨rfl, rfl⟩
  · rintro ⟨rfl, rfl⟩
    exact .file path contents fault

theorem not_meets_link {target : List UInt8} : ¬ Meets filter path (.link target) l v := by
  rintro ⟨⟩

theorem meets_directory_iff_of_some {e : OsError} (hp : listFault path fault = some e) :
    Meets filter path (.directory entries fault) l v ↔ l = [] ∧ v = .failed path e := by
  constructor
  · intro h
    cases h with
    | failed _ hp' =>
      obtain rfl := Option.some.inj (hp.symm.trans hp')
      exact ⟨rfl, rfl⟩
    | ignored hp' _ _ => exact absurd (hp.symm.trans hp') (by simp)
    | inside hp' _ _ _ => exact absurd (hp.symm.trans hp') (by simp)
  · rintro ⟨rfl, rfl⟩
    exact .failed entries hp

/-- What a walk meets at a place below an entry of a directory, or at the entry. -/
def MeetsOf (filter : PathFilter) (dir : Path) (x : Name × Entry) (l : Location) (v : Visit) :
    Prop :=
  if x.2.isDirectory && skips filter x.1 then l = [] ∧ v = .ignored (dir.child x.1)
  else Meets filter (dir.child x.1) x.2 l v

theorem meets_directory_iff (hp : listFault path fault = none) :
    Meets filter path (.directory entries fault) l v ↔
      ∃ x ∈ entries, ∃ m, MeetsOf filter path x m v ∧ x.1 :: m = l := by
  constructor
  · intro h
    cases h with
    | failed _ hp' => exact absurd (hp.symm.trans hp') (by simp)
    | ignored _ hx hi => exact ⟨_, hx, [], by rw [MeetsOf, if_pos hi]; exact ⟨rfl, rfl⟩, rfl⟩
    | inside _ hx hi h => exact ⟨_, hx, _, by rw [MeetsOf, if_neg (by simp [hi])]; exact h, rfl⟩
  · rintro ⟨x, hx, m, h, rfl⟩
    unfold MeetsOf at h
    split at h
    · rename_i hi
      obtain ⟨rfl, rfl⟩ := h
      exact .ignored hp hx hi
    · rename_i hi
      exact .inside hp hx (by simpa using hi) h

end Meets

/-! ## All that is met, in order -/

theorem exists_of_isSome_file? {v : Visit} (h : v.file?.isSome) : ∃ path, v = .file path := by
  cases v with
  | file path => exact ⟨path, rfl⟩
  | ignored path => cases h
  | failed path e => cases h

/-- Visits, each with the place it is made at: all that there are of a kind, in order. -/
structure IsMet (visits : List Visit) (p : Location → Visit → Prop)
    (met : List (Location × Visit)) : Prop where
  visits_eq : visits = met.map (·.2)
  sorted : met.Pairwise fun a b => a.1 < b.1
  mem_iff : ∀ l v, (l, v) ∈ met ↔ p l v

theorem isMet_singleton {p : Location → Visit → Prop} {v : Visit}
    (h : ∀ l w, p l w ↔ l = [] ∧ w = v) : IsMet [v] p [([], v)] where
  visits_eq := rfl
  sorted := List.pairwise_singleton _ _
  mem_iff l w := by rw [h, List.mem_singleton, Prod.mk.injEq]

theorem exists_metOf {filter : PathFilter} {dir : Path} {x : Name × Entry}
    (h : ∃ met,
      IsMet (walkTree filter (dir.child x.1) x.2) (Meets filter (dir.child x.1) x.2) met) :
    ∃ met, IsMet (visitsOf filter dir x) (MeetsOf filter dir x) met := by
  unfold visitsOf MeetsOf
  split
  · exact ⟨_, isMet_singleton fun l w => Iff.rfl⟩
  · exact h

/-- The visits of a directory are those of its entries, in the order of their names. -/
theorem isMet_flatMap {filter : PathFilter} {path : Path} {entries : List (Name × Entry)}
    {fault : Option OsError} (hp : listFault path fault = none)
    (nodup : (entries.map (·.1)).Nodup) {met : Name × Entry → List (Location × Visit)}
    (h : ∀ x ∈ entries, IsMet (visitsOf filter path x) (MeetsOf filter path x) (met x)) :
    IsMet ((byName entries).flatMap (visitsOf filter path))
      (Meets filter path (.directory entries fault))
      ((byName entries).flatMap fun x => (met x).map fun p => (x.1 :: p.1, p.2)) where
  visits_eq := by
    rw [List.map_flatMap]
    refine List.flatMap_congr fun x hx => ?_
    rw [(h x (mem_byName.mp hx)).visits_eq, List.map_map]
    rfl
  sorted := by
    refine List.pairwise_flatMap.mpr ⟨fun x hx => ?_, ?_⟩
    · refine List.pairwise_map.mpr ((h x (mem_byName.mp hx)).sorted.imp fun hlt => ?_)
      exact List.cons_lt_cons_iff.mpr (.inr ⟨rfl, hlt⟩)
    · refine (pairwise_byName nodup).imp fun hlt a ha b hb => ?_
      obtain ⟨p, -, rfl⟩ := List.mem_map.mp ha
      obtain ⟨q, -, rfl⟩ := List.mem_map.mp hb
      exact List.cons_lt_cons_iff.mpr (.inl hlt)
  mem_iff l v := by
    rw [meets_directory_iff hp, List.mem_flatMap]
    constructor
    · rintro ⟨x, hx, hmem⟩
      obtain ⟨⟨m, w⟩, hmw, heq⟩ := List.mem_map.mp hmem
      obtain ⟨rfl, rfl⟩ := Prod.mk.inj heq
      have hx := mem_byName.mp hx
      exact ⟨x, hx, m, ((h x hx).mem_iff m w).mp hmw, rfl⟩
    · rintro ⟨x, hx, m, hm, rfl⟩
      exact ⟨x, mem_byName.mpr hx, List.mem_map.mpr ⟨(m, v), ((h x hx).mem_iff m v).mpr hm, rfl⟩⟩

/-- **A walk meets the places of `Meets`**, in order and each once. -/
theorem exists_met {e : Entry} (he : e.WellFormed) (filter : PathFilter) (path : Path) :
    ∃ met, IsMet (walkTree filter path e) (Meets filter path e) met := by
  induction he generalizing path with
  | file contents fault =>
    rw [walkTree]
    exact ⟨_, isMet_singleton fun l w => meets_file_iff⟩
  | link noZero =>
    rw [walkTree]
    exact ⟨[], rfl, .nil, fun l v => by simp [not_meets_link]⟩
  | directory fault nodup names below ih =>
    rw [walkTree_directory]
    split
    · rename_i hp
      exact ⟨_, isMet_singleton fun l w => meets_directory_iff_of_some hp⟩
    · rename_i hp
      have hentries := fun x hx => exists_metOf (x := x) (ih x hx (path.child x.1))
      choose! met hmet using hentries
      exact ⟨_, isMet_flatMap hp nodup hmet⟩

/-- The places of the visits of a kind. -/
def placesOf (q : Visit → Bool) (met : List (Location × Visit)) : List Location :=
  (met.filter fun x => q x.2).map (·.1)

namespace IsMet

variable {visits : List Visit} {p : Location → Visit → Prop} {met : List (Location × Visit)}

theorem pairwise_placesOf (h : IsMet visits p met) (q : Visit → Bool) :
    (placesOf q met).Pairwise (· < ·) :=
  List.pairwise_map.mpr (h.sorted.filter _)

theorem mem_placesOf (h : IsMet visits p met) {q : Visit → Bool} {l : Location} :
    l ∈ placesOf q met ↔ ∃ v, p l v ∧ q v := by
  simp [placesOf, h.mem_iff]

theorem nodup_placesOf (h : IsMet visits p met) (q : Visit → Bool) : (placesOf q met).Nodup := by
  refine List.Pairwise.imp ?_ (h.pairwise_placesOf q)
  rintro a _ hlt rfl
  exact List.lt_irrefl a hlt

theorem length_placesOf (h : IsMet visits p met) (q : Visit → Bool) :
    (placesOf q met).length = visits.countP q := by
  rw [placesOf, List.length_map, ← List.countP_eq_length_filter, h.visits_eq, List.countP_map]
  rfl

/-- Each file is at the path of its place. -/
theorem files_eq (h : IsMet visits p met) {root : Path}
    (hroot : ∀ l path, p l (.file path) → path = root.below l) :
    Visit.files visits = (placesOf (·.file?.isSome) met).map root.below := by
  have hmet : ∀ x ∈ met, ∀ path, x.2 = .file path → path = root.below x.1 := by
    rintro ⟨l, v⟩ hx path rfl
    exact hroot l path ((h.mem_iff l _).mp hx)
  rw [h.visits_eq, Visit.files, List.filterMap_map, placesOf, List.map_map,
    ← List.filterMap_eq_filter, List.map_filterMap]
  refine List.filterMap_congr fun x hx => ?_
  obtain ⟨l, v⟩ := x
  cases v with
  | file path => simp [Visit.file?, hmet _ hx path rfl]
  | ignored path => rfl
  | failed path e => rfl

end IsMet

/-! ## The way to a place -/

/-- A walk gets to what stands at a place, to enter it or to take it. -/
inductive Reaches (filter : PathFilter) : Path → Entry → Location → Entry → Prop where
  | here (path : Path) (e : Entry) : Reaches filter path e [] e
  | down {path : Path} {entries : List (Name × Entry)} {fault : Option OsError} {x : Name × Entry}
      {l : Location} {e : Entry} (hp : listFault path fault = none) (hx : x ∈ entries)
      (hi : (x.2.isDirectory && skips filter x.1) = false)
      (h : Reaches filter (path.child x.1) x.2 l e) :
      Reaches filter path (.directory entries fault) (x.1 :: l) e

theorem Reaches.meets {filter : PathFilter} {path : Path} {e e' : Entry} {l : Location} {v : Visit}
    (h : Reaches filter path e l e') (hv : Meets filter (path.below l) e' [] v) :
    Meets filter path e l v := by
  induction h with
  | here path e => exact hv
  | down hp hx hi h ih => exact .inside hp hx hi (ih hv)

theorem Meets.reaches {filter : PathFilter} {path : Path} {e : Entry} {l : Location} {v : Visit}
    (h : Meets filter path e l v) (hv : ∀ p, v ≠ .ignored p) :
    ∃ e', Reaches filter path e l e' ∧ Meets filter (path.below l) e' [] v := by
  induction h with
  | file path contents fault => exact ⟨_, .here _ _, .file path contents fault⟩
  | failed entries hp => exact ⟨_, .here _ _, .failed entries hp⟩
  | ignored hp hx hi => exact absurd rfl (hv _)
  | inside hp hx hi h ih =>
    obtain ⟨e', hr, hm⟩ := ih hv
    exact ⟨e', .down hp hx hi hr, hm⟩

theorem reaches_nil_iff {filter : PathFilter} {path : Path} {e e' : Entry} :
    Reaches filter path e [] e' ↔ e = e' := by
  constructor
  · rintro ⟨⟩
    rfl
  · rintro rfl
    exact .here path e

theorem reaches_cons_iff {filter : PathFilter} {path : Path} {e e' : Entry} {name : Name}
    {l : Location} (he : e.WellFormed) : Reaches filter path e (name :: l) e' ↔
      ∃ entries fault sub, e = .directory entries fault ∧ Entry.find? name entries = some sub ∧
        listFault path fault = none ∧ (sub.isDirectory && skips filter name) = false ∧
        Reaches filter (path.child name) sub l e' := by
  constructor
  · intro h
    cases h with
    | down hp hx hi h =>
      cases he with
      | directory _ nodup _ _ =>
        exact ⟨_, _, _, rfl, (Entry.find?_eq_some_iff nodup).mpr hx, hp, hi, h⟩
  · rintro ⟨entries, fault, sub, rfl, hf, hp, hi, h⟩
    exact .down (x := (name, sub)) hp (Entry.mem_of_find? hf) hi h

theorem forall_prefix_cons_iff {p : Location → Prop} {name : Name} {l : Location} :
    (∀ m, m <+: name :: l → m ≠ name :: l → p m) ↔
      p [] ∧ ∀ m, m <+: l → m ≠ l → p (name :: m) := by
  constructor
  · intro h
    refine ⟨h [] List.nil_prefix (by simp), fun m hm hne => ?_⟩
    exact h _ (List.cons_prefix_cons.mpr ⟨rfl, hm⟩) (by simpa using hne)
  · rintro ⟨hnil, hcons⟩ m hm hne
    rcases List.prefix_cons_iff.mp hm with rfl | ⟨t, rfl, ht⟩
    · exact hnil
    · exact hcons t ht (by simpa using hne)

/-- The names that are tested on the way to an entry: those of directories. -/
def Passes (filter : PathFilter) (l : Location) (e : Entry) : Prop :=
  (∀ n ∈ l.dropLast, ¬ skips filter n) ∧ (e.isDirectory → ∀ n ∈ l, ¬ skips filter n)

theorem passes_cons_iff {filter : PathFilter} {sub e : Entry} {name : Name} {l : Location}
    (h : sub.get? l = some e) : Passes filter (name :: l) e ↔
      (sub.isDirectory && skips filter name) = false ∧ Passes filter l e := by
  unfold Passes
  cases l with
  | nil =>
    rw [Entry.get?_nil, Option.some.injEq] at h
    simp [h]
  | cons n l =>
    obtain ⟨entries, fault, -, rfl, -⟩ := Entry.get?_cons_eq_some_iff.mp h
    simp [Entry.isDirectory, List.dropLast_cons_of_ne_nil]
    tauto

/-- There is a directory at a place, and it can be listed. -/
def Opens (path : Path) (e : Entry) (l : Location) : Prop :=
  ∃ entries fault, e.get? l = some (.directory entries fault) ∧
    listFault (path.below l) fault = none

theorem opens_nil_iff {path : Path} {entries : List (Name × Entry)} {fault : Option OsError} :
    Opens path (.directory entries fault) [] ↔ listFault path fault = none := by
  simp [Opens]

theorem opens_cons_iff {path : Path} {entries : List (Name × Entry)} {fault : Option OsError}
    {name : Name} {sub : Entry} (hf : Entry.find? name entries = some sub) {l : Location} :
    Opens path (.directory entries fault) (name :: l) ↔ Opens (path.child name) sub l := by
  simp only [Opens, Entry.get?_directory_cons, hf, Option.bind_some, Path.below_cons]

/-- **Where a walk gets to.** No directory on the way has an ignored name, and all can be listed. -/
theorem reaches_iff {filter : PathFilter} {path : Path} {e e' : Entry} {l : Location}
    (he : e.WellFormed) : Reaches filter path e l e' ↔
      e.get? l = some e' ∧ Passes filter l e' ∧ ∀ m, m <+: l → m ≠ l → Opens path e m := by
  induction l generalizing path e with
  | nil => simp [reaches_nil_iff, Passes]
  | cons name l ih =>
    rw [reaches_cons_iff he, Entry.get?_cons_eq_some_iff, forall_prefix_cons_iff]
    constructor
    · rintro ⟨entries, fault, sub, rfl, hf, hp, hi, h⟩
      obtain ⟨hget, hpasses, hopens⟩ := (ih (he.of_find? hf).2).mp h
      refine ⟨⟨entries, fault, sub, rfl, hf, hget⟩, (passes_cons_iff hget).mpr ⟨hi, hpasses⟩,
        opens_nil_iff.mpr hp, fun m hm hne => (opens_cons_iff hf).mpr (hopens m hm hne)⟩
    · rintro ⟨⟨entries, fault, sub, rfl, hf, hget⟩, hpasses, hp, hopens⟩
      obtain ⟨hi, hpasses⟩ := (passes_cons_iff hget).mp hpasses
      refine ⟨entries, fault, sub, rfl, hf, opens_nil_iff.mp hp, hi, ?_⟩
      exact (ih (he.of_find? hf).2).mpr
        ⟨hget, hpasses, fun m hm hne => (opens_cons_iff hf).mp (hopens m hm hne)⟩

/-- The way to a place of a tree is open: no name of a directory on it is ignored, and all of them
can be listed. -/
structure IsOpen (filter : PathFilter) (root : Path) (e : Entry) (l : Location) : Prop where
  named : ∀ n ∈ l.dropLast, ¬ skips filter n
  opens : ∀ m, m <+: l → m ≠ l → Opens root e m

/-- There is a file at a place, and the way to it is open. -/
def HasFile (filter : PathFilter) (root : Path) (e : Entry) (l : Location) : Prop :=
  (∃ contents fault, e.get? l = some (.file contents fault)) ∧ IsOpen filter root e l

theorem meets_file_iff_hasFile {filter : PathFilter} {path p : Path} {e : Entry} {l : Location}
    (he : e.WellFormed) :
    Meets filter path e l (.file p) ↔ p = path.below l ∧ HasFile filter path e l := by
  constructor
  · intro h
    obtain ⟨e', hr, hm⟩ := h.reaches (by simp)
    obtain ⟨hl, hpasses, hopens⟩ := (reaches_iff he).mp hr
    cases hm with
    | file _ contents fault => exact ⟨rfl, ⟨contents, fault, hl⟩, hpasses.1, hopens⟩
  · rintro ⟨rfl, ⟨contents, fault, hl⟩, hopen⟩
    have hpasses : Passes filter l (.file contents fault) :=
      ⟨hopen.named, by simp [Entry.isDirectory]⟩
    exact ((reaches_iff he).mpr ⟨hl, hpasses, hopen.opens⟩).meets (.file _ contents fault)

/-! ## Walks of a file system -/

section Walked

variable (fs : FileSystem) (ignoreDirs : List String) (root : Path)

/-- Names of directories that are not entered: the built-in ones, and those given. -/
def IsIgnoredName (name : Name) : Prop :=
  String.ofList (Utf8.decodeLossy name) ∈ Filter.defaultIgnoreDirs ∨
    String.ofList (Utf8.decodeLossy name) ∈ ignoreDirs

instance (name : Name) : Decidable (IsIgnoredName ignoreDirs name) :=
  inferInstanceAs (Decidable (_ ∨ _))

/-- The way to a place is free: no directory on it has an ignored name, and each of them, the root
included, can be listed. -/
structure IsFree (l : Location) : Prop where
  named : ∀ n ∈ l.dropLast, ¬ IsIgnoredName ignoreDirs n
  listed : ∀ m, m <+: l → m ≠ l → fs.CanList (root.below m)

variable {fs ignoreDirs root}

theorem skips_new_iff {whitelist : List String} {maxFileSize : Nat} {name : Name} :
    skips (.new ignoreDirs whitelist maxFileSize) name ↔ IsIgnoredName ignoreDirs name := by
  simp [skips, PathFilter.isIgnoredDir, Filter.isIgnored, PathFilter.new, IsIgnoredName]

variable {entries : List (Name × Entry)} {fault : Option OsError} {l : Location} {e : Entry}
  (hfs : fs.root.WellFormed) (hroot : fs.status root = .ok (.directory entries fault))

include hfs hroot

theorem opens_iff (hl : (Entry.directory entries fault).get? l = some e)
    (hd : e.isDirectory) : Opens root (.directory entries fault) l ↔ fs.CanList (root.below l) := by
  cases e with
  | file contents fault' => cases hd
  | link target => cases hd
  | directory sub fault' =>
    rw [canList_below hfs hroot hl]
    simp [Opens, hl]

theorem listed_iff (hl : (Entry.directory entries fault).get? l = some e) :
    (∀ m, m <+: l → m ≠ l → Opens root (.directory entries fault) m) ↔
      ∀ m, m <+: l → m ≠ l → fs.CanList (root.below m) := by
  refine forall₃_congr fun m hm hne => ?_
  obtain ⟨t, rfl⟩ := hm
  cases t with
  | nil => exact absurd (List.append_nil m).symm hne
  | cons n t =>
    obtain ⟨sub, fault', hsub⟩ := Entry.exists_directory_of_get?_append_cons hl
    exact opens_iff hfs hroot hsub rfl

/-- A walk gets to what stands at a place if the way is free and, for a directory, its own name is
not ignored. -/
theorem reaches_new_iff (whitelist : List String) (maxFileSize : Nat) :
    Reaches (.new ignoreDirs whitelist maxFileSize) root (.directory entries fault) l e ↔
      (Entry.directory entries fault).get? l = some e ∧ IsFree fs ignoreDirs root l ∧
        (e.isDirectory → ∀ n ∈ l, ¬ IsIgnoredName ignoreDirs n) := by
  obtain ⟨-, loc, -, hget⟩ := status_eq_ok_iff.mp hroot
  rw [reaches_iff (hfs.of_get? hget).2]
  refine and_congr_right fun hl => ?_
  rw [listed_iff hfs hroot hl]
  simp only [Passes, skips_new_iff]
  exact ⟨fun h => ⟨⟨h.1.1, h.2⟩, h.1.2⟩, fun h => ⟨⟨h.1.1, h.2⟩, h.1.2⟩⟩

/-- **The files of a walk** are those that the tree has at places with an open way, in order. -/
theorem exists_filePlaces (filter : PathFilter) :
    ∃ places : List Location, Visit.files (fs.walk filter root) = places.map root.below ∧
      places.Pairwise (· < ·) ∧
      ∀ l, l ∈ places ↔ HasFile filter root (.directory entries fault) l := by
  obtain ⟨-, loc, -, hget⟩ := status_eq_ok_iff.mp hroot
  have hwf := (hfs.of_get? hget).2
  obtain ⟨met, hmet⟩ := exists_met hwf filter root
  rw [← walk_eq_walkTree hroot] at hmet
  refine ⟨placesOf (·.file?.isSome) met, ?_, hmet.pairwise_placesOf _, fun l => ?_⟩
  · exact hmet.files_eq fun l path h => ((meets_file_iff_hasFile hwf).mp h).1
  · rw [hmet.mem_placesOf]
    constructor
    · rintro ⟨v, hm, hv⟩
      obtain ⟨path, rfl⟩ := exists_of_isSome_file? hv
      exact ((meets_file_iff_hasFile hwf).mp hm).2
    · intro h
      exact ⟨_, (meets_file_iff_hasFile hwf).mpr ⟨rfl, h⟩, rfl⟩

theorem hasFile_new_iff (whitelist : List String) (maxFileSize : Nat) :
    HasFile (.new ignoreDirs whitelist maxFileSize) root (.directory entries fault) l ↔
      (∃ contents fault',
        (Entry.directory entries fault).get? l = some (.file contents fault')) ∧
      IsFree fs ignoreDirs root l := by
  refine and_congr_right fun ⟨contents, fault', hl⟩ => ?_
  have hlisted := listed_iff hfs hroot hl
  constructor
  · exact fun h => ⟨fun n hn hi => h.named n hn (skips_new_iff.mpr hi), hlisted.mp h.opens⟩
  · exact fun h => ⟨fun n hn hi => h.named n hn (skips_new_iff.mp hi), hlisted.mpr h.listed⟩

theorem meets_failed_new_iff {whitelist : List String} {maxFileSize : Nat} :
    (∃ v, Meets (.new ignoreDirs whitelist maxFileSize) root (.directory entries fault) l v ∧
        v.isFailed) ↔
      (∃ sub fault', (Entry.directory entries fault).get? l = some (.directory sub fault')) ∧
        IsFree fs ignoreDirs root l ∧ (∀ n ∈ l, ¬ IsIgnoredName ignoreDirs n) ∧
        ¬ fs.CanList (root.below l) := by
  constructor
  · rintro ⟨v, h, hv⟩
    obtain ⟨e, hr, hm⟩ := h.reaches (by rintro p rfl; cases hv)
    obtain ⟨hl, hfree, hnames⟩ := (reaches_new_iff hfs hroot _ _).mp hr
    cases hm with
    | file _ contents fault' => cases hv
    | failed sub hp =>
      refine ⟨⟨sub, _, hl⟩, hfree, hnames rfl, ?_⟩
      rw [canList_below hfs hroot hl, hp]
      simp
  · rintro ⟨⟨sub, fault', hl⟩, hfree, hnames, hlist⟩
    rw [canList_below hfs hroot hl] at hlist
    obtain ⟨e, hp⟩ := Option.ne_none_iff_exists'.mp hlist
    exact ⟨_, ((reaches_new_iff hfs hroot _ _).mpr ⟨hl, hfree, fun _ => hnames⟩).meets
      (.failed sub hp), rfl⟩

end Walked

/-- **The files of a walk, and its failures.** The files are those of the tree to which the way is
free, in the strict order of their places and each under a path of its own; the failures are the
directories to which the way is free, whose names are not ignored, and which cannot be listed. -/
theorem walk_places (fs : FileSystem) (hfs : fs.root.WellFormed) (root : Path)
    (entries : List (Name × Entry)) (fault : Option OsError)
    (hroot : fs.status root = .ok (.directory entries fault))
    (ignoreDirs whitelist : List String) (maxFileSize : Nat) :
    let visits := fs.walk (.new ignoreDirs whitelist maxFileSize) root
    (∃ places : List Location, Visit.files visits = places.map root.below ∧
      places.Pairwise (· < ·) ∧
      ∀ l, l ∈ places ↔ l ≠ [] ∧
        (∃ contents fault',
          (Entry.directory entries fault).get? l = some (.file contents fault')) ∧
        IsFree fs ignoreDirs root l) ∧
    (Visit.files visits).Nodup ∧
    ∃ places : List Location, Visit.failures visits = places.length ∧ places.Nodup ∧
      ∀ l, l ∈ places ↔
        (∃ sub fault', (Entry.directory entries fault).get? l = some (.directory sub fault')) ∧
        IsFree fs ignoreDirs root l ∧ (∀ n ∈ l, ¬ IsIgnoredName ignoreDirs n) ∧
        ¬ fs.CanList (root.below l) := by
  intro visits
  obtain ⟨-, loc, -, hget⟩ := status_eq_ok_iff.mp hroot
  have hwf := (hfs.of_get? hget).2
  obtain ⟨places, hfiles, hsorted, hplaces⟩ :=
    exists_filePlaces hfs hroot (.new ignoreDirs whitelist maxFileSize)
  have hmem : ∀ l, l ∈ places ↔ l ≠ [] ∧
      (∃ contents fault',
        (Entry.directory entries fault).get? l = some (.file contents fault')) ∧
      IsFree fs ignoreDirs root l := by
    intro l
    rw [hplaces, hasFile_new_iff hfs hroot]
    refine (and_iff_right_of_imp ?_).symm
    rintro ⟨⟨contents, fault', hl⟩, -⟩ rfl
    simp at hl
  obtain ⟨met, hmet⟩ := exists_met hwf (.new ignoreDirs whitelist maxFileSize) root
  rw [← walk_eq_walkTree hroot] at hmet
  refine ⟨⟨places, hfiles, hsorted, hmem⟩, ?_, placesOf Visit.isFailed met, ?_, ?_, ?_⟩
  · rw [hfiles]
    refine List.pairwise_map.mpr (hsorted.imp_of_mem fun {a b} ha hb hlt heq => ?_)
    obtain ⟨ha', ⟨_, _, hla⟩, -⟩ := (hmem _).mp ha
    obtain ⟨hb', ⟨_, _, hlb⟩, -⟩ := (hmem _).mp hb
    obtain rfl := (root.below_inj (hwf.of_get? hla).1 (hwf.of_get? hlb).1 ha' hb').mp heq
    exact List.lt_irrefl a hlt
  · exact (hmet.length_placesOf _).symm
  · exact hmet.nodup_placesOf _
  · intro l
    rw [hmet.mem_placesOf, meets_failed_new_iff hfs hroot]

/-! ## A tree with all that a walk tells apart -/

/-- The name with the given text. -/
def nameOf (s : String) : Name := (Path.ofString s).bytes

/-- A directory with all that a walk and a scan tell apart: files to be read, of an unlisted
extension, too large, and not to be opened, a link, an ignored directory and one that cannot be
listed. -/
def mixedEntries : List (Name × Entry) :=
  [(nameOf "b.js", .file (nameOf "/** @error */")),
    (nameOf "node_modules", .directory [(nameOf "g.js", .file [])]),
    (nameOf "a", .directory
      [(nameOf "d.js", .file (List.replicate 20 0x78)), (nameOf "c.md", .file []),
        (nameOf "e.js", .file (nameOf "/** @error */") (some .permissionDenied))]),
    (nameOf "l", .link (nameOf "b.js")),
    (nameOf "p", .directory [(nameOf "f.js", .file [])] (some .permissionDenied))]

/-- A file system with these entries in the current directory. -/
def mixedTree : FileSystem := ⟨.directory mixedEntries, []⟩

theorem status_mixedTree : mixedTree.status ⟨[Path.dot]⟩ = .ok mixedTree.root :=
  status_eq_ok_iff.mpr ⟨rfl, [], .idle rfl rfl (.done _ _), rfl⟩

theorem files_mixedTree (whitelist : List String) (maxFileSize : Nat) :
    Visit.files (mixedTree.walk (.new [] whitelist maxFileSize) ⟨[Path.dot]⟩) =
      [[nameOf "a", nameOf "c.md"], [nameOf "a", nameOf "d.js"], [nameOf "a", nameOf "e.js"],
        [nameOf "b.js"]].map (⟨[Path.dot]⟩ : Path).below := by
  have hsame : (PathFilter.new [] whitelist maxFileSize).ignoreDirs =
      (PathFilter.new [] [] 0).ignoreDirs := rfl
  rw [walk_congr hsame]
  cbv

theorem wellFormed_mixedTree : mixedTree.root.WellFormed := by
  refine .directory none (by decide +kernel) (by decide +kernel) ?_
  simp only [mixedEntries, List.forall_mem_cons, List.not_mem_nil, IsEmpty.forall_iff, implies_true,
    and_true]
  refine ⟨.file _ _, .directory _ (by decide +kernel) (by decide +kernel) ?_,
    .directory _ (by decide +kernel) (by decide +kernel) ?_, .link (by decide +kernel),
    .directory _ (by decide +kernel) (by decide +kernel) ?_⟩
  all_goals simp [Entry.WellFormed.file]

theorem walk_places_mixed :
    let root : Path := ⟨[Path.dot]⟩
    let visits := mixedTree.walk (.new [] [] 0) root
    mixedTree.root.WellFormed ∧ mixedTree.status root = .ok (.directory mixedEntries none) ∧
      (∃ places : List Location, Visit.files visits = places.map root.below ∧
        [nameOf "b.js"] ∈ places ∧ [nameOf "a", nameOf "e.js"] ∈ places ∧
        [nameOf "l"] ∉ places ∧ [nameOf "node_modules", nameOf "g.js"] ∉ places ∧
        [nameOf "p", nameOf "f.js"] ∉ places) ∧
      ∃ places : List Location, Visit.failures visits = places.length ∧
        [nameOf "p"] ∈ places ∧ [nameOf "node_modules"] ∉ places := by
  intro root visits
  obtain ⟨⟨files, hfiles, -, hmem⟩, -, failures, hfailures, -, hmem'⟩ :=
    walk_places mixedTree wellFormed_mixedTree root mixedEntries none status_mixedTree [] [] 0
  have hroot : mixedTree.CanList root := ⟨_, by rw [entriesAt, status_mixedTree]; rfl⟩
  have hopen : mixedTree.CanList (root.below [nameOf "a"]) := ⟨_, by cbv⟩
  have hclosed : ¬ mixedTree.CanList (root.below [nameOf "p"]) := by
    have hfault : mixedTree.entriesAt (root.below [nameOf "p"]) = .error .permissionDenied := by cbv
    simp [CanList, hfault]
  have hend (p : Location → Prop) : ∀ m, m <+: [] → m ≠ [] → p m :=
    fun m hm hne => absurd (List.prefix_nil.mp hm) hne
  have hignored : IsIgnoredName [] (nameOf "node_modules") := .inl (by decide +kernel)
  refine ⟨wellFormed_mixedTree, status_mixedTree, ⟨files, hfiles, ?_, ?_, ?_, ?_, ?_⟩,
    failures, hfailures, ?_, ?_⟩
  · refine (hmem _).mpr ⟨by simp, ⟨_, _, by cbv⟩, by simp, ?_⟩
    exact forall_prefix_cons_iff.mpr ⟨hroot, hend _⟩
  · refine (hmem _).mpr ⟨by simp, ⟨_, _, by cbv⟩, ?_, ?_⟩
    · exact List.forall_mem_singleton.mpr (by decide +kernel)
    · exact forall_prefix_cons_iff.mpr ⟨hroot, forall_prefix_cons_iff.mpr ⟨hopen, hend _⟩⟩
  · intro h
    obtain ⟨-, ⟨contents, fault, hl⟩, -⟩ := (hmem _).mp h
    have hlink : (Entry.directory mixedEntries).get? [nameOf "l"] =
        some (.link (nameOf "b.js")) := by cbv
    rw [hlink] at hl
    cases hl
  · intro h
    exact ((hmem _).mp h).2.2.named _ (by simp) hignored
  · intro h
    exact hclosed (((hmem _).mp h).2.2.listed _ ⟨[nameOf "f.js"], rfl⟩ (by simp))
  · refine (hmem' _).mpr ⟨⟨_, _, by cbv⟩, ⟨by simp, ?_⟩, ?_, hclosed⟩
    · exact forall_prefix_cons_iff.mpr ⟨hroot, hend _⟩
    · exact List.forall_mem_singleton.mpr (by decide +kernel)
  · intro h
    exact ((hmem' _).mp h).2.2.1 _ (by simp) hignored

end FileSystem

end ErrorDocs
