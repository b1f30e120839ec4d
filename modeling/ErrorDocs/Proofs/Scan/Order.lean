import ErrorDocs.Proofs.FileSystem.Walk
import ErrorDocs.Scan.Basic

/-!
# Files read side by side

Each of the files that are read side by side has a place of its own for what comes of it. The
order in which they are done does not matter, as long as each of them is done.

* `getElem?_foldl_put`: what stands in a place after some of the tasks have been run.
* **`runInOrder_eq_map`**: tasks run in any order give what they give one after the other.
* `outcomes_eq_map`: the files of a scan give the same, whether read side by side or not.
* `scanWalking` takes each file where the walk meets it; `scanInOrder` reads the files side by side.
* **`scan_parallel`**: all scans of a root give the same, in whatever order files are done.
-/

namespace ErrorDocs

namespace Scan

section Run

variable {α β : Type} (task : α → β) (inputs : Array α)

/-- One of the tasks is done. -/
def put (places : Array (Option β)) (i : Nat) : Array (Option β) :=
  match inputs[i]? with
  | some x => places.setIfInBounds i (some (task x))
  | none => places

theorem runInOrder_eq_foldl (order : List Nat) :
    runInOrder task inputs order =
      order.foldl (put task inputs) (Array.replicate inputs.size none) := rfl

theorem size_put (places : Array (Option β)) (i : Nat) :
    (put task inputs places i).size = places.size := by
  unfold put
  split
  · rw [Array.size_setIfInBounds]
  · rfl

theorem getElem?_put {places : Array (Option β)} (hs : places.size = inputs.size) (i j : Nat) :
    (put task inputs places i)[j]? =
      if i = j then inputs[j]?.map fun x => some (task x) else places[j]? := by
  unfold put
  split
  · rename_i x hx
    have hi : i < places.size := by
      rw [hs]
      exact (Array.getElem?_eq_some_iff.mp hx).1
    rw [Array.getElem?_setIfInBounds, if_pos hi]
    by_cases hij : i = j
    · rw [if_pos hij, if_pos hij, ← hij, hx, Option.map_some]
    · rw [if_neg hij, if_neg hij]
  · rename_i hx
    by_cases hij : i = j
    · rw [if_pos hij, ← hij, hx, Option.map_none, Array.getElem?_eq_none_iff, hs]
      exact Array.getElem?_eq_none_iff.mp hx
    · rw [if_neg hij]

theorem getElem?_foldl_put (order : List Nat) {places : Array (Option β)}
    (hs : places.size = inputs.size) (j : Nat) :
    (order.foldl (put task inputs) places)[j]? =
      if j ∈ order then inputs[j]?.map fun x => some (task x) else places[j]? := by
  induction order generalizing places with
  | nil => rfl
  | cons i order ih =>
    rw [List.foldl_cons, ih (by rw [size_put, hs]), getElem?_put task inputs hs]
    by_cases hj : j ∈ order
    · rw [if_pos hj, if_pos (List.mem_cons_of_mem i hj)]
    · simp only [hj, List.mem_cons, or_false, if_false, eq_comm]

/-- **Tasks run in any order give what they give one after the other**, once each is done. -/
theorem runInOrder_eq_map {order : List Nat} (h : ∀ i < inputs.size, i ∈ order) :
    runInOrder task inputs order = inputs.map fun x => some (task x) := by
  rw [runInOrder_eq_foldl]
  refine Array.ext_getElem? fun j => ?_
  rw [getElem?_foldl_put task inputs order Array.size_replicate, Array.getElem?_map]
  by_cases hj : j < inputs.size
  · rw [if_pos (h j hj)]
  · have hnone : inputs[j]? = none := Array.getElem?_eq_none_iff.mpr (by omega)
    rw [hnone, Option.map_none, Array.getElem?_replicate, if_neg hj, ite_self]

end Run

theorem outcomesInOrder_eq_map (fs : FileSystem) (filter : PathFilter) (paths : List Path)
    {order : List Nat} (h : ∀ i < paths.length, i ∈ order) :
    outcomesInOrder fs filter paths order = paths.map (outcome fs filter) := by
  rw [outcomesInOrder, runInOrder_eq_map _ _ h, Array.toList_map, List.filterMap_map]
  exact congrFun List.filterMap_eq_map paths

theorem outcomes_eq_map (fs : FileSystem) (options : ScanOptions) (paths : List Path) :
    outcomes fs options paths = paths.map (outcome fs options.filter) := by
  unfold outcomes
  split
  · exact outcomesInOrder_eq_map fs _ paths fun i hi => List.mem_range.mpr hi
  · rfl

/-! ## Scans -/

/-- Takes what a walk has met: a file is read at once, and what comes of it is added. -/
def recordVisit (fs : FileSystem) (filter : PathFilter) (r : ScanResult) : Visit → ScanResult
  | .file path => record r (outcome fs filter path)
  | _ => r

/-- A scan that takes each file where the walk meets it. -/
def scanWalking (fs : FileSystem) (options : ScanOptions) (root : Path) :
    Except ScanError ScanResult :=
  match checkRoot fs root with
  | .error e => .error e
  | .ok () =>
    let r := (fs.walk options.filter root).foldl (recordVisit fs options.filter) ⟨root, [], 0, 0⟩
    .ok { r with blocks := r.blocks.reverse }

/-- A scan that reads the files side by side when the walk is over. They are done in the given
order of their places. -/
def scanInOrder (fs : FileSystem) (options : ScanOptions) (root : Path) (order : List Nat) :
    Except ScanError ScanResult :=
  match checkRoot fs root with
  | .error e => .error e
  | .ok () =>
    .ok (total root
      (outcomesInOrder fs options.filter (Visit.files (fs.walk options.filter root)) order))

theorem foldl_recordVisit (fs : FileSystem) (filter : PathFilter) (visits : List Visit)
    (r : ScanResult) :
    visits.foldl (recordVisit fs filter) r =
      ((Visit.files visits).map (outcome fs filter)).foldl record r := by
  induction visits generalizing r with
  | nil => rfl
  | cons v visits ih =>
    rw [List.foldl_cons, ih]
    cases v with
    | file path => rfl
    | ignored path => rfl
    | failed path e => rfl

theorem scan_eq_scanWalking (fs : FileSystem) (options : ScanOptions) (root : Path) :
    scan fs options root = scanWalking fs options root := by
  cases hroot : checkRoot fs root with
  | error e => simp only [scan, scanWalking, hroot]
  | ok u => simp only [scan, scanWalking, hroot, outcomes_eq_map, total, foldl_recordVisit]

theorem scanInOrder_eq_scan (fs : FileSystem) (options : ScanOptions) (root : Path)
    {order : List Nat}
    (h : ∀ i < (Visit.files (fs.walk options.filter root)).length, i ∈ order) :
    scanInOrder fs options root order = scan fs options root := by
  cases hroot : checkRoot fs root with
  | error e => simp only [scan, scanInOrder, hroot]
  | ok u =>
    simp only [scan, scanInOrder, hroot, outcomes_eq_map,
      outcomesInOrder_eq_map fs options.filter _ h]

/-- **Files may be read side by side.** A scan gives the same, or fails for the same cause, whether
each file is read where the walk meets it or all are read side by side, and in whatever order they
are done then. -/
theorem scan_parallel (fs : FileSystem) (options : ScanOptions) (root : Path) :
    let sequential := scan fs { options with parallel := false } root
    sequential = scanWalking fs options root ∧
      scan fs { options with parallel := true } root = sequential ∧
      ∀ order : List Nat,
        order.Perm (List.range (Visit.files (fs.walk options.filter root)).length) →
          scanInOrder fs options root order = sequential := by
  intro sequential
  have hwalking : ∀ parallel,
      scan fs { options with parallel } root = scanWalking fs options root :=
    fun parallel => scan_eq_scanWalking fs { options with parallel } root
  refine ⟨hwalking false, (hwalking true).trans (hwalking false).symm, fun order horder => ?_⟩
  have hall : ∀ i < (Visit.files (fs.walk options.filter root)).length, i ∈ order :=
    fun i hi => horder.mem_iff.mpr (List.mem_range.mpr hi)
  rw [scanInOrder_eq_scan fs options root hall, scan_eq_scanWalking]
  exact (hwalking false).symm

theorem scan_parallel_mixed :
    [3, 1, 0, 2].Perm (List.range
        (Visit.files (FileSystem.mixedTree.walk (.new [] [".js"] 13) ⟨[Path.dot]⟩)).length) ∧
      scanInOrder FileSystem.mixedTree ⟨[], [".js"], 13, true⟩ ⟨[Path.dot]⟩ [3, 1, 0, 2] =
        scan FileSystem.mixedTree ⟨[], [".js"], 13, false⟩ ⟨[Path.dot]⟩ := by
  have horder : [3, 1, 0, 2].Perm (List.range
      (Visit.files (FileSystem.mixedTree.walk (.new [] [".js"] 13) ⟨[Path.dot]⟩)).length) := by
    rw [FileSystem.files_mixedTree]
    decide
  exact ⟨horder, (scan_parallel FileSystem.mixedTree ⟨[], [".js"], 13, true⟩ ⟨[Path.dot]⟩).2.2
    [3, 1, 0, 2] horder⟩

end Scan

end ErrorDocs
