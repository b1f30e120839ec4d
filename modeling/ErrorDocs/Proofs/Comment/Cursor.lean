import ErrorDocs.Proofs.Comment.Block

/-!
# The search by byte indices

The search for comments can be run on indices into the bytes of a text. A cursor goes from the end
of one comment to the end of the next, and the text is cut at the cursor, at an opening delimiter,
behind it, and behind a closing one. A text can be cut only between two characters, so that a cut
at a wrong index would bring the search down. None of its cuts does.

* `cutAt?_eq_some_iff`: the indices at which a text can be cut.
* `round?_append`: one round of the search, in terms of the text behind the cursor.
* **`searchAt_eq_findFrom`**: the search goes through and finds the comments of the text.
-/

namespace ErrorDocs.Comment

/-! ## Cuts -/

/-- A text cut at a byte index, which has to lie between two characters or at an end. -/
def cutAt? : List Char → Nat → Option (List Char × List Char)
  | text, 0 => some ([], text)
  | [], _ + 1 => none
  | c :: text, n + 1 =>
    if c.utf8Size ≤ n + 1 then
      (cutAt? text (n + 1 - c.utf8Size)).map fun cut => (c :: cut.1, cut.2)
    else none

/-- What stands between two byte indices. -/
def slice? (text : List Char) (start stop : Nat) : Option (List Char) :=
  match cutAt? text stop with
  | none => none
  | some (before, _) => (cutAt? before start).map (·.2)

/-- The byte index at which a pattern is found first. -/
def indexOf? (pat text : List Char) : Option Nat :=
  (Text.breakOn? pat text).map fun p => extent Char.utf8Size p.1

theorem cutAt?_append (before after : List Char) :
    cutAt? (before ++ after) (extent Char.utf8Size before) = some (before, after) := by
  induction before with
  | nil => simp [cutAt?]
  | cons c before ih =>
    obtain ⟨n, hn⟩ := Nat.exists_eq_add_one.mpr c.utf8Size_pos
    have hsize : extent Char.utf8Size (c :: before) = n + extent Char.utf8Size before + 1 := by
      rw [extent_cons, hn]
      omega
    rw [hsize, List.cons_append, cutAt?, if_pos (by omega)]
    have hrest : n + extent Char.utf8Size before + 1 - c.utf8Size =
        extent Char.utf8Size before := by omega
    rw [hrest, ih, Option.map_some]

/-- **A text can be cut where characters meet**, and only there. -/
theorem cutAt?_eq_some_iff {text before after : List Char} {n : Nat} :
    cutAt? text n = some (before, after) ↔
      text = before ++ after ∧ extent Char.utf8Size before = n := by
  constructor
  · intro h
    induction text, n using cutAt?.induct generalizing before with
    | case1 text =>
      rw [cutAt?, Option.some.injEq, Prod.mk.injEq] at h
      obtain ⟨rfl, rfl⟩ := h
      exact ⟨rfl, rfl⟩
    | case2 n => cases h
    | case3 c text n hc ih =>
      rw [cutAt?, if_pos hc] at h
      obtain ⟨cut, hcut, hpair⟩ := Option.map_eq_some_iff.mp h
      obtain ⟨rfl, rfl⟩ := Prod.mk.inj hpair
      obtain ⟨htext, hsize⟩ := ih hcut
      refine ⟨by rw [htext, List.cons_append], ?_⟩
      rw [extent_cons, hsize]
      omega
    | case4 c text n hc =>
      rw [cutAt?, if_neg hc] at h
      cases h
  · rintro ⟨rfl, rfl⟩
    exact cutAt?_append before after

theorem slice?_append (before raw after : List Char) :
    slice? (before ++ raw ++ after) (extent Char.utf8Size before)
      (extent Char.utf8Size (before ++ raw)) = some raw := by
  rw [slice?, cutAt?_append]
  dsimp only
  rw [cutAt?_append, Option.map_some]

theorem le_extent_of_slice? {text raw : List Char} {start stop : Nat}
    (h : slice? text start stop = some raw) : stop ≤ extent Char.utf8Size text := by
  unfold slice? at h
  split at h
  · cases h
  · rename_i hcut
    obtain ⟨rfl, rfl⟩ := cutAt?_eq_some_iff.mp hcut
    rw [extent_append]
    omega

/-! ## Rounds -/

/-- What comes of a round: there is no comment any more, or there is one, and the next round starts
from another index. -/
inductive Round where
  | over
  | found (block : Block Char) (next : Nat)

/-- One round of the search from a byte index. There is no answer if the text cannot be cut. -/
def round? (text : List Char) (cursor : Nat) : Option Round :=
  match cutAt? text cursor with
  | none => none
  | some (_, rest) =>
    match indexOf? opening rest with
    | none => some .over
    | some gap =>
      let start := cursor + gap
      let bodyStart := start + extent Char.utf8Size opening
      match cutAt? text bodyStart with
      | none => none
      | some (_, body) =>
        match indexOf? closing body with
        | none => some .over
        | some inner =>
          let stop := bodyStart + inner + extent Char.utf8Size closing
          match slice? text start stop with
          | none => none
          | some raw => some (.found ⟨start, raw⟩ stop)

/-- The cursor goes forward, and not past the end of the text. -/
theorem lt_of_round? {text : List Char} {cursor next : Nat} {b : Block Char}
    (h : round? text cursor = some (.found b next)) :
    cursor < next ∧ next ≤ extent Char.utf8Size text := by
  unfold round? at h
  split at h
  · cases h
  split at h
  · cases h
  dsimp only at h
  split at h
  · cases h
  split at h
  · cases h
  split at h
  · cases h
  rename_i hslice
  obtain ⟨-, rfl⟩ := Round.found.inj (Option.some.inj h)
  have hsize : extent Char.utf8Size opening = 3 := rfl
  exact ⟨by omega, le_extent_of_slice? hslice⟩

/-- The search from a byte index, with the comments found so far, last first. -/
def searchAt (text : List Char) (cursor : Nat) (found : List (Block Char)) :
    Option (List (Block Char)) :=
  match h : round? text cursor with
  | none => none
  | some .over => some found.reverse
  | some (.found b next) =>
    have := lt_of_round? h
    searchAt text next (b :: found)
termination_by extent Char.utf8Size text - cursor

/-- What comes of a round, given what the text behind the cursor has next. -/
def roundOf (before : List Char) : Option (List Char × List Char × List Char) → Round
  | none => .over
  | some (gap, inner, _) =>
    .found ⟨extent Char.utf8Size (before ++ gap), opening ++ inner ++ closing⟩
      (extent Char.utf8Size (before ++ gap ++ (opening ++ inner ++ closing)))

/-- **A round never cuts at a wrong index**, and finds the next comment of the text. -/
theorem round?_append (before rest : List Char) :
    round? (before ++ rest) (extent Char.utf8Size before) =
      some (roundOf before (nextBlock? delimiters rest)) := by
  rw [nextBlock?_eq_bind]
  show _ = some (roundOf before ((Text.breakOn? opening rest).bind fun p =>
    (Text.breakOn? closing p.2).map fun q => (p.1, q.1, q.2)))
  unfold round? indexOf?
  rw [cutAt?_append]
  dsimp only
  cases hopen : Text.breakOn? opening rest with
  | none => rfl
  | some p =>
    obtain ⟨gap, body⟩ := p
    obtain rfl := Text.eq_append_of_breakOn? hopen
    have hbody : cutAt? (before ++ (gap ++ opening ++ body)) (extent Char.utf8Size before +
        extent Char.utf8Size gap + extent Char.utf8Size opening) =
          some (before ++ gap ++ opening, body) :=
      cutAt?_eq_some_iff.mpr ⟨by simp, by simp [Nat.add_assoc]⟩
    dsimp only [Option.map_some, Option.bind_some]
    rw [hbody]
    dsimp only
    cases hclose : Text.breakOn? closing body with
    | none => rfl
    | some q =>
      obtain ⟨inner, after⟩ := q
      obtain rfl := Text.eq_append_of_breakOn? hclose
      have hraw := slice?_append (before ++ gap) (opening ++ inner ++ closing) after
      simp only [extent_append, List.append_assoc] at hraw
      simp only [Option.map_some, roundOf, extent_append, List.append_assoc, Nat.add_assoc, hraw]

/-! ## The whole search -/

theorem searchAt_of_over {text : List Char} {cursor : Nat} (h : round? text cursor = some .over)
    (found : List (Block Char)) : searchAt text cursor found = some found.reverse := by
  rw [searchAt]
  split <;> simp_all

theorem searchAt_of_found {text : List Char} {cursor next : Nat} {b : Block Char}
    (h : round? text cursor = some (.found b next)) (found : List (Block Char)) :
    searchAt text cursor found = searchAt text next (b :: found) := by
  rw [searchAt]
  split <;> simp_all

/-- **The search by indices goes through**, and it finds what the search of the text finds. -/
theorem searchAt_eq_findFrom (before rest : List Char) (found : List (Block Char)) :
    searchAt (before ++ rest) (extent Char.utf8Size before) found =
      some (findFrom Char.utf8Size delimiters (extent Char.utf8Size before) found rest) := by
  induction rest using blockInduction delimiters generalizing before found with
  | none rest hnext =>
    have hround := round?_append before rest
    rw [hnext] at hround
    rw [searchAt_of_over hround, findFrom_of_none hnext]
  | some rest gap inner after hnext ih =>
    have hround := round?_append before rest
    rw [hnext] at hround
    rw [searchAt_of_found hround, findFrom_of_some hnext]
    have hafter := ih (before ++ gap ++ (opening ++ inner ++ closing))
      (⟨extent Char.utf8Size (before ++ gap), opening ++ inner ++ closing⟩ :: found)
    have htext : before ++ rest = before ++ gap ++ (opening ++ inner ++ closing) ++ after := by
      rw [eq_append_of_nextBlock? hnext]
      simp [delimiters]
    rw [← htext] at hafter
    rw [hafter]
    simp [delimiters]

end ErrorDocs.Comment
