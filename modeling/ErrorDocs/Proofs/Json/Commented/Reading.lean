import ErrorDocs.Proofs.Json.Commented.Lexing
import ErrorDocs.Proofs.Json.RoundTrip

/-!
# JSON in the commented dialect

The reader of the dialect accepts what the reader of JSON accepts, and gives the same value. Both
hold the open containers on a stack, and take the same steps as long as the second does not fail.

* `Matches`: the states of the two readers that belong together.
* `Matches.readStep`, `Matches.readFrom`: one token, and all that are left.
* **`read_of_spells`**: a JSON text has its value in the dialect, too.
* `read_compact`: a value is read back from what is written.
-/

namespace ErrorDocs.Json.Commented

/-- A container without the place it starts at. -/
def Frame.unlocated : Frame → Json.Frame
  | .items _ done => .items done
  | .members _ done => .members done
  | .member _ done name => .member done name

/-- A stack and a phase of the reader of JSON, and the state that the reader of the dialect is in
then. -/
inductive Matches : List Json.Frame → Json.Phase → State → Prop where
  | start : Matches [] .value ⟨[], .start⟩
  | value (stack : List Frame) : Matches (stack.map Frame.unlocated) .value ⟨stack, .value⟩
  | item (start : Nat) (done : List Json) (stack : List Frame) :
      Matches (.items done :: stack.map Frame.unlocated) .value ⟨.items start done :: stack, .item⟩
  | firstItem (start : Nat) (done : List Json) (stack : List Frame) :
      Matches (.items done :: stack.map Frame.unlocated) .firstItem
        ⟨.items start done :: stack, .item⟩
  | firstName (start : Nat) (done : List (String × Json)) (stack : List Frame) :
      Matches (.members done :: stack.map Frame.unlocated) .firstName
        ⟨.members start done :: stack, .name⟩
  | name (start : Nat) (done : List (String × Json)) (stack : List Frame) :
      Matches (.members done :: stack.map Frame.unlocated) .name
        ⟨.members start done :: stack, .name⟩
  | colon (stack : List Frame) : Matches (stack.map Frame.unlocated) .colon ⟨stack, .colon⟩
  | afterItem (start : Nat) (done : List Json) (stack : List Frame) :
      Matches (.items done :: stack.map Frame.unlocated) .after
        ⟨.items start done :: stack, .afterItem⟩
  | afterMember (start : Nat) (done : List (String × Json)) (stack : List Frame) :
      Matches (.members done :: stack.map Frame.unlocated) .after
        ⟨.members start done :: stack, .afterMember⟩
  | finished (v : Json) : Matches [] (.finished v) ⟨[], .finished v⟩

theorem matches_deliver (v : Json) (stack : List Frame) :
    Matches (Json.deliver v (stack.map Frame.unlocated)).1
      (Json.deliver v (stack.map Frame.unlocated)).2 (deliver v stack) := by
  cases stack with
  | nil => exact .finished v
  | cons f stack =>
    cases f with
    | items start done => exact .afterItem start (v :: done) stack
    | members start done => exact .afterMember start done stack
    | member start done name => exact .afterMember start (insertMember name v done) stack

variable {stack : List Frame} {t : Located} {frames' : List Json.Frame} {phase' : Json.Phase}

/-- Where a value may start. -/
theorem matches_beginValue (stack : List Frame)
    (h : Json.beginValue (stack.map Frame.unlocated) t.token = some (frames', phase')) :
    ∃ s', beginValue stack t = .ok s' ∧ Matches frames' phase' s' := by
  have hscalar {v : Json}
      (h : some (Json.deliver v (stack.map Frame.unlocated)) = some (frames', phase')) :
      Matches frames' phase' (deliver v stack) := by
    have hmatches := matches_deliver v stack
    rwa [Option.some.inj h] at hmatches
  obtain ⟨position, token⟩ := t
  cases token with
  | openBracket =>
    obtain ⟨rfl, rfl⟩ := Prod.mk.inj (Option.some.inj h)
    exact ⟨_, rfl, .firstItem position [] stack⟩
  | openBrace =>
    obtain ⟨rfl, rfl⟩ := Prod.mk.inj (Option.some.inj h)
    exact ⟨_, rfl, .firstName position [] stack⟩
  | string s => exact ⟨_, rfl, hscalar h⟩
  | number text value =>
    cases value with
    | none => cases h
    | some n => exact ⟨_, rfl, hscalar h⟩
  | boolean b => exact ⟨_, rfl, hscalar h⟩
  | null => exact ⟨_, rfl, hscalar h⟩
  | closeBracket => cases h
  | closeBrace => cases h
  | comma => cases h
  | colon => cases h
  | word w => cases h

/-- Where an item may start that is not the end of the array. -/
theorem takeItem_of_beginValue (stack : List Frame)
    (h : Json.beginValue (stack.map Frame.unlocated) t.token = some (frames', phase')) :
    takeItem stack t = beginValue stack t := by
  unfold takeItem
  split
  · rename_i heq
    rw [heq] at h
    cases h
  · rfl

theorem matches_endArray (start : Nat) {done : List Json}
    (h : endContainer (.items done :: stack.map Frame.unlocated) t.token =
      some (frames', phase')) :
    ∃ s', takeItem (.items start done :: stack) t = .ok s' ∧ Matches frames' phase' s' := by
  have hmatches := matches_deliver (.array done.reverse) stack
  obtain ⟨position, token⟩ := t
  cases token with
  | closeBracket =>
    rw [Option.some.inj h] at hmatches
    exact ⟨_, rfl, hmatches⟩
  | _ => cases h

theorem matches_endObject (start : Nat) {done : List (String × Json)}
    (h : endContainer (.members done :: stack.map Frame.unlocated) t.token =
      some (frames', phase')) :
    ∃ s', takeName (.members start done :: stack) t = .ok s' ∧ Matches frames' phase' s' := by
  have hmatches := matches_deliver (.object done) stack
  obtain ⟨position, token⟩ := t
  cases token with
  | closeBrace =>
    rw [Option.some.inj h] at hmatches
    exact ⟨_, rfl, hmatches⟩
  | _ => cases h

theorem matches_beginMember {start : Nat} {done : List (String × Json)}
    (h : beginMember (.members done :: stack.map Frame.unlocated) t.token =
      some (frames', phase')) :
    ∃ s', takeName (.members start done :: stack) t = .ok s' ∧ Matches frames' phase' s' := by
  obtain ⟨position, token⟩ := t
  cases token with
  | string s =>
    obtain ⟨rfl, rfl⟩ := Prod.mk.inj (Option.some.inj h)
    exact ⟨_, rfl, .colon (.member start done (String.ofList s) :: stack)⟩
  | _ => cases h

/-- **A token that the reader of JSON takes, the reader of the dialect takes, too.** -/
theorem Matches.readStep {frames : List Json.Frame} {phase : Json.Phase} {s : State}
    (h : Matches frames phase s) (hstep : buildStep frames phase t.token = some (frames', phase')) :
    ∃ s', readStep s t = .ok s' ∧ Matches frames' phase' s' := by
  cases h with
  | start => exact matches_beginValue [] hstep
  | value stack => exact matches_beginValue stack hstep
  | item start done stack =>
    have hvalue := matches_beginValue (.items start done :: stack) hstep
    rwa [← takeItem_of_beginValue (.items start done :: stack) hstep] at hvalue
  | firstItem start done stack =>
    rw [buildStep] at hstep
    split_ifs at hstep with ht
    · exact matches_endArray start hstep
    · have hvalue := matches_beginValue (.items start done :: stack) hstep
      rwa [← takeItem_of_beginValue (.items start done :: stack) hstep] at hvalue
  | firstName start done stack =>
    rw [buildStep] at hstep
    split_ifs at hstep with ht
    · exact matches_endObject start hstep
    · exact matches_beginMember hstep
  | name start done stack => exact matches_beginMember hstep
  | colon stack =>
    rw [buildStep] at hstep
    split_ifs at hstep with ht
    obtain ⟨rfl, rfl⟩ := Prod.mk.inj (Option.some.inj hstep)
    exact ⟨_, if_pos ht, .value stack⟩
  | afterItem start done stack =>
    rw [buildStep] at hstep
    split_ifs at hstep with ht
    · obtain ⟨rfl, rfl⟩ := Prod.mk.inj (Option.some.inj hstep)
      exact ⟨_, if_pos ht, .item start done stack⟩
    · obtain ⟨s', hs', hmatches⟩ := matches_endArray start hstep
      exact ⟨s', (if_neg ht).trans hs', hmatches⟩
  | afterMember start done stack =>
    rw [buildStep] at hstep
    split_ifs at hstep with ht
    · obtain ⟨rfl, rfl⟩ := Prod.mk.inj (Option.some.inj hstep)
      exact ⟨_, if_pos ht, .name start done stack⟩
    · obtain ⟨s', hs', hmatches⟩ := matches_endObject start hstep
      exact ⟨s', (if_neg ht).trans hs', hmatches⟩
  | finished v => cases hstep

/-- What the reader of JSON makes of the tokens that are left, the reader of the dialect makes of
them, too. -/
theorem Matches.readFrom {frames : List Json.Frame} {phase : Json.Phase} {s : State}
    (h : Matches frames phase s) {ts : List Located} {v : Json}
    (hbuild : buildFrom frames phase (ts.map (·.token)) = some v) (length : Nat) :
    readFrom length none s ts = .ok (some v) := by
  induction ts generalizing frames phase s with
  | nil =>
    cases h with
    | finished w =>
      obtain rfl := Option.some.inj hbuild
      rfl
    | _ => cases hbuild
  | cons t ts ih =>
    rw [List.map_cons, buildFrom] at hbuild
    split at hbuild
    · cases hbuild
    · rename_i hstep
      obtain ⟨s', hs', hmatches⟩ := h.readStep hstep
      rw [Commented.readFrom, hs']
      exact ih hmatches hbuild

/-- **A JSON text has its value in the dialect.** -/
theorem read_of_spells {s : List Char} {ts : List Token} {v : Json} (h : Spells s ts)
    (hbuild : build? ts = some v) : read s = .ok (some v) := by
  obtain ⟨htokens, htrouble⟩ := tokens_scan_of_spells h
  rw [read, htrouble]
  exact Matches.start.readFrom (by rw [htokens]; exact hbuild) _

theorem read_compact {v : Json} (h : v.Plain) : read (compact v) = .ok (some v.settled) :=
  read_of_spells h.spells_compact (build?_tokens v)

end ErrorDocs.Json.Commented
