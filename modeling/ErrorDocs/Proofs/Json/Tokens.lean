import ErrorDocs.Json.Reader
import Mathlib.Data.List.Basic

/-!
# The tokens of a value

A value is written with one sequence of tokens, whatever stands between them. Reading these tokens
gives the value back, except that the members of an object come out in the order of their names,
the last of each name.

* `jsonInduction`: a property of all values, shown from the parts of a container to it.
* `tokens`: the tokens that a value is written with.
* `settled`: the value with its members in order.
* **`build?_tokens`**: the tokens of a value are read as the settled value.
-/

namespace ErrorDocs.Json

/-- A property of every value: the parts of a container have it before the container does. -/
@[elab_as_elim]
theorem jsonInduction {motive : Json → Prop} (null : motive .null) (bool : ∀ b, motive (.bool b))
    (number : ∀ n, motive (.number n)) (string : ∀ s, motive (.string s))
    (array : ∀ items, (∀ v ∈ items, motive v) → motive (.array items))
    (object : ∀ members, (∀ x ∈ members, motive x.2) → motive (.object members)) :
    ∀ v, motive v
  | .null => null
  | .bool b => bool b
  | .number n => number n
  | .string s => string s
  | .array items => array items fun v _ => jsonInduction null bool number string array object v
  | .object members =>
    object members fun x _ => jsonInduction null bool number string array object x.2
termination_by v => sizeOf v
decreasing_by
  · rename_i hv
    have h := List.sizeOf_lt_of_mem hv
    rw [Json.array.sizeOf_spec]
    omega
  · rename_i hx
    have h1 := List.sizeOf_lt_of_mem hx
    have h2 : sizeOf x = 1 + sizeOf x.1 + sizeOf x.2 := rfl
    rw [Json.object.sizeOf_spec]
    omega

/-! ## Tokens -/

mutual

/-- The tokens of a value. -/
def tokens : Json → List Token
  | .null => [.null]
  | .bool b => [.boolean b]
  | .number n => [.number n.render (some n)]
  | .string s => [.string s.toList]
  | .array items =>
    .openBracket :: (List.intercalate [.comma] (itemTokens items) ++ [.closeBracket])
  | .object members =>
    .openBrace :: (List.intercalate [.comma] (memberTokens members) ++ [.closeBrace])

/-- The tokens of the items of an array. -/
def itemTokens : List Json → List (List Token)
  | [] => []
  | v :: rest => tokens v :: itemTokens rest

/-- The tokens of the members of an object. -/
def memberTokens : List (String × Json) → List (List Token)
  | [] => []
  | (name, v) :: rest => (.string name.toList :: .colon :: tokens v) :: memberTokens rest

end

theorem itemTokens_eq_map (items : List Json) : itemTokens items = items.map tokens := by
  induction items with
  | nil => rw [itemTokens, List.map_nil]
  | cons v items ih => rw [itemTokens, ih, List.map_cons]

theorem memberTokens_eq_map (members : List (String × Json)) :
    memberTokens members =
      members.map fun x => .string x.1.toList :: .colon :: tokens x.2 := by
  induction members with
  | nil => rw [memberTokens, List.map_nil]
  | cons x members ih => rw [memberTokens, ih, List.map_cons]

/-! ## Settled values -/

/-- Puts members among others, one after the other. -/
def insertMembers (done new : List (String × Json)) : List (String × Json) :=
  new.foldl (fun members x => insertMember x.1 x.2 members) done

mutual

/-- A value in which the members of each object are in the order of their names. -/
def settled : Json → Json
  | .null => .null
  | .bool b => .bool b
  | .number n => .number n
  | .string s => .string s
  | .array items => .array (settledItems items)
  | .object members => .object (insertMembers [] (settledMembers members))

/-- The items of an array, settled. -/
def settledItems : List Json → List Json
  | [] => []
  | v :: rest => settled v :: settledItems rest

/-- The members of an object with their values settled. -/
def settledMembers : List (String × Json) → List (String × Json)
  | [] => []
  | (name, v) :: rest => (name, settled v) :: settledMembers rest

end

theorem settledItems_eq_map (items : List Json) : settledItems items = items.map settled := by
  induction items with
  | nil => rw [settledItems, List.map_nil]
  | cons v items ih => rw [settledItems, ih, List.map_cons]

theorem settledMembers_eq_map (members : List (String × Json)) :
    settledMembers members = members.map fun x => (x.1, settled x.2) := by
  induction members with
  | nil => rw [settledMembers, List.map_nil]
  | cons x members ih => rw [settledMembers, ih, List.map_cons]

/-! ## Reading the tokens -/

/-- What comes of the tokens that are left when a value has just been completed. -/
def buildAfter (v : Json) (stack : List Frame) (ts : List Token) : Option Json :=
  buildFrom (deliver v stack).1 (deliver v stack).2 ts

variable {stack : List Frame} {ts : List Token}

/-- The machine hands over `v.settled` once it has taken the tokens of `v`. -/
def Builds (v : Json) : Prop :=
  ∀ stack ts, buildFrom stack .value (tokens v ++ ts) = buildAfter v.settled stack ts

/-- Where an array may end at once, a value may start all the same. -/
theorem buildFrom_firstItem (v : Json) (parts : List (List Token)) :
    buildFrom stack .firstItem (List.intercalate [.comma] (tokens v :: parts) ++ ts) =
      buildFrom stack .value (List.intercalate [.comma] (tokens v :: parts) ++ ts) := by
  have hstart (ts : List Token) :
      buildFrom stack .firstItem (tokens v ++ ts) = buildFrom stack .value (tokens v ++ ts) := by
    cases v <;> simp [tokens, buildFrom, buildStep]
  cases parts with
  | nil => rw [List.intercalate_singleton, hstart]
  | cons part parts =>
    rw [List.intercalate_cons_cons, List.append_assoc, List.append_assoc, hstart]

/-- Where an object may end at once, a name may come all the same. -/
theorem buildFrom_firstName (s : List Char) (part : List Token) (parts : List (List Token)) :
    buildFrom stack .firstName (List.intercalate [.comma] ((.string s :: part) :: parts) ++ ts) =
      buildFrom stack .name (List.intercalate [.comma] ((.string s :: part) :: parts) ++ ts) := by
  cases parts with
  | nil => simp [buildFrom, buildStep]
  | cons part' parts => simp [buildFrom, buildStep]

theorem buildFrom_items {v : Json} {items : List Json} (h : ∀ w ∈ v :: items, Builds w)
    (done : List Json) :
    buildFrom (.items done :: stack) .value
        (List.intercalate [.comma] (tokens v :: items.map tokens) ++ .closeBracket :: ts) =
      buildAfter (.array (done.reverse ++ (v :: items).map settled)) stack ts := by
  induction items generalizing v done with
  | nil =>
    rw [List.map_nil, List.intercalate_singleton, h v List.mem_cons_self]
    simp [buildAfter, deliver, buildFrom, buildStep, endContainer]
  | cons w items ih =>
    rw [List.forall_mem_cons] at h
    rw [List.map_cons, List.intercalate_cons_cons, List.append_assoc, List.append_assoc, h.1]
    have hrest := ih h.2 (v.settled :: done)
    simpa [buildAfter, deliver, buildFrom, buildStep] using hrest

theorem buildFrom_member {v : Json} (h : Builds v) (name : String) (done : List (String × Json)) :
    buildFrom (.members done :: stack) .name (.string name.toList :: .colon :: (tokens v ++ ts)) =
      buildFrom (.members (insertMember name v.settled done) :: stack) .after ts := by
  have hvalue := h (.member done name :: stack) ts
  simpa [buildFrom, buildStep, beginMember, buildAfter, deliver] using hvalue

theorem buildFrom_members {x : String × Json} {members : List (String × Json)}
    (h : ∀ y ∈ x :: members, Builds y.2) (done : List (String × Json)) :
    buildFrom (.members done :: stack) .name
        (List.intercalate [.comma]
          ((x :: members).map fun y => .string y.1.toList :: .colon :: tokens y.2) ++
          .closeBrace :: ts) =
      buildAfter (.object (insertMembers done ((x :: members).map fun y => (y.1, y.2.settled))))
        stack ts := by
  induction members generalizing x done with
  | nil =>
    rw [List.map_singleton, List.intercalate_singleton, List.cons_append, List.cons_append,
      buildFrom_member (h x List.mem_cons_self)]
    simp [buildFrom, buildStep, endContainer, buildAfter, insertMembers]
  | cons y members ih =>
    rw [List.forall_mem_cons] at h
    have hrest := ih h.2 (insertMember x.1 x.2.settled done)
    rw [List.map_cons, List.map_cons, List.intercalate_cons_cons, List.append_assoc,
      List.append_assoc, List.cons_append, List.cons_append, buildFrom_member h.1]
    simpa [buildFrom, buildStep, insertMembers] using hrest

theorem builds (v : Json) : Builds v := by
  intro stack ts
  -- for every stack, since the parts of a container are read on top of it
  induction v using jsonInduction generalizing stack ts with
  | null => rfl
  | bool b => rfl
  | number n => rfl
  | string s => simp [tokens, buildFrom, buildStep, beginValue, scalar?, settled, buildAfter]
  | array items ih =>
    rw [tokens, itemTokens_eq_map, settled, settledItems_eq_map]
    cases items with
    | nil => simp [buildFrom, buildStep, beginValue, endContainer, buildAfter]
    | cons v items =>
      have hitems := @buildFrom_items stack ts v items ih []
      rw [← buildFrom_firstItem, List.reverse_nil, List.nil_append] at hitems
      simpa [buildFrom, buildStep, beginValue] using hitems
  | object members ih =>
    rw [tokens, memberTokens_eq_map, settled, settledMembers_eq_map]
    cases members with
    | nil => simp [buildFrom, buildStep, beginValue, endContainer, buildAfter, insertMembers]
    | cons x members =>
      have hmembers := @buildFrom_members stack ts x members ih []
      rw [List.map_cons, ← buildFrom_firstName] at hmembers
      simpa [buildFrom, buildStep, beginValue] using hmembers

/-- **The tokens of a value are read as the settled value.** -/
theorem build?_tokens (v : Json) : build? (tokens v) = some v.settled := by
  have h := builds v [] []
  rw [List.append_nil] at h
  exact h

end ErrorDocs.Json
