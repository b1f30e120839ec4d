import ErrorDocs.CommandLine.Arguments
import Mathlib.Data.Option.Basic
import Mathlib.Tactic.SplitIfs

/-!
# Reading arguments one after the other

An argument is checked only when the next one comes, but the reader goes on as if it had been
checked at once. Read like that, each argument of a command's own changes the fields of the command
and nothing else: its flag, or the values that it has so far.

* `Settles`: what checking can do; **`parseCommand_settle`**: what is pending may be checked at any
  time.
* `Takes`: arguments that are read in the same way before and after the name of a command.
* `Fields`, `IsOwn`: the fields of a command and the arguments that give them.
* **`parseCommand_own`**: the reader gives these fields.
-/

namespace ErrorDocs.CommandLine

namespace State

variable {s t : State}

/-! ## Checking what is pending -/

theorem setConfig_eq_ok_iff {value : List Char} : s.setConfig value = .ok t ↔
    s.config = none ∧ value ≠ [] ∧ t = { s with config := some value } := by
  unfold setConfig refuse
  cases hconfig : s.config <;> cases value <;> simp [eq_comm]

theorem addValue_eq_ok_iff {text : List Char} : s.addValue text = .ok t ↔
    s.values.length < s.topic.valueNames.length ∧ text ≠ [] ∧
      t = { s with values := s.values ++ [text] } := by
  unfold addValue refuse
  split
  · rename_i hnone
    rw [List.getElem?_eq_none_iff] at hnone
    simp [Nat.not_lt.mpr hnone]
  · rename_i argument hsome
    have hlt := (List.getElem?_eq_some_iff.mp hsome).1
    cases text <;> simp [hlt, eq_comm]

/-- What comes of a state when what is pending is checked. -/
inductive Settles (s : State) : State → Prop
  | nothing : s.pending = none → Settles s s
  | config {value : List Char} : s.pending = some (.config (some value)) → s.config = none →
      value ≠ [] → Settles s { s with pending := none, config := some value }
  | value {text : List Char} : s.pending = some (.value text) →
      s.values.length < s.topic.valueNames.length → text ≠ [] →
      Settles s { s with pending := none, values := s.values ++ [text] }

theorem settle_eq_ok_iff : s.settle = .ok t ↔ Settles s t := by
  constructor
  · intro h
    unfold settle at h
    split at h
    · rename_i hpending
      obtain rfl := Except.ok.inj h
      exact .nothing hpending
    · cases h
    · rename_i value hpending
      obtain ⟨hconfig, hne, rfl⟩ := setConfig_eq_ok_iff.mp h
      exact .config hpending hconfig hne
    · rename_i text hpending
      obtain ⟨hroom, hne, rfl⟩ := addValue_eq_ok_iff.mp h
      exact .value hpending hroom hne
  · intro h
    unfold settle
    cases h with
    | nothing hpending => rw [hpending]
    | config hpending hconfig hne =>
      rw [hpending]
      exact setConfig_eq_ok_iff.mpr ⟨hconfig, hne, rfl⟩
    | value hpending hroom hne =>
      rw [hpending]
      exact addValue_eq_ok_iff.mpr ⟨hroom, hne, rfl⟩

theorem settle_of_pending (h : t.pending = none) : t.settle = .ok t :=
  settle_eq_ok_iff.mpr (.nothing h)

section

variable (h : s.settle = .ok t)

include h

theorem pending_of_settle : t.pending = none := by
  cases settle_eq_ok_iff.mp h with
  | nothing hpending => exact hpending
  | config => rfl
  | value => rfl

theorem topic_of_settle : t.topic = s.topic := by
  cases settle_eq_ok_iff.mp h <;> rfl

theorem onlyValues_of_settle : t.onlyValues = s.onlyValues := by
  cases settle_eq_ok_iff.mp h <;> rfl

theorem valueCount_of_settle : t.valueCount = s.valueCount := by
  cases settle_eq_ok_iff.mp h with
  | nothing => rfl
  | config hpending => simp [valueCount, hpending]
  | value hpending => simp [valueCount, hpending]

theorem awaitsValue_of_settle : s.awaitsValue = false := by
  cases settle_eq_ok_iff.mp h with
  | nothing hpending => simp [awaitsValue, hpending]
  | config hpending => simp [awaitsValue, hpending]
  | value hpending => simp [awaitsValue, hpending]

theorem settle_onlyValues :
    { s with onlyValues := true }.settle = .ok { t with onlyValues := true } := by
  refine settle_eq_ok_iff.mpr ?_
  cases settle_eq_ok_iff.mp h with
  | nothing hpending => exact .nothing hpending
  | config hpending hconfig hne => exact .config hpending hconfig hne
  | value hpending hroom hne => exact .value hpending hroom hne

/-- Whatever comes after an argument can be read as if that had been checked. -/
theorem take_of_settle {text : List Char}
    (hdashes : text ≠ ['-', '-'] ∨ s.onlyValues = true) : s.take text = t.take text := by
  have htopic := topic_of_settle h
  have ht := settle_of_pending (pending_of_settle h)
  have hconfig (attached : Option (List Char)) : s.takeConfig attached = t.takeConfig attached := by
    rw [takeConfig, takeConfig, h, ht]
  have hflag (argument : Argument) : s.takeFlag argument = t.takeFlag argument := by
    rw [takeFlag, takeFlag, h, ht]
  have hvalue : s.takeValue text = t.takeValue text := by
    rw [takeValue, takeValue, h, ht, valueCount_of_settle h, htopic]
  have hlong (long : List Char) : s.takeLong long = t.takeLong long := by
    simp only [takeLong, longFlag?, hconfig, hflag, htopic]
  have hshort (c : Char) (short : List Char) :
      s.takeShort (c :: short) = t.takeShort (c :: short) := by
    simp only [takeShort, shortFlag?, hconfig, hflag, htopic]
  unfold take
  rw [onlyValues_of_settle h, awaitsValue_of_settle h, awaitsValue_of_settle ht]
  cases hv : s.onlyValues with
  | true => exact hvalue
  | false =>
    simp only [Bool.false_eq_true, if_false]
    split
    · simp [hv] at hdashes
    · exact hlong _
    · exact hshort _ _
    · exact hvalue

end

end State

open State

/-- **What is pending may be checked at any time.** -/
theorem parseCommand_settle {s t : State} (h : s.settle = .ok t) (args : List (List Char)) :
    parseCommand s args = parseCommand t args := by
  induction args generalizing s t with
  | nil => rw [parseCommand, parseCommand, h, settle_of_pending (pending_of_settle h)]
  | cons text rest ih =>
    rw [parseCommand, parseCommand]
    by_cases hdashes : text = ['-', '-'] ∧ s.onlyValues = false
    · -- the end of the options does not check what is pending
      obtain ⟨rfl, hs⟩ := hdashes
      have ht : t.onlyValues = false := (onlyValues_of_settle h).trans hs
      simp only [take, hs, ht, Bool.false_eq_true, if_false]
      exact ih (settle_onlyValues h)
    · rw [take_of_settle h (by simpa [or_iff_not_and_not] using hdashes)]

/-! ## Arguments by their first characters -/

namespace State

variable {s : State} (hoptions : s.onlyValues = false)

include hoptions

theorem take_short {c : Char} (hc : c ≠ '-') (short : List Char) :
    s.take ('-' :: c :: short) = s.takeShort (c :: short) := by
  unfold take
  rw [hoptions]
  split
  · rename_i htext
    simp at htext
  · simp_all

theorem take_long {long : List Char} (hne : long ≠ []) :
    s.take ('-' :: '-' :: long) = s.takeLong long := by
  unfold take
  rw [hoptions]
  split
  · simp_all
  · simp_all

theorem take_plain {text : List Char} (hhead : text.head? ≠ some '-') : s.take text =
    if s.awaitsValue then .ok { s with pending := some (.config (some text)) }
    else s.takeValue text := by
  unfold take
  rw [hoptions]
  split
  · rename_i hv
    cases hv
  · split
    · exact absurd rfl hhead
    · exact absurd rfl hhead
    · exact absurd rfl hhead
    · rfl

end State

/-- Arguments that are taken one after the other, each either as the value that is waited for or as
something that starts with a dash. -/
inductive Takes : State → List (List Char) → State → Prop
  | nil {s : State} : Takes s [] s
  | cons {s s' t : State} {text : List Char} {rest : List (List Char)} :
      (s.awaitsValue = true ∨ text.head? = some '-') → s.take text = .ok s' → Takes s' rest t →
      Takes s (text :: rest) t

theorem Takes.append {r s t : State} {xs ys : List (List Char)} (hxs : Takes r xs s)
    (hys : Takes s ys t) : Takes r (xs ++ ys) t := by
  induction hxs with
  | nil => exact hys
  | cons hdash htake _ ih => exact .cons hdash htake (ih hys)

theorem parseCommand_takes {s t : State} {xs : List (List Char)} (h : Takes s xs t)
    (ys : List (List Char)) : parseCommand s (xs ++ ys) = parseCommand t ys := by
  induction h with
  | nil => rfl
  | cons _ htake _ ih => rw [List.cons_append, parseCommand, htake]; exact ih

theorem commandTopic?_of_dash {text : List Char} (h : text.head? = some '-') :
    commandTopic? text = none := by
  obtain ⟨rest, rfl⟩ := List.head?_eq_some_iff.mp h
  simp [commandTopic?]

theorem parseProgram_takes {s t : State} {xs : List (List Char)} (h : Takes s xs t)
    (ys : List (List Char)) : parseProgram s (xs ++ ys) = parseProgram t ys := by
  induction h with
  | nil => rfl
  | @cons s s' t text rest hdash htake _ ih =>
    have hname : (if s.onlyValues || s.awaitsValue then none else commandTopic? text) = none := by
      rcases hdash with hawaits | hdash
      · simp [hawaits]
      · simp [commandTopic?_of_dash hdash]
    have hargument : takeProgramArgument s text = .ok s' := by rw [takeProgramArgument, htake]
    rw [List.cons_append, parseProgram, hname]
    simp only [hargument]
    exact ih

/-! ## Own arguments -/

/-- The arguments of a command's own: its flag, and values that do not look like options. -/
inductive IsOwn (topic : Topic) : List Char → Prop
  | flag {argument : Argument} : topic.flag? = some argument → IsOwn topic argument.text.toList
  | value {text : List Char} : text ≠ [] → text.head? ≠ some '-' → IsOwn topic text

/-- The fields of a command: whether its flag has been given, and the values. -/
structure Fields where
  flag : Bool := false
  values : List (List Char) := []

/-- Adds what an own argument gives. What starts with a dash is taken for the flag. -/
def Fields.add (topic : Topic) (f : Fields) (text : List Char) : Except Stop Fields :=
  if text.head? = some '-' then
    match topic.flag? with
    | none => refuse (.unexpectedArgument text)
    | some argument =>
      if f.flag then refuse (.repeated argument) else .ok { f with flag := true }
  else if f.values.length < topic.valueNames.length then
    .ok { f with values := f.values ++ [text] }
  else refuse (.unexpectedArgument text)

/-- The fields that own arguments give. -/
def Fields.addAll (topic : Topic) (f : Fields) : List (List Char) → Except Stop Fields
  | [] => .ok f
  | text :: rest =>
    match f.add topic text with
    | .error e => .error e
    | .ok f => f.addAll topic rest

namespace State

/-- The fields that have been read. -/
def fields (s : State) : Fields :=
  ⟨s.flag, s.values⟩

/-- A state with other fields. -/
def withFields (s : State) (f : Fields) : State :=
  { s with flag := f.flag, values := f.values }

end State

theorem flag?_eq_some {topic : Topic} {argument : Argument} (h : topic.flag? = some argument) :
    (topic = .create ∧ argument = .parallel) ∨ (topic = .init ∧ argument = .force) := by
  cases topic <;> simp_all [Topic.flag?]

section Own

variable {t : State} (hpending : t.pending = none) (hoptions : t.onlyValues = false)

include hoptions in
theorem take_flag {argument : Argument} (hflag : t.topic.flag? = some argument) :
    t.take argument.text.toList = t.takeFlag argument := by
  rcases flag?_eq_some hflag with ⟨htopic, rfl⟩ | ⟨htopic, rfl⟩
  · have hword : Argument.parallel.text.toList = '-' :: '-' :: "parallel".toList := by decide
    rw [hword, take_long hoptions (by decide)]
    simp [takeLong, longFlag?, htopic, Topic.flag?, Argument.text]
  · have hword : Argument.force.text.toList = '-' :: '-' :: "force".toList := by decide
    rw [hword, take_long hoptions (by decide)]
    simp [takeLong, longFlag?, htopic, Topic.flag?, Argument.text]

include hpending in
theorem takeFlag_own {argument : Argument} (hflag : t.topic.flag? = some argument) :
    t.takeFlag argument =
      if t.flag then refuse (.repeated argument) else .ok { t with flag := true } := by
  rw [takeFlag, settle_of_pending hpending]
  rcases flag?_eq_some hflag with ⟨-, rfl⟩ | ⟨-, rfl⟩ <;> rfl

include hpending hoptions

/-- **An own argument** changes the fields, and the reader goes on from there. -/
theorem parseCommand_own_cons {text : List Char} (hown : IsOwn t.topic text)
    (rest : List (List Char)) : parseCommand t (text :: rest) =
      match t.fields.add t.topic text with
      | .error e => .error e
      | .ok f => parseCommand (t.withFields f) rest := by
  rw [parseCommand]
  cases hown with
  | @flag argument hflag =>
    have hdash : argument.text.toList.head? = some '-' := by
      rcases flag?_eq_some hflag with ⟨-, rfl⟩ | ⟨-, rfl⟩ <;> rfl
    rw [take_flag hoptions hflag, takeFlag_own hpending hflag, Fields.add, if_pos hdash, hflag]
    cases hgiven : t.flag with
    | true => simp [fields, hgiven, refuse]
    | false => simp [fields, hgiven, withFields]
  | value hne hhead =>
    have hawaits := awaitsValue_of_settle (settle_of_pending hpending)
    have hcount : t.valueCount = t.values.length := by rw [valueCount, hpending]
    rw [take_plain hoptions hhead, hawaits, takeValue, hcount, settle_of_pending hpending,
      Fields.add, if_neg hhead]
    by_cases hroom : t.values.length < t.topic.valueNames.length
    · -- the value is pending, and is checked when the next argument comes
      have hsettle : { t with pending := some (.value text) }.settle =
          .ok (t.withFields ⟨t.flag, t.values ++ [text]⟩) := by
        refine addValue_eq_ok_iff.mpr ⟨hroom, hne, ?_⟩
        simp [withFields, hpending]
      simpa [fields, hroom] using parseCommand_settle hsettle rest
    · simp [fields, hroom, refuse]

/-- **The reader gives the fields of own arguments.** -/
theorem parseCommand_own {args : List (List Char)} (hown : ∀ text ∈ args, IsOwn t.topic text) :
    parseCommand t args = (t.fields.addAll t.topic args).map t.withFields := by
  induction args generalizing t with
  | nil => exact settle_of_pending hpending
  | cons text rest ih =>
    obtain ⟨htext, hrest⟩ := List.forall_mem_cons.mp hown
    rw [parseCommand_own_cons hpending hoptions htext, Fields.addAll]
    cases t.fields.add t.topic text with
    | error e => rfl
    | ok f => exact ih (t := t.withFields f) hpending hoptions hrest

end Own

end ErrorDocs.CommandLine
