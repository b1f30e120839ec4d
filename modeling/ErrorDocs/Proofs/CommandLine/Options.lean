import ErrorDocs.Proofs.CommandLine.Arguments

/-!
# Options on either side of a command's name

The configuration file and the verbosity may be given before the name of a command or anywhere among
its own arguments, and say the same there. Reading an option changes what is known of the
configuration file and the verbosity, reading an own argument the fields of the command, and neither
looks at what the other changes.

* `GlobalOptions`: the arguments that write options, with what they ask for.
* **`exists_takes`**: what reading them does.
* **`parseCommand_own_options`**: options among own arguments; **`parse_options`**: options on both
  sides of the name.
* **`parse_options_anywhere`**: options on either side of the name.
-/

namespace ErrorDocs.CommandLine

open State

/-! ## What options ask for -/

/-- The name of a configuration file that can be told from an option and from what may stand
between an option and its value. -/
structure IsFileName (file : String) : Prop where
  ne_nil : file.toList ≠ []
  head : ∀ c ∈ file.toList.head?, c ≠ '-' ∧ c ≠ '='

/-- The short ways to write the configuration option, and whether they ask for verbosity, too. -/
def shortOptions : List (String × Bool) :=
  [("-c", false), ("-vc", true)]

/-- All ways to write the configuration option. -/
def configOptions : List (String × Bool) :=
  shortOptions ++ [("--config", false)]

/-- The arguments that write one option, with the configuration file and the verbosity that it asks
for. -/
inductive GlobalOption : List String → Option String → Bool → Prop
  | short : GlobalOption ["-v"] none true
  | long : GlobalOption ["--verbose"] none true
  | separate {option file : String} {verbose : Bool} (hoption : (option, verbose) ∈ configOptions)
      (hfile : IsFileName file) : GlobalOption [option, file] (some file) verbose
  | equals {option file : String} {verbose : Bool} (hoption : (option, verbose) ∈ configOptions)
      (hfile : IsFileName file) : GlobalOption [option ++ "=" ++ file] (some file) verbose
  | attached {option file : String} {verbose : Bool} (hoption : (option, verbose) ∈ shortOptions)
      (hfile : IsFileName file) : GlobalOption [option ++ file] (some file) verbose

/-- Arguments that write options, of which at most one names a configuration file and at most one
asks for verbosity. -/
inductive GlobalOptions : List String → Option String → Bool → Prop
  | nil : GlobalOptions [] none false
  | cons {first rest : List String} {config config' : Option String} {verbose verbose' : Bool} :
      GlobalOption first config verbose → GlobalOptions rest config' verbose' →
      (config = none ∨ config' = none) → (verbose = false ∨ verbose' = false) →
      GlobalOptions (first ++ rest) (config.or config') (verbose || verbose')

/-! ## Reading options -/

namespace State

/-- A state after options that ask for the given configuration file and verbosity. -/
def withOptions (s : State) (config : Option String) (verbose : Bool) : State :=
  { s with
    config := s.config.or (config.map String.toList)
    verbose := s.verbose || verbose }

/-- A state in which the given options have not been met yet. -/
structure Lacks (s : State) (config : Option String) (verbose : Bool) : Prop where
  config : config = none ∨ s.config = none
  verbose : verbose = false ∨ s.verbose = false

theorem withOptions_none (t : State) : t.withOptions none false = t := by
  simp [withOptions]

theorem withOptions_withOptions (t : State) (config config' : Option String)
    (verbose verbose' : Bool) : (t.withOptions config verbose).withOptions config' verbose' =
      t.withOptions (config.or config') (verbose || verbose') := by
  cases config <;> simp [withOptions, Bool.or_assoc]

end State

section Option

variable {s t : State} {option file : String} {verbose : Bool} (h : s.settle = .ok t)
  (hoptions : s.onlyValues = false)

theorem head?_option : ∀ option ∈ configOptions, option.1.toList.head? = some '-' := by
  decide

theorem attachedShort_of_isFileName (hfile : IsFileName file) :
    attachedShort file.toList = some file.toList := by
  obtain ⟨c, rest, hcons⟩ := List.exists_cons_of_ne_nil hfile.ne_nil
  have hc := (hfile.head c (by rw [hcons]; rfl)).2
  unfold attachedShort
  rw [hcons]
  split
  · rename_i hnil
    cases hnil
  · rename_i hequals
    exact absurd (List.cons.inj hequals).1 hc
  · rfl

section

include hoptions

theorem take_verbose_short : s.take "-v".toList = s.takeFlag .verbose := by
  have hword : "-v".toList = ['-', 'v'] := by decide
  rw [hword, take_short hoptions (by decide)]
  cases htake : s.takeFlag .verbose <;> simp [takeShort, shortFlag?, htake]

theorem take_verbose_long : s.take "--verbose".toList = s.takeFlag .verbose := by
  have hword : "--verbose".toList = '-' :: '-' :: "verbose".toList := by decide
  rw [hword, take_long hoptions (by decide)]
  simp [takeLong, longFlag?]

theorem take_config : s.take "--config".toList = s.takeConfig none := by
  have hword : "--config".toList = '-' :: '-' :: "config".toList := by decide
  rw [hword, take_long hoptions (by decide)]
  simp [takeLong]

theorem take_config_equals (value : List Char) :
    s.take ("--config".toList ++ '=' :: value) = s.takeConfig (some value) := by
  have hword : "--config".toList = '-' :: '-' :: "config".toList := by decide
  rw [hword, List.cons_append, List.cons_append, take_long hoptions (by simp)]
  simp [takeLong]

end

include h

theorem takeFlag_verbose (hverbose : t.verbose = false) :
    s.takeFlag .verbose = .ok (t.withOptions none true) := by
  rw [takeFlag, h]
  simp [hverbose, withOptions]

/-- The option for verbosity. -/
theorem exists_takes_verbose {word : List Char} (hdash : word.head? = some '-')
    (htake : s.take word = s.takeFlag .verbose) (hverbose : t.verbose = false) :
    ∃ s', Takes s [word] s' ∧ s'.settle = .ok (t.withOptions none true) := by
  have hpending : t.pending = none := pending_of_settle h
  have hflag := htake.trans (takeFlag_verbose h hverbose)
  exact ⟨_, .cons (.inr hdash) hflag .nil, settle_of_pending hpending⟩

/-- The value of the configuration option in one with it. -/
theorem exists_takes_attached {r : State} {word : List Char} (hdash : word.head? = some '-')
    (htake : r.take word = s.takeConfig (some file.toList)) (hconfig : t.config = none)
    (hfile : IsFileName file) :
    ∃ r', Takes r [word] r' ∧ r'.settle = .ok (t.withOptions (some file) false) := by
  have hpending : t.pending = none := pending_of_settle h
  have hset : s.takeConfig (some file.toList) = .ok (t.withOptions (some file) false) := by
    rw [takeConfig, h]
    refine setConfig_eq_ok_iff.mpr ⟨hconfig, hfile.ne_nil, ?_⟩
    simp [withOptions, hconfig]
  exact ⟨_, .cons (.inr hdash) (htake.trans hset) .nil, settle_of_pending hpending⟩

/-- The value of the configuration option as an argument of its own. -/
theorem exists_takes_separate {r : State} {word : List Char} (hdash : word.head? = some '-')
    (htake : r.take word = s.takeConfig none) (hoptions : t.onlyValues = false)
    (hconfig : t.config = none) (hfile : IsFileName file) :
    ∃ r', Takes r [word, file.toList] r' ∧
      r'.settle = .ok (t.withOptions (some file) false) := by
  have hhead : file.toList.head? ≠ some '-' := fun hc => (hfile.head _ hc).1 rfl
  have hwaits : s.takeConfig none = .ok { t with pending := some (.config none) } := by
    rw [takeConfig, h]
  have hvalue := (take_plain (s := { t with pending := some (.config none) }) hoptions hhead).trans
    (if_pos rfl)
  refine ⟨_, .cons (.inr hdash) (htake.trans hwaits) (.cons (.inl rfl) hvalue .nil), ?_⟩
  refine setConfig_eq_ok_iff.mpr ⟨hconfig, hfile.ne_nil, ?_⟩
  simp [withOptions, hconfig, pending_of_settle h]

include hoptions

/-- A short configuration option, alone or behind the one for verbosity. -/
theorem exists_take_short (hoption : (option, verbose) ∈ shortOptions)
    (hverbose : verbose = false ∨ t.verbose = false) :
    ∃ s' : State, s'.settle = .ok (t.withOptions none verbose) ∧
      ∀ rest, s.take (option.toList ++ rest) = s'.takeConfig (attachedShort rest) := by
  simp only [shortOptions, List.mem_cons, Prod.mk.injEq, List.not_mem_nil, or_false] at hoption
  rcases hoption with ⟨rfl, rfl⟩ | ⟨rfl, rfl⟩
  · have hword : "-c".toList = ['-', 'c'] := by decide
    refine ⟨s, by rw [withOptions_none, h], fun rest => ?_⟩
    rw [hword, List.cons_append, List.cons_append, take_short hoptions (by decide)]
    rfl
  · have hword : "-vc".toList = ['-', 'v', 'c'] := by decide
    have hpending : t.pending = none := pending_of_settle h
    have hflag := takeFlag_verbose h (by simpa using hverbose)
    refine ⟨t.withOptions none true, settle_of_pending hpending, fun rest => ?_⟩
    rw [hword, List.cons_append, List.cons_append, take_short hoptions (by decide)]
    simp [takeShort, shortFlag?, hflag]

/-- A configuration option in front of its value or of an equals sign. -/
theorem exists_take_option (hoption : (option, verbose) ∈ configOptions)
    (hverbose : verbose = false ∨ t.verbose = false) :
    ∃ s' : State, s'.settle = .ok (t.withOptions none verbose) ∧
      s.take option.toList = s'.takeConfig none ∧
      ∀ value, s.take (option.toList ++ '=' :: value) = s'.takeConfig (some value) := by
  rcases List.mem_append.mp hoption with hshort | hlong
  · obtain ⟨s', hs', htake⟩ := exists_take_short h hoptions hshort hverbose
    refine ⟨s', hs', ?_, fun value => htake ('=' :: value)⟩
    rw [← List.append_nil option.toList, htake]
    rfl
  · obtain ⟨rfl, rfl⟩ := Prod.mk.inj (List.mem_singleton.mp hlong)
    exact ⟨s, by rw [withOptions_none, h], take_config hoptions, take_config_equals hoptions⟩

/-- **Reading an option** gives a state that asks for what the option asks for. -/
theorem exists_takes_option {args : List String} {config : Option String}
    (hargs : GlobalOption args config verbose) (hlacks : t.Lacks config verbose) :
    ∃ s', Takes s (args.map String.toList) s' ∧
      s'.settle = .ok (t.withOptions config verbose) := by
  have hunset (hasked : config ≠ none) : (t.withOptions none verbose).config = none := by
    simpa [withOptions] using hlacks.config.resolve_left hasked
  have htwice : (t.withOptions none verbose).withOptions config false =
      t.withOptions config verbose := by
    rw [withOptions_withOptions, Option.none_or, Bool.or_false]
  cases hargs with
  | short =>
    have hverbose : t.verbose = false := by simpa using hlacks.verbose
    exact exists_takes_verbose h rfl (take_verbose_short hoptions) hverbose
  | long =>
    have hverbose : t.verbose = false := by simpa using hlacks.verbose
    exact exists_takes_verbose h rfl (take_verbose_long hoptions) hverbose
  | separate hoption hfile =>
    obtain ⟨s₁, hs₁, htake, -⟩ := exists_take_option h hoptions hoption hlacks.verbose
    have hoptions₁ : t.onlyValues = false := (onlyValues_of_settle h).trans hoptions
    rw [← htwice]
    refine exists_takes_separate hs₁ (head?_option _ hoption) htake hoptions₁ ?_ hfile
    exact hunset (by simp)
  | @equals option file _ hoption hfile =>
    obtain ⟨s₁, hs₁, -, htake⟩ := exists_take_option h hoptions hoption hlacks.verbose
    have hword : (option ++ "=" ++ file).toList = option.toList ++ '=' :: file.toList := by simp
    rw [← htwice, List.map_singleton, hword]
    refine exists_takes_attached hs₁ ?_ (htake file.toList) (hunset (by simp)) hfile
    rw [List.head?_append, head?_option _ hoption]
    rfl
  | @attached option file _ hoption hfile =>
    obtain ⟨s₁, hs₁, htake⟩ := exists_take_short h hoptions hoption hlacks.verbose
    rw [← htwice, List.map_singleton, String.toList_append]
    refine exists_takes_attached hs₁ ?_ ?_ (hunset (by simp)) hfile
    · rw [List.head?_append, head?_option _ (List.mem_append_left _ hoption)]
      rfl
    · rw [htake, attachedShort_of_isFileName hfile]

end Option

/-- **Reading options** one after the other. -/
theorem exists_takes {s t : State} {args : List String} {config : Option String} {verbose : Bool}
    (hargs : GlobalOptions args config verbose) (h : s.settle = .ok t)
    (hoptions : s.onlyValues = false) (hlacks : t.Lacks config verbose) :
    ∃ s', Takes s (args.map String.toList) s' ∧
      s'.settle = .ok (t.withOptions config verbose) := by
  induction hargs generalizing s t with
  | nil => exact ⟨s, .nil, by rw [withOptions_none, h]⟩
  | @cons first rest config config' verbose verbose' hfirst _ hconfig hverbose ih =>
    have hlacksFirst : t.Lacks config verbose := by
      refine ⟨hlacks.config.imp_left fun hnone => ?_, hlacks.verbose.imp_left fun hfalse => ?_⟩
      · exact (Option.or_eq_none_iff.mp hnone).1
      · exact (Bool.or_eq_false_iff.mp hfalse).1
    obtain ⟨s₁, htakes, hs₁⟩ := exists_takes_option h hoptions hfirst hlacksFirst
    have hoptions₁ : s₁.onlyValues = false := by
      rw [← onlyValues_of_settle hs₁]
      exact (onlyValues_of_settle h).trans hoptions
    have hlacksRest : (t.withOptions config verbose).Lacks config' verbose' := by
      constructor
      · rcases hconfig with rfl | rfl
        · simpa [withOptions] using hlacks.config
        · exact .inl rfl
      · rcases hverbose with rfl | rfl
        · simpa [withOptions] using hlacks.verbose
        · exact .inl rfl
    obtain ⟨s₂, htakes', hs₂⟩ := ih hs₁ hoptions₁ hlacksRest
    rw [withOptions_withOptions] at hs₂
    exact ⟨s₂, by rw [List.map_append]; exact htakes.append htakes', hs₂⟩

/-! ## Options among own arguments -/

/-- **Options among own arguments** leave the fields as they are. -/
theorem parseCommand_own_options {t : State} (hpending : t.pending = none)
    (hoptions : t.onlyValues = false) {before after : List (List Char)} {args : List String}
    {config : Option String} {verbose : Bool} (hargs : GlobalOptions args config verbose)
    (hown : ∀ text ∈ before ++ after, IsOwn t.topic text) (hlacks : t.Lacks config verbose) :
    parseCommand t (before ++ (args.map String.toList ++ after)) =
      (t.fields.addAll t.topic (before ++ after)).map
        (t.withOptions config verbose).withFields := by
  induction before generalizing t with
  | nil =>
    obtain ⟨s', htakes, hs'⟩ :=
      exists_takes hargs (settle_of_pending hpending) hoptions hlacks
    rw [List.nil_append, parseCommand_takes htakes, parseCommand_settle hs']
    exact parseCommand_own (t := t.withOptions config verbose) hpending hoptions hown
  | cons text rest ih =>
    obtain ⟨htext, hrest⟩ := List.forall_mem_cons.mp hown
    rw [List.cons_append, parseCommand_own_cons hpending hoptions htext, List.cons_append,
      Fields.addAll]
    cases t.fields.add t.topic text with
    | error e => rfl
    | ok f => exact ih (t := t.withFields f) hpending hoptions hrest ⟨hlacks.config, hlacks.verbose⟩

/-! ## The whole command line -/

/-- The commands that do something, by name. -/
def commandNames : List (String × Topic) :=
  [("create", .create), ("scan", .scan), ("init", .init)]

/-- The name of a command. -/
def Command.name : Command → String
  | .create .. => "create"
  | .scan _ => "scan"
  | .init _ => "init"

/-- The command that fields make. -/
def Fields.command (topic : Topic) (f : Fields) : Command :=
  commandOf { topic, flag := f.flag, values := f.values }

section Whole

variable {name : String} {topic : Topic} (hname : (name, topic) ∈ commandNames)

include hname

theorem commandTopic?_name : commandTopic? name.toList = some topic ∧ topic ≠ .help := by
  simp only [commandNames, List.mem_cons, Prod.mk.injEq, List.not_mem_nil, or_false] at hname
  rcases hname with ⟨rfl, rfl⟩ | ⟨rfl, rfl⟩ | ⟨rfl, rfl⟩ <;> decide

theorem name_command (f : Fields) : (f.command topic).name = name := by
  simp only [commandNames, List.mem_cons, Prod.mk.injEq, List.not_mem_nil, or_false] at hname
  rcases hname with ⟨rfl, rfl⟩ | ⟨rfl, rfl⟩ | ⟨rfl, rfl⟩ <;> rfl

/-- The name of a command ends the arguments of the program, whatever is pending. -/
theorem parseProgram_name {s t : State} (h : s.settle = .ok t) (hoptions : t.onlyValues = false)
    (rest : List (List Char)) :
    parseProgram s (name.toList :: rest) = .ok (s, topic, rest) := by
  obtain ⟨hnamed, hhelp⟩ := commandTopic?_name hname
  have hvalues : s.onlyValues = false := (onlyValues_of_settle h).symm.trans hoptions
  rw [parseProgram, hvalues, awaitsValue_of_settle h, hnamed]
  cases topic with
  | help => exact absurd rfl hhelp
  | program | create | scan | init => rfl

/-- **Options on both sides of a command's name**: what stands behind the name wins. -/
theorem parse_options {outer inner before after : List String} {config config' : Option String}
    {verbose verbose' : Bool} (houter : GlobalOptions outer config verbose)
    (hinner : GlobalOptions inner config' verbose')
    (hown : ∀ text ∈ before ++ after, IsOwn topic text.toList) :
    parse (outer ++ name :: (before ++ inner ++ after)) =
      (Fields.addAll topic {} ((before ++ after).map String.toList)).map fun f =>
        ⟨config'.or config, verbose' || verbose, f.command topic⟩ := by
  obtain ⟨s, htakes, hs⟩ := exists_takes (s := { topic := .program }) houter
    (settle_of_pending rfl) rfl ⟨.inr rfl, .inr rfl⟩
  have hown' : ∀ text ∈ before.map String.toList ++ after.map String.toList, IsOwn topic text := by
    rw [← List.map_append]
    exact List.forall_mem_map.mpr hown
  have hcommand : parseCommand { topic }
      (before.map String.toList ++ (inner.map String.toList ++ after.map String.toList)) =
        (Fields.addAll topic {} ((before ++ after).map String.toList)).map
          (withOptions { topic } config' verbose').withFields := by
    rw [List.map_append]
    exact parseCommand_own_options rfl rfl hinner hown' ⟨.inr rfl, .inr rfl⟩
  rw [parse, List.map_append, List.map_cons, List.map_append, List.map_append, List.append_assoc,
    parseProgram_takes htakes, parseProgram_name hname hs rfl]
  dsimp only
  rw [hcommand]
  cases Fields.addAll topic {} ((before ++ after).map String.toList) with
  | error e => rfl
  | ok f =>
    simp only [Except.map, hs]
    cases config <;> cases config' <;> simp [withOptions, withFields, Fields.command, commandOf]

end Whole

/-- **Options say the same on either side of a command's name.** If own arguments of a command parse
alone, they also parse with options before its name, and with the options at any place among them.
Both give the configuration file and the verbosity that the options ask for, and the command that
the own arguments give alone. -/
theorem parse_options_anywhere {name : String} {topic : Topic}
    (hname : (name, topic) ∈ commandNames) {before after options : List String}
    {config : Option String} {verbose : Bool} {cli : Cli}
    (hown : ∀ text ∈ before ++ after, IsOwn topic text.toList)
    (hparse : parse (name :: (before ++ after)) = .ok cli)
    (hoptions : GlobalOptions options config verbose) :
    (cli.config = none ∧ cli.verbose = false ∧ cli.command.name = name) ∧
      parse (options ++ [name] ++ (before ++ after)) = .ok ⟨config, verbose, cli.command⟩ ∧
      parse ([name] ++ before ++ options ++ after) = .ok ⟨config, verbose, cli.command⟩ := by
  have halone := parse_options hname .nil .nil hown
  have houter := parse_options hname hoptions .nil hown
  have hinner := parse_options hname .nil hoptions hown
  rw [List.append_nil] at halone houter
  rw [List.nil_append, hparse] at halone
  cases hfields : Fields.addAll topic {} ((before ++ after).map String.toList) with
  | error e => rw [hfields] at halone; cases halone
  | ok f =>
    rw [hfields] at halone houter hinner
    obtain rfl := Except.ok.inj halone
    refine ⟨⟨rfl, rfl, name_command hname f⟩, ?_, ?_⟩
    · rw [List.append_assoc, List.singleton_append]
      exact houter
    · rw [Option.or_none, Bool.or_false, List.nil_append] at hinner
      rw [List.append_assoc, List.append_assoc, List.singleton_append, ← List.append_assoc before]
      exact hinner

/-- A configuration file and a source directory that are called like commands. -/
theorem parse_options_anywhere_named :
    (∀ text ∈ ["scan"] ++ ["--parallel", "out"], IsOwn .create text.toList) ∧
      parse ["create", "scan", "--parallel", "out"] =
        .ok ⟨none, false, .create (some "scan") (some "out") true⟩ ∧
      GlobalOptions ["-c", "init", "--verbose"] (some "init") true ∧
      parse ["-c", "init", "--verbose", "create", "scan", "--parallel", "out"] =
        .ok ⟨some "init", true, .create (some "scan") (some "out") true⟩ ∧
      parse ["create", "scan", "-c", "init", "--verbose", "--parallel", "out"] =
        .ok ⟨some "init", true, .create (some "scan") (some "out") true⟩ := by
  have hown : ∀ text ∈ ["scan"] ++ ["--parallel", "out"], IsOwn .create text.toList := by
    simp only [List.singleton_append, List.forall_mem_cons]
    have hflag : IsOwn .create Argument.parallel.text.toList := .flag rfl
    exact ⟨.value (by decide) (by decide), hflag, .value (by decide) (by decide), by simp⟩
  have hparse : parse ["create", "scan", "--parallel", "out"] =
      .ok ⟨none, false, .create (some "scan") (some "out") true⟩ := by rfl
  have hoptions : GlobalOptions ["-c", "init", "--verbose"] (some "init") true :=
    .cons (.separate (by decide) ⟨by decide, by simp⟩) (.cons .long .nil (.inl rfl) (.inr rfl))
      (.inr rfl) (.inl rfl)
  obtain ⟨-, houter, hinner⟩ := parse_options_anywhere (by decide) hown hparse hoptions
  exact ⟨hown, hparse, hoptions, houter, hinner⟩

end ErrorDocs.CommandLine
