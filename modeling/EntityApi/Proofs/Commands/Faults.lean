import EntityApi.Proofs.Commands
import EntityApi.Proofs.Number.WholeNumerals

/-! # Which faults of a command are told

Whatever goes wrong while a schema is printed or exported ends the run with code 1 and
one message: a registry that cannot be read, entities that make no interface, a report
that cannot be written, a place that is taken (`Fault`). The settings come before all
of that, and are not covered. So a fault escapes just if the limit on pages is set to
something other than a whole number (`told_iff_wholeLimit`). -/
namespace EntityApi.CommandLine

/-! ## Settings -/

/-- The limit on pages is not set, or its text is that of a whole number. -/
def WholeLimit (env : Environment) : Prop :=
  ∀ s, env.lookup "AUTOGQL_MAX_LIMIT" = some s → ∃ n, Numeral.Whole s.toList n

/-- The directory of the registry: a name on the command line that is not empty goes before that of
the environment. -/
def registryOf (i : Invocation) (env : Environment) : String :=
  (i.registry.filter (!·.isEmpty)).getD ((env.lookup "AUTOGQL_REGISTRY").getD "registry")

variable {i : Invocation} {env : Environment} {settings : Settings} {f : Failure}

theorem wholeLimit_iff : WholeLimit env ↔ ReadableLimit env := by
  unfold WholeLimit ReadableLimit
  simp only [Numeral.readInteger_eq_ok_iff]

theorem exists_settingsOf (h : WholeLimit env) : ∃ settings, settingsOf i env = .ok settings := by
  obtain ⟨settings, hsettings⟩ := exists_settings (wholeLimit_iff.mp h)
  unfold settingsOf
  rw [hsettings, Result.ok_bind]
  split
  · exact ⟨_, rfl⟩
  · exact ⟨_, rfl⟩

theorem registryDir_of_fromEnvironment (h : Settings.fromEnvironment env = .ok settings) :
    settings.registryDir = (env.lookup "AUTOGQL_REGISTRY").getD "registry" := by
  obtain ⟨limit, _, h⟩ := Result.bind_eq_ok.mp h
  cases h
  rfl

theorem registryDir_of_settingsOf (h : settingsOf i env = .ok settings) :
    settings.registryDir = registryOf i env := by
  obtain ⟨general, hgeneral, h⟩ := Result.bind_eq_ok.mp h
  unfold registryOf
  split at h
  · rename_i root hroot
    cases h
    rw [hroot]
    rfl
  · rename_i hroot
    cases h
    rw [hroot]
    exact registryDir_of_fromEnvironment hgeneral

theorem settingsOf_of_readLimit_eq_error {s : String} (hs : env.lookup "AUTOGQL_MAX_LIMIT" = some s)
    (hlimit : Settings.readLimit s = .error f) : settingsOf i env = .error f := by
  unfold settingsOf Settings.fromEnvironment
  dsimp only
  rw [hs, Option.getD_some, hlimit]
  rfl

/-- A limit that is no whole number is complained of when the settings are read. -/
theorem settingsOf_of_not_wholeLimit (h : ¬WholeLimit env) :
    ∃ text, settingsOf i env = .error (.accident .badValue text) := by
  unfold WholeLimit at h
  push Not at h
  obtain ⟨s, hs, hnone⟩ := h
  have hlimit : ∃ text, Settings.readLimit s = .error (.accident .badValue text) := by
    unfold Settings.readLimit
    split
    · rename_i n hn
      exact absurd (Numeral.readInteger_eq_ok_iff.mp hn) (hnone n)
    · exact ⟨_, rfl⟩
    · exact ⟨_, rfl⟩
  obtain ⟨text, hlimit⟩ := hlimit
  exact ⟨text, settingsOf_of_readLimit_eq_error hs hlimit⟩

/-! ## Faults -/

/-- The command prints or writes the interface, and serves nothing. -/
inductive Offline : Command → Prop
  | sdl : Offline .sdl
  | exportFiles (out : String) : Offline (.exportFiles out)

/-- The interface of a registry. -/
def offered (tree : FileTree) (root : String) : Result (Api MemoryStore) := do
  Api.build (← Registry.read tree root) offlineSupply [] [] .null

/-- What can be wrong with an offline command. A cause counts only where none of those above it
does. -/
inductive Fault (around : Surroundings) (root : String) (command : Command) : Failure → Prop
  | registry {f : Failure} (h : Registry.read around.tree root = .error f) :
      Fault around root command f
  | interface {es : List Entity} {f : Failure} (hread : Registry.read around.tree root = .ok es)
      (h : Api.Refused es offlineSupply [] f) : Fault around root command f
  | report {api : Api MemoryStore} {f : Failure} (hoffered : offered around.tree root = .ok api)
      (h : around.journal.record api.builtEvent = .error f) : Fault around root command f
  | output {api : Api MemoryStore} {later : Log.Journal} {out : String} {f : Failure}
      (hoffered : offered around.tree root = .ok api)
      (hreported : around.journal.record api.builtEvent = .ok later)
      (hcommand : command = .exportFiles out)
      (h : Export.Refused around.tree (Path.ofText out) f) : Fault around root command f

variable {around : Surroundings} {root : String} {command : Command}

theorem offered_eq_error {tree : FileTree} : offered tree root = .error f ↔
    Registry.read tree root = .error f ∨
      ∃ es, Registry.read tree root = .ok es ∧ Api.Refused es offlineSupply [] f := by
  unfold offered
  simp only [Result.bind_eq_error, Api.build_eq_error]

/-- Whatever is done with the interface of a registry is refused if there is none, if it cannot be
reported, or else in its own right. -/
theorem run_offlineApi_bind_eq_error {α : Type} {session : Session FileTree}
    (k : Api MemoryStore → Step FileTree α) :
    (Step.run (offlineApi settings >>= k) session).1 = .error f ↔
      offered session.store settings.registryDir = .error f ∨
      ∃ api, offered session.store settings.registryDir = .ok api ∧
        (session.journal.record api.builtEvent = .error f ∨
        ∃ later, session.journal.record api.builtEvent = .ok later ∧
          (Step.run (k api) { session with journal := later }).1 = .error f) := by
  unfold offlineApi offered Registry.read
  simp only [bind_assoc, pure_bind, Step.run_look_bind_eq_error, Step.run_ofResult_bind_eq_error,
    Step.run_log_bind_eq_error]
  cases Registry.load session.store settings.registryDir with
  | error e => simp [bind, Except.bind]
  | ok registry =>
    simp only [Result.ok_bind, Except.ok.injEq, exists_eq_left', reduceCtorEq, false_or]
    rfl

theorem fault_iff : Fault around root command f ↔ offered around.tree root = .error f ∨
    ∃ api, offered around.tree root = .ok api ∧
      (around.journal.record api.builtEvent = .error f ∨
      ∃ later, around.journal.record api.builtEvent = .ok later ∧
      ∃ out, command = .exportFiles out ∧ Export.Refused around.tree (Path.ofText out) f) := by
  rw [offered_eq_error]
  constructor
  · rintro (h | ⟨hread, h⟩ | ⟨hoffered, h⟩ | ⟨hoffered, hreported, hcommand, h⟩)
    · exact .inl (.inl h)
    · exact .inl (.inr ⟨_, hread, h⟩)
    · exact .inr ⟨_, hoffered, .inl h⟩
    · exact .inr ⟨_, hoffered, .inr ⟨_, hreported, _, hcommand, h⟩⟩
  · rintro ((h | ⟨_, hread, h⟩) | ⟨_, hoffered, h | ⟨_, hreported, _, hcommand, h⟩⟩)
    · exact .registry h
    · exact .interface hread h
    · exact .report hoffered h
    · exact .output hoffered hreported hcommand h

/-- A command is refused for just its faults. -/
theorem run_carryOut_eq_error (h : Offline command) :
    (Step.run (carryOut settings command) ⟨around.tree, around.journal⟩).1 = .error f ↔
      Fault around settings.registryDir command f := by
  rw [fault_iff]
  -- the commands differ only in what they do after the report, and printing cannot be refused
  cases h with
  | sdl =>
    unfold carryOut
    simp only [run_offlineApi_bind_eq_error, Step.run_pure, reduceCtorEq, false_and, and_false,
      exists_false]
  | exportFiles out =>
    unfold carryOut
    simp only [run_offlineApi_bind_eq_error]
    simp only [Step.run_bind_eq_error, Export.run_write_eq_error, Step.run_pure, reduceCtorEq,
      and_false, exists_false, or_false, Command.exportFiles.injEq, exists_eq_left']

/-! ## Reports -/

/-- The report tells whether something is wrong with the command, and what it is. -/
inductive Told (around : Surroundings) (root : String) (command : Command) (r : Report) : Prop
  | done (hnone : ∀ f, ¬Fault around root command f) (hcode : r.code = 0) (herrors : r.errors = "") :
      Told around root command r
  | refused {f : Failure} (hfault : Fault around root command f)
      (hsole : ∀ g, Fault around root command g → g = f) (hcode : r.code = 1)
      (houtput : r.output = "") (herrors : r.errors = "Error: " ++ f.message ++ "\n") :
      Told around root command r

theorem told_reportOf (h : Offline command) : Told around settings.registryDir command
    (reportOf (Step.run (carryOut settings command) ⟨around.tree, around.journal⟩)) := by
  have hfault : ∀ f, Fault around settings.registryDir command f ↔
      (Step.run (carryOut settings command) ⟨around.tree, around.journal⟩).1 = .error f :=
    fun f => (run_carryOut_eq_error h).symm
  rcases hrun : Step.run (carryOut settings command) ⟨around.tree, around.journal⟩ with ⟨f | p, session⟩
  · rw [hrun] at hfault
    exact .refused ((hfault f).mpr rfl) (fun g hg => (Except.error.inj ((hfault g).mp hg)).symm)
      rfl rfl rfl
  · rw [hrun] at hfault
    refine .done (fun f hf => ?_) rfl rfl
    cases (hfault f).mp hf

/-- **Faults are told just if the limit on pages makes sense.** Whatever the registry, the files and
the environment hold, a command that prints or exports the interface reports the one fault there is
with code 1 and a line of errors, or code 0 and no errors where there is none, provided that the limit
is not set or is a whole number. Any other limit ends the run without a report, whatever else is wrong
or right. -/
theorem told_iff_wholeLimit {arguments : List String} {i : Invocation} {around : Surroundings}
    (harguments : Invocation.ofArguments arguments = .ok i) (hoffline : Offline i.command) :
    ((∃ r, run arguments around = .ok (.report r) ∧
      Told around (registryOf i around.environment) i.command r) ↔
        WholeLimit around.environment) ∧
    (¬WholeLimit around.environment →
      ∃ text, run arguments around = .error (.accident .badValue text)) := by
  have hescapes : ¬WholeLimit around.environment →
      ∃ text, run arguments around = .error (.accident .badValue text) := by
    intro hlimit
    obtain ⟨text, hsettings⟩ := settingsOf_of_not_wholeLimit (i := i) hlimit
    exact ⟨text, run_of_settings_eq_error harguments hsettings⟩
  refine ⟨⟨?_, fun hlimit => ?_⟩, hescapes⟩
  · rintro ⟨r, hr, -⟩
    by_contra hlimit
    obtain ⟨text, htext⟩ := hescapes hlimit
    cases hr.symm.trans htext
  · obtain ⟨settings, hsettings⟩ := exists_settingsOf (i := i) hlimit
    refine ⟨_, run_of_settings harguments hsettings, ?_⟩
    rw [← registryDir_of_settingsOf hsettings]
    exact told_reportOf hoffline

/-- A missing registry is told of, under a limit with a sign, an underscore and blanks around it. -/
theorem told_iff_wholeLimit_of_missing_registry :
    let around : Surroundings := { environment := [("AUTOGQL_MAX_LIMIT", " +1_000 ")] }
    Invocation.ofArguments ["sdl"] = .ok ⟨none, .sdl⟩ ∧ Offline .sdl ∧
    WholeLimit around.environment ∧
    ∃ r, run ["sdl"] around = .ok (.report r) ∧ r.code = 1 ∧ r.output = "" ∧
      r.errors = "Error: Registry directory not found: registry\n" := by
  intro around
  have hlimit : WholeLimit around.environment := by
    intro s hs
    cases hs
    have hzero : Text.digitValue? '0' = some 0 := by decide
    have hone : Text.digitValue? '1' = some 1 := by decide
    have hdigits : Numeral.Grouped ['1', '_', '0', '0', '0'] [1, 0, 0, 0] :=
      .apart hone (.next hzero (.next hzero (.last hzero)))
    exact ⟨1000, [' '], '+' :: _, [' '], by decide, .plus hdigits (by decide),
      List.forall_mem_singleton.mpr rfl, List.forall_mem_singleton.mpr rfl⟩
  obtain ⟨r, hrun, htold⟩ := (told_iff_wholeLimit ofArguments_sdl .sdl).1.mpr hlimit
  have hread : Registry.read around.tree "registry" = .error (.outage (.noRegistry "registry")) := by
    have hnone : around.tree.isDirectory (Path.ofText "registry") = false := by decide +kernel
    rw [Registry.read_eq, hnone]
    rfl
  have hmissing : Fault around "registry" .sdl (.outage (.noRegistry "registry")) := .registry hread
  have hroot : registryOf ⟨none, .sdl⟩ around.environment = "registry" := rfl
  rw [hroot] at htold
  refine ⟨ofArguments_sdl, .sdl, hlimit, r, hrun, ?_⟩
  cases htold with
  | done hnone => exact absurd hmissing (hnone _)
  | refused _ hsole hcode houtput herrors =>
    rw [← hsole _ hmissing] at herrors
    exact ⟨hcode, houtput, herrors⟩

/-- A limit in words ends even a run that would succeed without it. -/
theorem limit_in_words_escapes :
    let users : Value := .map [(.text "entities", .map [(.text "User", .map
      [(.text "attributes", .map [(.text "name", .text "STRING")])])])]
    let within (env : Environment) : Surroundings :=
      { environment := env, tree := { files := [(["registry", "users.yaml"], .document users)] } }
    Invocation.ofArguments ["sdl"] = .ok ⟨none, .sdl⟩ ∧
    exitCode? (run ["sdl"] (within [])) = some 0 ∧
    run ["sdl"] (within [("AUTOGQL_MAX_LIMIT", "many")]) =
      .error (.accident .badValue "invalid literal for int() with base 10: 'many'") := by
  intro users within
  have hlimit : Settings.readLimit "many" =
      .error (.accident .badValue "invalid literal for int() with base 10: 'many'") := by
    decide +kernel
  refine ⟨ofArguments_sdl, by decide +kernel, ?_⟩
  exact run_of_settings_eq_error ofArguments_sdl (settingsOf_of_readLimit_eq_error rfl hlimit)

end EntityApi.CommandLine
