import EntityApi.CommandLine
import EntityApi.Proofs.Export
import EntityApi.Proofs.Registry.Layouts

/-! # Printing and exporting

Both commands take the same interface off the same registry, and everything that
can be wrong with that comes to light before anything is written
(`run_offlineApi`). So they fail together and in the same words, and where they
succeed the one prints what the other writes. -/
namespace EntityApi.CommandLine

/-! ## Arguments and settings -/

theorem ofArguments_sdl : Invocation.ofArguments ["sdl"] = .ok ⟨none, .sdl⟩ := by
  decide +kernel

/-- The limit on pages is not set, or is a whole number. -/
def ReadableLimit (env : Environment) : Prop :=
  ∀ s, env.lookup "AUTOGQL_MAX_LIMIT" = some s → ∃ n, Numeral.readInteger s.toList = .ok n

theorem exists_settings {env : Environment} (h : ReadableLimit env) :
    ∃ settings, Settings.fromEnvironment env = .ok settings := by
  have hlimit : ∃ limit, Settings.readLimit ((env.lookup "AUTOGQL_MAX_LIMIT").getD "2000") =
      .ok limit := by
    unfold Settings.readLimit
    cases hs : env.lookup "AUTOGQL_MAX_LIMIT" with
    | none => exact ⟨some 2000, by decide⟩
    | some s =>
      obtain ⟨n, hn⟩ := h s hs
      rw [Option.getD_some, hn]
      exact ⟨_, rfl⟩
  obtain ⟨limit, hlimit⟩ := hlimit
  unfold Settings.fromEnvironment
  dsimp only
  rw [hlimit]
  exact ⟨_, rfl⟩

/-! ## Runs -/

/-- The report of a command from what came of it. -/
def reportOf : Result Product × Session FileTree → Report
  | (.ok p, session) => ⟨0, p.output, "", session.store, session.journal, p.listening⟩
  | (.error f, session) =>
    ⟨1, "", "Error: " ++ f.message ++ "\n", session.store, session.journal, none⟩

/-- The code of a run that reports. -/
def exitCode? : Result Outcome → Option Nat
  | .ok (.report r) => some r.code
  | _ => none

variable {around : Surroundings} {settings : Settings}

theorem run_of_settings {arguments : List String} {i : Invocation}
    (harguments : Invocation.ofArguments arguments = .ok i)
    (hsettings : settingsOf i around.environment = .ok settings) :
    run arguments around = .ok (.report (reportOf
      (Step.run (carryOut settings i.command) ⟨around.tree, around.journal⟩))) := by
  unfold run
  rw [harguments]
  dsimp only
  rw [hsettings, Result.ok_bind]
  rcases Step.run (carryOut settings i.command) ⟨around.tree, around.journal⟩ with ⟨_ | p, session⟩
  · rfl
  · rfl

theorem run_of_settings_eq_error {arguments : List String} {i : Invocation} {f : Failure}
    (harguments : Invocation.ofArguments arguments = .ok i)
    (hsettings : settingsOf i around.environment = .error f) : run arguments around = .error f := by
  unfold run
  rw [harguments]
  dsimp only
  rw [hsettings]
  rfl

theorem run_eq {arguments : List String} {command : Command}
    (harguments : Invocation.ofArguments arguments = .ok ⟨none, command⟩)
    (hsettings : Settings.fromEnvironment around.environment = .ok settings) :
    run arguments around = .ok (.report (reportOf
      (Step.run (carryOut settings command) ⟨around.tree, around.journal⟩))) := by
  have hsettingsOf : settingsOf ⟨none, command⟩ around.environment = .ok settings := by
    unfold settingsOf
    rw [hsettings]
    rfl
  exact run_of_settings harguments hsettingsOf

/-- Stores that nothing is kept in. -/
def offlineSupply : Supply MemoryStore := .maker fun _ m => .ok (.empty m.primaryKey.name)

end EntityApi.CommandLine
