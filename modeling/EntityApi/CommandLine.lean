import EntityApi.CommandLine.Arguments
import EntityApi.Export
import EntityApi.Registry
import EntityApi.Service.Router

/-!
The command line: printing the schema document of a registry, writing it and the manifest into files,
and serving. A run is a function of the arguments, the environment and the files; what it prints,
writes and serves is its report. Every fault of a command ends it with a message and code 1.
-/

namespace EntityApi.CommandLine

structure Surroundings where
  environment : Environment := []
  tree : FileTree := {}
  journal : Log.Journal := {}

/-- A service that is up at an address. -/
structure Listening where
  host : String
  port : Int
  service : Service
  deriving Repr, DecidableEq

structure Report where
  code : Nat
  output : String := ""
  errors : String := ""
  tree : FileTree
  journal : Log.Journal
  listening : Option Listening := none

inductive Outcome where
  /-- The usage of the command line, with the code of the run. -/
  | usage (code : Nat)
  | report (r : Report)

/-- What a command leaves: what it prints and the service that it starts. -/
structure Product where
  output : String := ""
  listening : Option Listening := none

/-- The interface of a registry without its stores, which nothing but requests would touch. -/
def offlineApi (settings : Settings) : Step FileTree (Api MemoryStore) := do
  let registry ← Step.look fun tree => Registry.load tree settings.registryDir
  let supply : Supply MemoryStore := .maker fun _ m => .ok (.empty m.primaryKey.name)
  let api ← Step.ofResult do Api.build (← registry.entities) supply [] [] .null
  Step.log api.builtEvent
  return api

/-- Starts the service of a registry over the warehouse. -/
def startService (settings : Settings) : Step FileTree Service := fun session =>
  let entities := do (← Registry.load session.store settings.registryDir).entities
  let (r, journal) :=
    Service.start settings session.journal entities (Service.warehouseSupply settings) [] (.ok [])
  (r, { session with journal := journal })

def carryOut (settings : Settings) : Command → Step FileTree Product
  | .sdl => do return { output := (← offlineApi settings).sdl ++ "\n" }
  | .exportFiles out => do
    let e ← Export.write (← offlineApi settings) out
    return { output := String.join (e.paths.map fun (kind, path) => kind ++ ": " ++ path ++ "\n") }
  | .serve host port => do
    return { listening := some ⟨host, port, ← startService settings⟩ }

/-- The settings of a run: a registry that the command line names goes before that of the
environment. -/
def settingsOf (i : Invocation) (env : Environment) : Result Settings := do
  let settings ← Settings.fromEnvironment env
  match i.registry.filter (!·.isEmpty) with
  | some root => return { settings with registryDir := root }
  | none => return settings

def Refusal.code : Refusal → Nat
  | .help => 0
  | .misuse => 2

/-- Runs the command line. Only settings that make no sense leave a run without an outcome. -/
def run (arguments : List String) (around : Surroundings) : Result Outcome := do
  match Invocation.ofArguments arguments with
  | .error r => return .usage r.code
  | .ok i =>
    let settings ← settingsOf i around.environment
    let (r, session) := (carryOut settings i.command).run ⟨around.tree, around.journal⟩
    let report (code : Nat) (output errors : String) (listening : Option Listening) : Outcome :=
      .report ⟨code, output, errors, session.store, session.journal, listening⟩
    match r with
    | .ok p => return report 0 p.output "" p.listening
    | .error f => return report 1 "" ("Error: " ++ f.message ++ "\n") none

end EntityApi.CommandLine
