import EntityApi.CommandLine
import EntityApi.Uuid

/-!
The command line as a program. The files that a run may read are named on standard input, one path a
line, up to an empty line. What the run writes goes into files of the same tree. A service that was
started answers the requests on the lines that follow, each a method and a target.
-/

namespace EntityApi.CommandLine

def usage : String :=
  "usage: entity-api [--registry DIR] (sdl | export [--out DIR] | serve [--host HOST] [--port PORT])"

/-- The variables that settings are read from. -/
def variableNames : List String := [
  "AUTOGQL_REGISTRY", "API_KEY", "AUTOGQL_MAX_LIMIT", "AUTOGQL_DEBUG", "LOG_LEVEL", "AUTOGQL_KEY_SQL",
  "DATABRICKS_SERVER_HOSTNAME", "DATABRICKS_HTTP_PATH", "DATABRICKS_TOKEN"]

def readEnvironment : IO Environment := do
  let found ← variableNames.mapM fun name => do return (name, ← IO.getEnv name)
  return found.filterMap fun (name, value) => value.map (name, ·)

def readLine (input : IO.FS.Stream) : IO String := do
  return String.ofList ((← input.getLine).toList.filter fun c => c != '\n' && c != '\r')

/-- Reads the files that are named on the lines up to an empty one. -/
partial def readTree (input : IO.FS.Stream) (tree : FileTree) : IO FileTree := do
  let name ← readLine input
  if name.isEmpty then return tree
  let text ← IO.FS.readFile name
  match tree.write (Path.ofText name) text with
  | .ok tree => readTree input tree
  | .error f => throw (IO.userError f.message)

/-- The path of a place from the top. -/
def fromTop (place : List String) : String := (Path.mk true place).text

/-- Makes the directories and writes the files in which two trees differ. -/
def writeChanges (before after : FileTree) : IO Unit := do
  for place in after.directories do
    IO.FS.createDirAll (fromTop place)
  for (place, text) in after.changesFrom before do
    IO.FS.writeFile (fromTop place) text

def printLog (journal : Log.Journal) : IO Unit := journal.lines.forM IO.eprintln

/-- Answers requests up to an empty line. -/
partial def answerRequests (service : Service) (input : IO.FS.Stream) (journal : Log.Journal) :
    IO Unit := do
  let line ← readLine input
  if line.isEmpty then return
  let method := line.toList.takeWhile (· != ' ')
  let target := (line.toList.drop method.length).dropWhile (· == ' ')
  let id := Uuid.ofRandom (← IO.getRandomBytes 16).toList
  let request : Http.Request := ⟨String.ofList method, String.ofList target, []⟩
  match service.serve id { journal with lines := [] } request with
  | .ok (reply, journal) =>
    printLog journal
    if let some response := reply.map (·.sentTo request) then
      IO.println (toString response.status ++ " " ++ response.body)
    answerRequests service input journal
  | .error f => throw (IO.userError f.message)

def runProgram (arguments : List String) : IO UInt32 := do
  let input ← IO.getStdin
  let current := Path.ofText (← IO.currentDir).toString
  let tree ← readTree input { directories := [current.names], workingDirectory := current.names }
  match run arguments ⟨← readEnvironment, tree, {}⟩ with
  | .error f =>
    IO.eprintln f.message
    return 1
  | .ok (.usage code) =>
    IO.println usage
    return UInt32.ofNat code
  | .ok (.report r) =>
    printLog r.journal
    writeChanges tree r.tree
    IO.print r.output
    IO.eprint r.errors
    if let some up := r.listening then answerRequests up.service input r.journal
    return UInt32.ofNat r.code

end EntityApi.CommandLine

def main (arguments : List String) : IO UInt32 := EntityApi.CommandLine.runProgram arguments
