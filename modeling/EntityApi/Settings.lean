import EntityApi.Number.Numeral
import EntityApi.Text.UpperCase
import EntityApi.Value.Basic
import EntityApi.Failure

/-!
The settings of the service and how they are read from variables of the environment. A variable that
is not set leaves its setting at the default.
-/

namespace EntityApi

/-- The variables of the environment, by name. -/
abbrev Environment := List (String × String)

structure Settings where
  registryDir : String := "registry"
  apiKey : String := ""
  /-- The largest page that a listing gives; `none` if there is no limit. -/
  maxLimit : Option Int := some 2000
  debug : Bool := false
  /-- A threshold of the journal, by name or by number. -/
  logLevel : Value := .text "INFO"
  /-- The template of the statement that reads back a generated key; empty if there is none. -/
  keyTemplate : String := ""
  warehouseHost : String := ""
  warehousePath : String := ""
  warehouseToken : String := ""

namespace Settings

/-- The words that switch a flag on, whatever their case. -/
def affirmatives : List String := ["1", "true", "yes", "on"]

/-- Only ASCII letters have a lower case among the affirmatives, so other letters need no folding. -/
def isAffirmative (s : String) : Bool :=
  affirmatives.contains (String.ofList ((Text.trimChars s.toList).map Numeral.lowerAscii))

/-- A limit on pages; zero and less mean that there is none. -/
def readLimit (s : String) : Result (Option Int) :=
  match Numeral.readInteger s.toList with
  | .ok n => .ok (if 0 < n then some n else none)
  | .error .malformed =>
    mishap .badValue ("invalid literal for int() with base 10: " ++ Text.quoted s)
  | .error (.tooLong digits) =>
    mishap .badValue ("Exceeds the limit (4300 digits) for integer string conversion: value has " ++
      toString digits ++ " digits; use sys.set_int_max_str_digits() to increase the limit")

def fromEnvironment (env : Environment) : Result Settings := do
  let setting (name unset : String) : String := (env.lookup name).getD unset
  let maxLimit ← readLimit (setting "AUTOGQL_MAX_LIMIT" "2000")
  return {
    registryDir := setting "AUTOGQL_REGISTRY" "registry"
    apiKey := setting "API_KEY" ""
    maxLimit := maxLimit
    debug := isAffirmative (setting "AUTOGQL_DEBUG" "false")
    logLevel := .text (Text.upper (setting "LOG_LEVEL" "INFO"))
    keyTemplate := setting "AUTOGQL_KEY_SQL" ""
    warehouseHost := setting "DATABRICKS_SERVER_HOSTNAME" ""
    warehousePath := setting "DATABRICKS_HTTP_PATH" ""
    warehouseToken := setting "DATABRICKS_TOKEN" "" }

/-- What a connection to the warehouse needs, by the variables that set it. -/
def warehouseVariables (s : Settings) : List (String × String) := [
  ("DATABRICKS_SERVER_HOSTNAME", s.warehouseHost), ("DATABRICKS_HTTP_PATH", s.warehousePath),
  ("DATABRICKS_TOKEN", s.warehouseToken)]

/-- The variables without which the warehouse cannot be reached. -/
def missingVariables (s : Settings) : List String :=
  (s.warehouseVariables.filter fun e => e.2.isEmpty).map Prod.fst

/-- The largest page as an argument of operations. -/
def largestPage (s : Settings) : Value :=
  match s.maxLimit with
  | some n => .int n
  | none => .null

end Settings

end EntityApi
