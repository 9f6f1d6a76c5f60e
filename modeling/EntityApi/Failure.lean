import EntityApi.Text.Quoted

/-!
Why an operation is refused. Each cause is a constructor and `Failure.message` holds all wordings.
Causes that this library words itself come first; an `accident` is a failure of a more general
mechanism (a comparison of unlike values, a number out of range), classed by its kind.
-/

namespace EntityApi

open Text

/-- What is wrong with a filter descriptor. Columns and values are given as they are shown. -/
inductive FilterFault where
  | notAnObject (kind : String)
  | noValue
  | noColumn
  | notInteger (column value : String)
  | notNumber (column value : String)
  | notFinite (column value : String)
  | partCount (column : String) (count : Nat)
  | notMillisPair (column value : String)
  | outOfRange (column value : String)
  deriving Repr, DecidableEq

namespace FilterFault

def message : FilterFault → String
  | notAnObject kind => "Filter must be an object, got " ++ kind
  | noValue => "Filter is missing 'value'"
  | noColumn => "Filter needs 'column_name' or 'column_key'"
  | notInteger column value => "Int filter on '" ++ column ++ "': " ++ quoted value ++ " is not an integer"
  | notNumber column value => "Float filter on '" ++ column ++ "': " ++ quoted value ++ " is not a number"
  | notFinite column value =>
    "Float filter on '" ++ column ++ "': " ++ quoted value ++ " is not a finite number"
  | partCount column count =>
    "Date filter on '" ++ column ++ "' needs exactly two comma-separated epoch-ms values, got " ++
      toString count
  | notMillisPair column value =>
    "Date filter on '" ++ column ++ "': " ++ quoted value ++ " is not a pair of epoch-ms integers"
  | outOfRange column value =>
    "Date filter on '" ++ column ++ "': " ++ quoted value ++ " is out of range"

end FilterFault

/-- What is wrong with an argument of a request. -/
inductive ArgumentFault where
  | offset (shown : String)
  | limit (shown : String)
  | unknownColumn (column table : String)
  | direction (shown : String)
  | noKey (entity key : String)
  | nothingToUpdate (table : String)
  deriving Repr, DecidableEq

namespace ArgumentFault

def message : ArgumentFault → String
  | offset shown => "offset must be >= 0, got " ++ shown
  | limit shown => "limit must be >= 0, got " ++ shown
  | unknownColumn column table => "Unknown column '" ++ column ++ "' for " ++ table
  | direction shown => "Unsupported sort direction '" ++ shown ++ "'"
  | noKey entity key => "update_" ++ entity ++ " requires '" ++ key ++ "'"
  | nothingToUpdate table => "Nothing to update on " ++ table

end ArgumentFault

/-- A state of affairs outside a request that makes an operation impossible. -/
inductive Outage where
  | noRegistry (root : String)
  | warehouseUnset (names : List String)
  | keysNotReported (table : String)
  | noKeyReported (table : String)
  deriving Repr, DecidableEq

namespace Outage

def message : Outage → String
  | noRegistry root => "Registry directory not found: " ++ root
  | warehouseUnset names =>
    "Databricks env not set: " ++ ", ".intercalate names ++ "\nSet via `.env` or export in shell"
  | keysNotReported table =>
    "Driver cannot report generated keys for " ++ table ++ "; configure a key query"
  | noKeyReported table => "No generated key reported for " ++ table

end Outage

/-- The kinds of failure of general mechanisms. -/
inductive Accident where
  | badValue
  | badType
  | overflow
  | missingKey
  | badIndex
  | noAttribute
  | invalidOperation
  | isDirectory
  | notDirectory
  | fileExists
  | noSuchFile
  deriving Repr, DecidableEq

inductive Failure where
  | unsupportedType (shown : String) (place : Option (String × String))
  | duplicateEntities (names : List String)
  | malformedFilter (fault : FilterFault)
  | invalidArgument (fault : ArgumentFault)
  | notFound (entity shownKey : String)
  | outage (cause : Outage)
  | driver (text : String)
  -- declarations and operations that make no sense
  | attributeShape (kind : String)
  | attributeUntyped
  | entityShape (name kind : String)
  | attributesShape (name : String)
  | inAttribute (entity attr : String) (cause : Failure)
  | emptyEntityName
  | manyKeys (entity first second : String)
  | operationKind (shown : String)
  | unnamedSignature (line : String)
  | notInteger (shown : String)
  | unsupportedOp (shown : String)
  | notDate (shown : String)
  | noAccess (entity : String)
  | nothingToServe
  | documentShape (kind : String)
  | entityItemShape (kind : String)
  | entitiesShape (kind : String)
  | inFile (file : String) (cause : Failure)
  -- failures that are not worded here
  | markup (text : String)
  | accident (kind : Accident) (text : String)
  deriving Repr, DecidableEq

namespace Failure

def message : Failure → String
  | unsupportedType shown none => "Unsupported storage type: " ++ shown
  | unsupportedType shown (some (entity, attr)) =>
    "Unsupported storage type: " ++ shown ++ " (" ++ entity ++ "." ++ attr ++ ")"
  | duplicateEntities names => "Duplicate entity name(s): " ++ ", ".intercalate names
  | malformedFilter fault => fault.message
  | invalidArgument fault => fault.message
  | notFound entity shownKey => entity ++ " with key " ++ shownKey ++ " not found"
  | outage cause => cause.message
  | driver text => text
  | attributeShape kind => "attribute must be a type name or a mapping, got " ++ kind
  | attributeUntyped => "attribute is missing 'type'"
  | entityShape name kind => "entity '" ++ name ++ "' must be a mapping, got " ++ kind
  | attributesShape name => "entity '" ++ name ++ "': attributes must be a mapping"
  | inAttribute entity attr cause =>
    "entity '" ++ entity ++ "', attribute '" ++ attr ++ "': " ++ cause.message
  | emptyEntityName => "entity name must be non-empty"
  | manyKeys entity first second =>
    "entity '" ++ entity ++ "' declares more than one primary key (" ++ first ++ ", " ++ second ++ ")"
  | operationKind shown => "Unknown operation kind: " ++ shown
  | unnamedSignature line => "Cannot parse an operation name from " ++ quoted line
  | notInteger shown => "invalid integer: " ++ quoted shown
  | unsupportedOp shown => "Unsupported op: " ++ shown
  | notDate shown => "Date expects epoch milliseconds or ISO 8601, got " ++ shown
  | noAccess entity => "No data access configured for entity '" ++ entity ++ "'"
  | nothingToServe => "Nothing to serve: no entities and no custom query operations"
  | documentShape kind => "top level must be a mapping, got " ++ kind
  | entityItemShape kind => "entities list item must be a mapping, got " ++ kind
  | entitiesShape kind => "entities must be a mapping or a list, got " ++ kind
  | inFile file cause => file ++ ": " ++ cause.message
  | markup text => text
  | accident _ text => text

/-- The failures that report a malformed value, whoever words them. They are the ones that a place
(an attribute, a file) is added to on their way out. -/
def isMalformed : Failure → Bool
  | attributeShape _ | attributeUntyped | entityShape _ _ | attributesShape _ | inAttribute _ _ _
  | emptyEntityName | manyKeys _ _ _ | operationKind _ | unnamedSignature _ | notInteger _
  | unsupportedOp _ | notDate _ | noAccess _ | nothingToServe | documentShape _
  | entityItemShape _ | entitiesShape _ | inFile _ _ | accident .badValue _ => true
  | _ => false

end Failure

/-- The outcome of an operation that may be refused. -/
abbrev Result (α : Type) := Except Failure α

def refuse {α : Type} (f : Failure) : Result α := .error f

def mishap {α : Type} (kind : Accident) (text : String) : Result α := .error (.accident kind text)

end EntityApi
