import EntityApi.Text.Blank
import EntityApi.Text.UpperCase
import EntityApi.Value.Shown

/-!
Storage types and the schema scalars they map to. A storage type is written in any case and with or
without parameters (`decimal(10, 2)`); its tag is what remains in upper case before the first
parenthesis.
-/

namespace EntityApi

inductive Scalar where
  | string
  | boolean
  | int
  | float
  | date
  deriving Repr, DecidableEq

namespace Scalar

def name : Scalar → String
  | string => "String"
  | boolean => "Boolean"
  | int => "Int"
  | float => "Float"
  | date => "Date"

/-- The storage tags and their scalars. -/
def storageTags : List (String × Scalar) := [
  ("STRING", string), ("TEXT", string), ("CITEXT", string), ("CHAR", string), ("VARCHAR", string),
  ("UUID", string), ("BOOLEAN", boolean), ("INTEGER", int), ("INT", int), ("BIGINT", int),
  ("SMALLINT", int), ("TINYINT", int), ("MEDIUMINT", int), ("FLOAT", float), ("REAL", float),
  ("DOUBLE", float), ("DECIMAL", float), ("DATE", date), ("DATEONLY", date), ("TIMESTAMP", date)]

end Scalar

namespace StorageType

def tagChars (s : List Char) : List Char :=
  Text.trimChars ((Text.upperChars (Text.trimChars s)).takeWhile (· != '('))

def tag (s : String) : String := String.ofList (tagChars s.toList)

/-- The tag of a declared type, which may be any value; what counts as absent has the empty tag. -/
def tagOf (declared : Value) : Result String :=
  if declared.truthy then do return tag (← declared.text?) else .ok (tag "")

def scalarOfTag? (tag : String) : Option Scalar := Scalar.storageTags.lookup tag

def scalar (declared : Value) : Result Scalar := do
  match scalarOfTag? (← tagOf declared) with
  | some s => return s
  | none => refuse (.unsupportedType (← declared.shown?) none)

end StorageType

end EntityApi
