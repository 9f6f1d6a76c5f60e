import EntityApi.Filter.Compile
import EntityApi.Model
import EntityApi.Operation
import EntityApi.Store.Session

/-!
Resolvers: what each operation of an entity does with its arguments and its store. A listing is
planned before the store is touched: its offset and limit are checked, the limit is cut to the
largest allowed, and filters and ordering are compiled. An update always reads the record again, so
that stores which report nothing are served alike.
-/

namespace EntityApi.Resolver

/-- Names that a caller cannot use for arguments, since every resolver has them for itself. -/
def reservedNames : List String := ["_", "info"]

def isReserved (name : Value) : Bool := reservedNames.any fun n => name == .text n

/-- Checks that all argument names are texts and none is reserved. -/
def checkNames (args : Row) : Result Unit :=
  args.forM fun (name, _) =>
    if !name.isText then mishap .badType "keywords must be strings"
    else if isReserved name then mishap .badType "resolver() got multiple values for an argument"
    else .ok ()

/-- The arguments of a listing. -/
def listingNames : List String := ["offset", "limit", "filter_options", "order_column", "order_method"]

/-- Checks that all argument names are those of a listing. -/
def checkListingNames (args : Row) : Result Unit := do
  checkNames args
  args.forM fun (name, _) =>
    if listingNames.any fun n => name == .text n then .ok ()
    else mishap .badType "resolver() got an unexpected keyword argument"

structure Listing where
  conditions : List Condition
  order : List Value
  offset : Value
  limit : Value

/-- Whether a number is missing or negative. -/
def isNegative (v : Value) : Result Bool :=
  if v.isNull then .ok true else Value.before true v (.int 0)

/-- The smaller of the limit and the largest one allowed, if there is such. -/
def clamp (largest limit : Value) : Result Value :=
  if largest.isNull then .ok limit
  else do if ← Value.before true largest limit then return largest else return limit

/-- The listing that the arguments ask for. -/
def plan (largest : Value) (args : Row) : Result Listing := do
  checkListingNames args
  let argument (name : String) (unset : Value) := (Entries.get? args (.text name)).getD unset
  let offset := argument "offset" (.int 0)
  let limit := argument "limit" (.int 0)
  if ← isNegative offset then refuse (.invalidArgument (.offset (← offset.text?)))
  if ← isNegative limit then refuse (.invalidArgument (.limit (← limit.text?)))
  let limit ← clamp largest limit
  let conditions ← Filter.compile (argument "filter_options" .null)
  let order := Filter.compileOrder (argument "order_column" .null) (argument "order_method" .null)
  return ⟨conditions, order, offset, limit⟩

namespace Listing

/-- The event that reports a listing before it is carried out. -/
def event (l : Listing) (m : Model) : Log.Event where
  name := "read_multiple"
  level := Log.debug
  fields := [
    ("entity", .text m.name),
    ("conditions", .list (l.conditions.map fun c =>
      .list [c.column, c.comparison.toValue, c.operand])),
    ("order", .list l.order), ("offset", l.offset), ("limit", l.limit)]

end Listing

variable {σ : Type}

def notFound {α : Type} (m : Model) (key : Value) : Result α := do
  refuse (.notFound m.name (← key.shown?))

def readByKey (access : Access σ) (m : Model) (key : Value) : Step σ Value := do
  match ← access.findByKey key with
  | some record => return .map record
  | none => Step.ofResult (notFound m key)

def read (access : Access σ) (m : Model) (args : Row) : Step σ Value := do
  Step.ofResult (checkNames args)
  readByKey access m (Value.field args m.primaryKey.name)

def readMultiple (access : Access σ) (m : Model) (largest : Value) (args : Row) : Step σ Value := do
  let l ← Step.ofResult (plan largest args)
  Step.log (l.event m)
  let (count, rows) ← access.findAndCount l.conditions l.order l.offset l.limit
  return .map [(.text "count", .int count), (.text "rows", .list (rows.map .map))]

def create (access : Access σ) (args : Row) : Step σ Value := do
  Step.ofResult (checkNames args)
  return .map (← access.create args)

def update (access : Access σ) (m : Model) (args : Row) : Step σ Value := do
  Step.ofResult (checkNames args)
  let key := Value.field args m.primaryKey.name
  if key.isNull then Step.ofResult (refuse (.invalidArgument (.noKey m.name m.primaryKey.name)))
  let _ ← access.updateByKey key (Entries.remove args (.text m.primaryKey.name))
  readByKey access m key

def run (access : Access σ) (m : Model) (largest : Value) (op : Operation) (args : Row) :
    Step σ Value :=
  match op with
  | .read => read access m args
  | .readMultiple => readMultiple access m largest args
  | .create => create access args
  | .update => update access m args

end EntityApi.Resolver
