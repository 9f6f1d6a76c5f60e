/-!
The operations generated for an entity: two queries and two mutations, each named for its kind and
the entity.
-/

namespace EntityApi

/-- The two root types of a schema. -/
inductive Root where
  | query
  | mutation
  deriving Repr, DecidableEq

namespace Root

def name : Root → String
  | query => "Query"
  | mutation => "Mutation"

/-- The other name under which custom resolvers may be listed. -/
def lowerName : Root → String
  | query => "query"
  | mutation => "mutation"

def ofName? (s : String) : Option Root :=
  if s == "Query" then some query else if s == "Mutation" then some mutation else none

end Root

inductive Operation where
  | read
  | readMultiple
  | create
  | update
  deriving Repr, DecidableEq

namespace Operation

def label : Operation → String
  | read => "read"
  | readMultiple => "read_multiple"
  | create => "create"
  | update => "update"

def nameFor (op : Operation) (entity : String) : String := op.label ++ "_" ++ entity

def root : Operation → Root
  | read => .query
  | readMultiple => .query
  | create => .mutation
  | update => .mutation

/-- The operations of a root type, in the order in which they are listed. -/
def ofRoot : Root → List Operation
  | .query => [read, readMultiple]
  | .mutation => [create, update]

end Operation

end EntityApi
