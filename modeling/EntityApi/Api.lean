import EntityApi.Resolver
import EntityApi.Schema.Document
import EntityApi.Store.Memory

/-!
The whole interface that is generated for a list of entities: the schema document, the tables of
resolvers, and each entity's model bound to its store. Building either succeeds entirely or is
refused for the first fault in a fixed order: repeated names, nothing to serve, an entity that makes
no model, a signature without a name, an entity without a store.
-/

namespace EntityApi

/-- Custom resolvers by root type. A resolver is known by its label. -/
structure CustomResolvers where
  query : List (String × Value) := []
  mutation : List (String × Value) := []

namespace CustomResolvers

/-- The section of a table of custom resolvers for a root type: the one under the lower-case name,
or else the one under the name itself. -/
def sectionOf (custom : List (Value × Value)) (root : Root) : Result (List (Value × Value)) :=
  let lower := Value.field custom root.lowerName
  let found := if lower.isNull then Value.field custom root.name else lower
  match found with
  | .map entries => .ok entries
  | v => if v.truthy then mishap .noAttribute (v.kind ++ " has no items") else .ok []

/-- Operation names are texts. -/
def named (entries : List (Value × Value)) : Result (List (String × Value)) :=
  entries.mapM fun (name, label) =>
    match name with
    | .text s => .ok (s, label)
    | v => mishap .badType ("an operation is named by a text, not " ++ v.kind)

def ofMap (custom : List (Value × Value)) : Result CustomResolvers := do
  return ⟨← named (← sectionOf custom .query), ← named (← sectionOf custom .mutation)⟩

def ofRoot (c : CustomResolvers) : Root → List (String × Value)
  | .query => c.query
  | .mutation => c.mutation

end CustomResolvers

/-- Who answers an operation: the resolver generated for the entity at a position, or a custom one. -/
inductive Handler where
  | generated (op : Operation) (entity : Nat)
  | custom (label : Value)

/-- Where the stores of the entities come from. -/
inductive Supply (σ : Type) where
  | table (stores : List (String × σ))
  | maker (make : Entity → Model → Result σ)

namespace Supply

def storeFor {σ : Type} (s : Supply σ) (e : Entity) (m : Model) : Result σ :=
  match s with
  | table stores =>
    match Entries.get? stores e.name with
    | some store => .ok store
    | none => refuse (.noAccess e.name)
  | maker make => make e m

end Supply

structure Binding (σ : Type) where
  model : Model
  store : σ

structure Api (σ : Type) where
  document : Schema.Document
  bindings : List (Binding σ)
  query : List (String × Handler)
  mutation : List (String × Handler)
  largestPage : Value
  extensionCount : Nat

namespace Api

variable {σ : Type}

/-- The names that occur more than once, each once and in order of code points. -/
def repeatedNames (names : List String) : List String :=
  (names.filter fun n => 1 < names.count n).eraseDups.mergeSort fun a b => decide (a ≤ b)

/-- The generated handlers under one root type, entity after entity from position `start`. -/
def handlersFrom (root : Root) : Nat → List Model → List (String × Handler)
  | _, [] => []
  | start, m :: ms =>
    (Operation.ofRoot root).map (fun op => (op.nameFor m.name, Handler.generated op start)) ++
      handlersFrom root (start + 1) ms

/-- The table of the generated handlers under one root type. -/
def handlers (root : Root) (models : List Model) : List (String × Handler) :=
  Entries.ofList (handlersFrom root 0 models)

/-- A table overlaid with the section of each of the custom resolvers in turn. -/
def overlay (root : Root) (custom : List CustomResolvers) (table : List (String × Handler)) :
    List (String × Handler) :=
  Entries.mergeAll table
    (custom.map fun c => (c.ofRoot root).map fun e => (e.1, Handler.custom e.2))

/-- The interface with custom resolvers, which take the places of generated ones. -/
def withCustom (api : Api σ) (custom : List CustomResolvers) : Api σ :=
  { api with
    query := overlay .query custom api.query
    mutation := overlay .mutation custom api.mutation }

def bind (supply : Supply σ) : List (Entity × Model) → Result (List (Binding σ))
  | [] => .ok []
  | (e, m) :: rest => do return ⟨m, ← supply.storeFor e m⟩ :: (← bind supply rest)

/-- The interface without custom resolvers. -/
def generate (entities : List Entity) (supply : Supply σ) (extensions : List Schema.Extension)
    (largestPage : Value) : Result (Api σ) := do
  let repeated := repeatedNames (entities.map Entity.name)
  if !repeated.isEmpty then refuse (.duplicateEntities repeated)
  if entities.isEmpty && extensions.all (fun e => (e.signatures .query).isEmpty) then
    refuse .nothingToServe
  let models ← entities.mapM Model.ofEntity
  let document ← Schema.Document.assemble models extensions
  let bindings ← bind supply (entities.zip models)
  return {
    document := document
    bindings := bindings
    query := handlers .query models
    mutation := handlers .mutation models
    largestPage := largestPage
    extensionCount := extensions.length }

def build (entities : List Entity) (supply : Supply σ) (extensions : List Schema.Extension)
    (custom : List CustomResolvers) (largestPage : Value) : Result (Api σ) := do
  return (← generate entities supply extensions largestPage).withCustom custom

def models (api : Api σ) : List Model := api.bindings.map Binding.model

def sdl (api : Api σ) : String := api.document.render

def handlersOf (api : Api σ) : Root → List (String × Handler)
  | .query => api.query
  | .mutation => api.mutation

/-- The event that reports a finished interface. -/
def builtEvent (api : Api σ) : Log.Event where
  name := "schema.built"
  fields := [
    ("entities", .list (api.models.map fun m => .text m.name)),
    ("queries", .int api.query.length), ("mutations", .int api.mutation.length),
    ("extensions", .int api.extensionCount)]

def handler? (api : Api σ) (name : String) : Option Handler :=
  (Entries.get? api.query name).orElse fun _ => Entries.get? api.mutation name

/-- What a custom resolver answers: its label and its arguments. -/
def customAnswer (label : Value) (args : Row) : Result Value := do
  Resolver.checkNames args
  return .map [(.text "custom", label), (.text "args", .map args)]

/-- Puts a store back in its place. -/
def setStore (bindings : List (Binding σ)) (i : Nat) (store : σ) : List (Binding σ) :=
  bindings.modify i fun b => { b with store := store }

/-- Calls an operation by name. The store of the entity concerned is left as the call left it. -/
def call (access : Access σ) (api : Api σ) (journal : Log.Journal) (name : String) (args : Row) :
    Result Value × Api σ × Log.Journal :=
  match api.handler? name with
  | none => (mishap .missingKey name, api, journal)
  | some (.custom label) => (customAnswer label args, api, journal)
  | some (.generated op i) =>
    match api.bindings[i]? with
    | none => (mishap .missingKey name, api, journal)
    | some b =>
      let (r, session) :=
        (Resolver.run access b.model api.largestPage op args).run ⟨b.store, journal⟩
      (r, { api with bindings := setStore api.bindings i session.store }, session.journal)

end Api

end EntityApi
