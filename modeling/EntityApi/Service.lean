import EntityApi.Api
import EntityApi.Json
import EntityApi.Settings
import EntityApi.Warehouse

/-!
The service that answers requests over HTTP. It tells whether it is up and gives out its schema; a
web framework routes requests to these places, has all others to itself, and tells the paths of
requests. In front of all places stands a guard: if there is an API key, every request must carry it
except those to the places that are open to all. In front of the guard each exchange is logged with an
identifier that the request may bring along, and the response carries it.
-/

namespace EntityApi

structure Service where
  sdl : String
  entityCount : Nat
  /-- The key that requests must carry; empty if they need none. -/
  apiKey : String
  deriving Repr, DecidableEq

namespace Http

structure Request where
  method : String
  /-- The path as the server hands it over, with a query if there is one. -/
  target : String
  headers : List (String × String)
  deriving Repr, DecidableEq

structure Response where
  status : Nat
  threeDigits : status < 1000 := by decide
  /-- The headers, by names in lower case. -/
  headers : List (String × String) := []
  body : String
  deriving Repr, DecidableEq

/-- What answers requests; `none` if it fails and leaves no response. -/
abbrev Responder := Request → Option Response

/-- A place, with what can be got there. -/
structure Route where
  path : String
  found : Response
  deriving Repr, DecidableEq

/-- The web framework that a service runs in, as far as the service relies on it. -/
structure Framework where
  /-- The path that it tells of a request; `none` if it fails to read the address. -/
  path? : Request → Option String
  /-- What answers requests, given the places of the service; what executes queries is behind it, too. -/
  routed : List Route → Responder

namespace Request

/-- The first header of a name, whose case does not matter. -/
def header? (r : Request) (name : String) : Option String :=
  (r.headers.find? fun h => h.1.map Char.toLower == name).map Prod.snd

end Request

/-- Sets a header: it takes the place of the first of its name, and the others of the name go. -/
def setHeader : List (String × String) → String → String → List (String × String)
  | [], name, value => [(name, value)]
  | (n, v) :: headers, name, value =>
    if n == name then (name, value) :: headers.filter fun h => h.1 != name
    else (n, v) :: setHeader headers name value

namespace Response

def withHeader (response : Response) (name value : String) : Response :=
  { response with headers := setHeader response.headers name value }

def header? (response : Response) (name : String) : Option String := response.headers.lookup name

def ok (body : String) : Response := { status := 200, body := body }

/-- The body of a response that gives only a reason. -/
def detail (reason : String) : String := (Json.object [("detail", .string reason)]).dense

def unauthorized : Response := { status := 401, body := detail "Invalid or missing x-api-key" }

end Response

end Http

namespace Service

open Http

variable {σ : Type}

def ofApi (settings : Settings) (api : Api σ) : Service :=
  ⟨api.sdl, api.bindings.length, settings.apiKey⟩

/-- Starts the service: sets the threshold of the journal, finds the entities and their stores, and
builds the interface; custom resolvers are looked at last. The first of these that is refused ends
the start. -/
def start (settings : Settings) (journal : Log.Journal) (entities : Result (List Entity))
    (supply : Result (Supply σ)) (extensions : List Schema.Extension)
    (custom : Result (List CustomResolvers)) : Result Service × Log.Journal :=
  let (configured, journal) := journal.configure settings.logLevel
  let started : Result (Service × Log.Journal) := do
    configured
    let api ← Api.generate (← entities) (← supply) extensions settings.largestPage
    let api := api.withCustom (← custom)
    return (ofApi settings api, ← journal.record api.builtEvent)
  match started with
  | .ok (service, journal) => (.ok service, journal)
  | .error f => (.error f, journal)

/-- The stores that the warehouse of the settings holds. -/
def warehouseSupply (settings : Settings) : Result (Supply Sql.Store) := do
  let warehouse ← Warehouse.ofSettings settings
  return .maker warehouse.store

/-! ## Requests -/

def healthPath : String := "/healthz"

def wellKnown : String := "/.well-known/"

def schemaPath : String := wellKnown ++ "schema.graphql"

/-- Whether a place is open to requests without a key. -/
def isOpen (path : String) : Bool := path == healthPath || path.startsWith wellKnown

/-- The guard: only requests to open places and those with the key reach the next responder. The path
of a request is asked for only if there is a key. -/
def guarded (s : Service) (f : Framework) (next : Responder) : Responder := fun r =>
  if s.apiKey.isEmpty then next r
  else do
    let path ← f.path? r
    if isOpen path || r.header? "x-api-key" == some s.apiKey then next r else some .unauthorized

/-- The places of the service. -/
def routes (s : Service) : List Route := [
  ⟨healthPath, .ok (Json.object [("ok", .bool true),
    ("entities", .number (toString s.entityCount))]).dense⟩,
  ⟨schemaPath, .ok s.sdl⟩]

/-- The header that carries the identifier of an exchange, in requests and responses. -/
def idHeader : String := "x-correlation-id"

/-- The identifier that a request brings along, unless it is empty. -/
def broughtId? (r : Request) : Option String := (r.header? idHeader).filter (!·.isEmpty)

/-- The event that reports an exchange. -/
def exchangeEvent (id path : String) (r : Request) (status : Nat) : Log.Event where
  name := "request"
  fields := [("cid", .text id), ("method", .text r.method), ("path", .text path),
    ("status", .int status), ("dur_ms", .int 0)]

/-- The status that is reported where there is no response. -/
def failureStatus : Nat := 500

/-- Logs what the next responder answers, and marks it with the identifier of the exchange: the one
that the request brings along, or else `freshId`. Where no path is told there is nothing to log, and
the response is lost. -/
def traced (f : Framework) (next : Responder) (freshId : String) (journal : Log.Journal)
    (r : Request) : Result (Option Response × Log.Journal) := do
  let id := (broughtId? r).getD freshId
  let reply := next r
  match f.path? r with
  | none => return (none, journal)
  | some path =>
    let status := (reply.map Response.status).getD failureStatus
    let journal ← journal.record (exchangeEvent id path r status)
    return (reply.map (·.withHeader idHeader id), journal)

/-- Answers one request. -/
def answer (s : Service) (f : Framework) : String → Log.Journal → Request →
    Result (Option Response × Log.Journal) :=
  traced f (s.guarded f (f.routed s.routes))

end Service

end EntityApi
