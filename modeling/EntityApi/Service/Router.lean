import EntityApi.Service

/-!
A small web framework, for running a service by itself. Requests are routed by the paths of their
targets: what is at a place can only be got, a path with slashes after that of a place is sent on to
that place, and nothing is anywhere else. The path that is told of a request is that of its address,
which host and target make up together. Clients send methods in upper case.
-/

namespace EntityApi

namespace Http

namespace Request

def verb (r : Request) : String := r.method.map Char.toUpper

/-- The path of the target, without query and fragment. -/
def path (r : Request) : String :=
  String.ofList (r.target.toList.takeWhile fun c => c != '?' && c != '#')

/-- Whether a sign ends the host in an address. -/
def endsHost (c : Char) : Bool := c == '/' || c == '?' || c == '#'

/-- The path in the address of a request. The address is the first host header with the target after
it, and begins with a host, in which brackets come in pairs. -/
def addressPath? (r : Request) : Option String :=
  let address := ((r.header? "host").getD "").toList ++ r.target.toList
  let host := address.takeWhile (!endsHost ·)
  let afterHost := address.dropWhile (!endsHost ·)
  if host.contains '[' == host.contains ']' then
    some (String.ofList (afterHost.takeWhile fun c => c != '?' && c != '#'))
  else none

end Request

namespace Response

/-- A response as it is sent: without a body to a request for the head alone. -/
def sentTo (response : Response) (r : Request) : Response :=
  if r.verb == "HEAD" then { response with body := "" } else response

def notFound : Response := { status := 404, body := detail "Not Found" }

def methodNotAllowed : Response := { status := 405, body := detail "Method Not Allowed" }

/-- Sends a request on to another place. -/
def sentOn : Response := { status := 307, body := "" }

end Response

/-- What is at a place. -/
def found? (routes : List Route) (path : String) : Option Response :=
  (routes.find? fun route => route.path == path).map Route.found

/-- The place that a path without anything is sent on to: the one that it names but for slashes at
the end. -/
def redirection? (routes : List Route) (path : String) : Option String :=
  let trimmed := String.ofList (path.toList.reverse.dropWhile (· == '/')).reverse
  if path.endsWith "/" && (found? routes trimmed).isSome then some trimmed else none

/-- The framework that routes by paths alone. -/
def router : Framework where
  path? := Request.addressPath?
  routed routes r := some (
    match found? routes r.path with
    | some found => if r.method == "GET" then found else .methodNotAllowed
    | none => if (redirection? routes r.path).isSome then .sentOn else .notFound)

end Http

namespace Service

open Http

/-- Answers a request as a client that follows redirections sends it and sees it. -/
def serve (s : Service) (freshId : String) (journal : Log.Journal) (r : Request) :
    Result (Option Response × Log.Journal) := do
  let r := { r with method := r.verb }
  let (reply, journal) ← s.answer router freshId journal r
  match reply, redirection? s.routes r.path with
  | some response, some path =>
    if response.status == 307 then s.answer router freshId journal { r with target := path }
    else return (reply, journal)
  | _, _ => return (reply, journal)

end Service

end EntityApi
