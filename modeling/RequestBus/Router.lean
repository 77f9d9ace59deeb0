import RequestBus.Message.Request
import RequestBus.Message.Response

namespace RequestBus

structure RouteKey where
  method : String
  path : String
  deriving DecidableEq, Repr

def normalPath (path : List Char) : List Char :=
  let route := path.takeWhile fun c => c != '?' && c != '#'
  match (route.reverse.dropWhile (· == '/')).reverse with
  | [] => ['/']
  | kept => kept

def RouteKey.of (method path : String) : RouteKey :=
  ⟨Text.upper method, String.ofList (normalPath path.toList)⟩

abbrev Route := Request → Response

structure Router where
  routes : List (RouteKey × Route)

namespace Router

def empty : Router := ⟨[]⟩

/-- Registers a route, in place of one with the same key. -/
def register (r : Router) (method path : String) (route : Route) : Router :=
  let key := RouteKey.of method path
  ⟨(key, route) :: r.routes.filter fun e => e.1 != key⟩

def size (r : Router) : Nat := r.routes.length

def find? (r : Router) (key : RouteKey) : Option Route :=
  (r.routes.find? fun e => e.1 == key).map (·.2)

def noRoute (request : Request) : Response :=
  let key := RouteKey.of request.method request.path
  Response.error request.id Response.notFound ("No handler for " ++ key.method ++ " " ++ key.path)

def handle (r : Router) (request : Request) : Response :=
  match r.find? (RouteKey.of request.method request.path) with
  | some route => route request
  | none => noRoute request

end Router

end RequestBus
