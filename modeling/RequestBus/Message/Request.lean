import RequestBus.Message.Headers
import RequestBus.Message.Version
import RequestBus.Text.Utf8

namespace RequestBus

structure Request where
  id : String
  method : String
  path : String
  headers : Headers
  body : Bytes
  /-- The version that the `Accept` header asks for. -/
  version : Option String
  deriving DecidableEq

namespace Request

def header (r : Request) (name : String) : Option String := r.headers.lookup name

def versionOf (headers : Headers) : Option String :=
  (headers.lookup "Accept").bind Version.ofAccept?

end Request

end RequestBus
