import RequestBus.Json.Printer
import RequestBus.Message.Headers

namespace RequestBus

structure Response where
  id : String
  status : UInt16
  headers : Headers
  body : Bytes
  deriving DecidableEq

namespace Response

def header (r : Response) (name : String) : Option String := r.headers.lookup name

def plain (id : String) (status : UInt16) (body : Bytes) : Response :=
  ⟨id, status, Dictionary.empty, body⟩

def jsonHeaders : Headers := Dictionary.empty.insert Headers.contentType Headers.jsonType

def json (id : String) (status : UInt16) (value : Json.Value) : Response :=
  ⟨id, status, jsonHeaders, value.bytes⟩

def error (id : String) (status : UInt16) (message : String) : Response :=
  json id status (.object [("message", .text message)])

def badRequest : UInt16 := 400

def notFound : UInt16 := 404

def tooManyRequests : UInt16 := 429

def overloadBody : String :=
  "[\x7b\"Error\":\"The server is handling too many requests; please wait and try again.\"\x7d]"

def overloaded (id : String) : Response :=
  ⟨id, tooManyRequests, jsonHeaders, Utf8.encode overloadBody⟩

end Response

end RequestBus
