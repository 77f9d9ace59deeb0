import RequestBus.Base64
import RequestBus.Json.Error
import RequestBus.Message.Response

namespace RequestBus

inductive Malformed where
  | json (error : Json.Error)
  | base64 (field : String) (error : Base64.Error)
  /-- A field that must have something in it is missing or blank. -/
  | missing (field : String)
  deriving DecidableEq, Repr

namespace Malformed

def message : Malformed → String
  | .json error => "invalid JSON payload: " ++ error.message
  | .base64 field error => "invalid base64 in field '" ++ field ++ "': " ++ error.message
  | .missing field => "missing or empty field '" ++ field ++ "'"

def response (m : Malformed) (id : String) : Response :=
  Response.error id Response.badRequest ("Malformed request: " ++ m.message)

end Malformed

end RequestBus
