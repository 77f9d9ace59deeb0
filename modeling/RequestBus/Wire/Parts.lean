import RequestBus.Json.Record
import RequestBus.Message.Request
import RequestBus.Text.Blank
import RequestBus.Wire.Malformed

namespace RequestBus.Wire

/-- The value of a field that must have something in it, as it was sent. -/
def require (field : String) (value : Option String) : Except Malformed String :=
  match value.bind Text.given? with
  | some text => .ok text
  | none => .error (.missing field)

def readBase64 (field : String) (text : String) : Except Malformed Bytes :=
  (Base64.decode (Text.trim text)).mapError (.base64 field)

/-- The bytes of a body. No text and blank text are the empty body. -/
def readBody (field : String) (text : Option String) : Except Malformed Bytes :=
  match text with
  | none => .ok []
  | some text => if Text.allBlank text then .ok [] else readBase64 field text

/-- The text of a header value: a text as it stands, anything else as compact JSON. -/
def headerText : Json.Value → Option String
  | .null => none
  | .text s => some s
  | v => some v.compact

/-- The headers that an object stands for; a null stands for no header. -/
def readHeaders (members : Dictionary Json.Value) : Headers := members.filterMap headerText

/-- The parts of a request, as far as they have been read. The outer option says whether a part
has been seen, the inner one whether it was null. -/
structure Parts where
  method : Option (Option String) := none
  path : Option (Option String) := none
  headers : Option (Option (Dictionary Json.Value)) := none
  body : Option (Option String) := none

def Parts.members : List (Json.Member Parts) :=
  [ { Json.Member.ofField "method" Parts.method (fun p v => { p with method := some v })
        (fun _ => Json.readNullable Json.readTextValue) with optional := true },
    { Json.Member.ofField "path" Parts.path (fun p v => { p with path := some v })
        (fun _ => Json.readNullable Json.readTextValue) with
      optional := true, alias? := some "requestUri" },
    { Json.Member.ofField "headers" Parts.headers (fun p v => { p with headers := some v })
        (fun depth => Json.readNullable (Json.readObjectValue depth)) with optional := true },
    { Json.Member.ofField "body" Parts.body (fun p v => { p with body := some v })
        (fun _ => Json.readNullable Json.readTextValue) with optional := true } ]

/-- The request that some parts make up. `scope` goes before the names of fields in errors; of
several errors the one of the first field counts. -/
def Parts.toRequest (parts : Parts) (scope : String) (id : String) :
    Except Malformed Request := do
  let method ← require (scope ++ "method") parts.method.join
  let path ← require (scope ++ "path") parts.path.join
  let headers := (parts.headers.join.map readHeaders).getD Dictionary.empty
  let body ← readBody (scope ++ "body") parts.body.join
  return {
    id
    method := Text.upper (Text.trim method)
    path := Text.trim path
    headers
    body
    version := Request.versionOf headers }

/-- The headers of a reply on the wire: those of the response, its content type or else JSON,
and the length of its body as a number. -/
def replyHeaders (r : Response) : Dictionary Json.Value :=
  let others := r.headers.filter fun h =>
    !(Text.sameIgnoringCase h.1 Headers.contentType ||
      Text.sameIgnoringCase h.1 Headers.contentLength)
  ((others.filterMap fun v => some (Json.Value.text v)).insert Headers.contentType
    (.text ((r.header Headers.contentType).getD Headers.jsonType))).insert
    Headers.contentLength (.nat r.body.length)

end RequestBus.Wire
