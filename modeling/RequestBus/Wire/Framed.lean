import RequestBus.Wire.Parts

/-! The framed wire format, used over MQTT. A frame carries the id among its own headers. In a
request the rest is an object inside the frame, written as JSON and then as base64; in a reply
it is an object beside the headers. -/
namespace RequestBus.Wire.Framed

/-- The headers of a frame: nothing but the id. -/
abbrev FrameHeaders := Option (Option String)

def headersRecord : Json.Record FrameHeaders :=
  { name := "FrameHeaders"
    members :=
      [ { Json.Member.ofField "requestId" id (fun _ v => some v)
            (fun _ => Json.readNullable Json.readTextValue) with optional := true } ] }

def idRecord : Json.Record (Option FrameHeaders) :=
  { name := "Partial"
    members :=
      [ { Json.Member.ofField "headers" id (fun _ v => some v)
            (headersRecord.read none) with optional := true } ] }

def requireId (headers : Option FrameHeaders) : Except Malformed String :=
  require "headers.requestId" headers.join.join

def peekId (raw : Bytes) : Except Malformed String := do
  let headers ← (Json.readWhole (idRecord.read none Json.nesting) raw).mapError .json
  requireId headers

structure Draft where
  headers : Option FrameHeaders := none
  content : Option (Option String) := none

def frameRecord : Json.Record Draft :=
  { name := "RequestFrame"
    members :=
      [ { Json.Member.ofField "headers" Draft.headers (fun d v => { d with headers := some v })
            (headersRecord.read none) with optional := true },
        { Json.Member.ofField "httpRequest" Draft.content
            (fun d v => { d with content := some v })
            (fun _ => Json.readNullable Json.readTextValue) with optional := true } ] }

def messageRecord : Json.Record Parts := { name := "InnerMessage", members := Parts.members }

def contentRecord : Json.Record (Option Parts) :=
  { name := "InnerRequest"
    members :=
      [ Json.Member.ofField "message" id (fun _ v => some v) (messageRecord.read {}) ] }

def readRequest (raw : Bytes) : Except Malformed Request := do
  let draft ← (Json.readWhole (frameRecord.read {} Json.nesting) raw).mapError .json
  let id ← requireId draft.headers
  let encoded ← require "httpRequest" draft.content.join
  let content ← readBase64 "httpRequest" encoded
  let parts ← (Json.readWhole (contentRecord.read none Json.nesting) content).mapError .json
  (parts.getD {}).toRequest "message." id

def requestContent (r : Request) : Json.Value :=
  .object
    [ ("message",
        .object
          [ ("body", .text (Base64.encode r.body)),
            ("headers", .object (r.headers.entries.map fun h => (h.1, .text h.2))),
            ("method", .text r.method),
            ("path", .text r.path) ]) ]

def writeRequest (r : Request) : Bytes :=
  Json.Value.bytes
    (.object
      [ ("headers", .object [("requestId", .text r.id)]),
        ("httpRequest", .text (Base64.encode (requestContent r).bytes)),
        ("type", .text "API_REQUEST") ])

def writeReply (r : Response) : Bytes :=
  Utf8.encodeChars (Json.writeObject
    [ ("type", Json.writeText "API_RESPONSE"),
      ("headers", Json.writeObject [("requestId", Json.writeText r.id)]),
      ("httpResponse", Json.writeObject
        [ ("statusCode", Decimal.digits r.status.toNat),
          ("headers", (Json.Value.object (replyHeaders r).entries).write),
          ("body", Json.writeText (Base64.encode r.body)) ]) ])

structure ResponseDraft where
  status : Option Nat := none
  headers : Option (Dictionary Json.Value) := none
  body : Option String := none

def responseRecord : Json.Record ResponseDraft :=
  { name := "HttpResponse"
    members :=
      [ Json.Member.ofField "statusCode" ResponseDraft.status
          (fun d v => { d with status := some v })
          (fun _ => Json.readUnsigned "u16" UInt16.size),
        Json.Member.ofField "headers" ResponseDraft.headers
          (fun d v => { d with headers := some v }) Json.readObjectValue,
        Json.Member.ofField "body" ResponseDraft.body (fun d v => { d with body := some v })
          (fun _ => Json.readTextValue) ] }

structure ReplyDraft where
  kind : Option String := none
  headers : Option FrameHeaders := none
  content : Option ResponseDraft := none

def replyRecord : Json.Record ReplyDraft :=
  { name := "ResponseFrame"
    members :=
      [ Json.Member.ofField "type" ReplyDraft.kind (fun d v => { d with kind := some v })
          (fun _ => Json.readTextValue),
        Json.Member.ofField "headers" ReplyDraft.headers (fun d v => { d with headers := some v })
          (headersRecord.read none),
        Json.Member.ofField "httpResponse" ReplyDraft.content
          (fun d v => { d with content := some v }) (responseRecord.read {}) ] }

/-- Reads a reply. A frame without an id answers the empty id. -/
def readReply (raw : Bytes) : Except Malformed Response := do
  let draft ← (Json.readWhole (replyRecord.read {} Json.nesting) raw).mapError .json
  let content := draft.content.getD {}
  let body ← readBody "httpResponse.body" content.body
  return {
    id := draft.headers.join.join.getD ""
    status := UInt16.ofNat (content.status.getD 0)
    headers := readHeaders (content.headers.getD Dictionary.empty)
    body }

end RequestBus.Wire.Framed
