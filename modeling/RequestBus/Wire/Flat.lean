import RequestBus.Wire.Parts

/-! The flat wire format, used over AMQP. A request is one object with the id and the parts side
by side; a reply is one object with id, headers, status code and body. -/
namespace RequestBus.Wire.Flat

def idRecord : Json.Record (Option (Option String)) :=
  { name := "RequestIdOnly"
    members :=
      [ { Json.Member.ofField "id" id (fun _ v => some v)
            (fun _ => Json.readNullable Json.readTextValue) with optional := true } ] }

def peekId (raw : Bytes) : Except Malformed String := do
  let id ← (Json.readWhole (idRecord.read none Json.nesting) raw).mapError .json
  require "id" id.join

structure Draft where
  id : Option (Option String) := none
  parts : Parts := {}

def requestRecord : Json.Record Draft :=
  { name := "WireRequest"
    members :=
      { Json.Member.ofField "id" Draft.id (fun d v => { d with id := some v })
          (fun _ => Json.readNullable Json.readTextValue) with optional := true } ::
      Parts.members.map fun m => m.inside Draft.parts fun d p => { d with parts := p } }

def readRequest (raw : Bytes) : Except Malformed Request := do
  let draft ← (Json.readWhole (requestRecord.read {} Json.nesting) raw).mapError .json
  let id ← require "id" draft.id.join
  draft.parts.toRequest "" id

def writeReply (r : Response) : Bytes :=
  Utf8.encodeChars (Json.writeObject
    [ ("id", Json.writeText r.id),
      ("headers", (Json.Value.object (replyHeaders r).entries).write),
      ("statusCode", Decimal.digits r.status.toNat),
      ("body", Json.writeText (Base64.encode r.body)),
      ("request", (Json.Value.flag false).write) ])

structure ReplyDraft where
  id : Option String := none
  headers : Option (Dictionary Json.Value) := none
  status : Option Nat := none
  body : Option String := none
  request : Option Bool := none

def replyRecord : Json.Record ReplyDraft :=
  { name := "WireReply"
    members :=
      [ Json.Member.ofField "id" ReplyDraft.id (fun d v => { d with id := some v })
          (fun _ => Json.readTextValue),
        Json.Member.ofField "headers" ReplyDraft.headers (fun d v => { d with headers := some v })
          Json.readObjectValue,
        Json.Member.ofField "statusCode" ReplyDraft.status
          (fun d v => { d with status := some v })
          (fun _ => Json.readUnsigned "u16" UInt16.size),
        Json.Member.ofField "body" ReplyDraft.body (fun d v => { d with body := some v })
          (fun _ => Json.readTextValue),
        Json.Member.ofField "request" ReplyDraft.request (fun d v => { d with request := some v })
          (fun _ => Json.readFlag) ] }

def readReply (raw : Bytes) : Except Malformed Response := do
  let draft ← (Json.readWhole (replyRecord.read {} Json.nesting) raw).mapError .json
  let body ← readBody "body" draft.body
  return {
    id := draft.id.getD ""
    status := UInt16.ofNat (draft.status.getD 0)
    headers := readHeaders (draft.headers.getD Dictionary.empty)
    body }

end RequestBus.Wire.Flat
