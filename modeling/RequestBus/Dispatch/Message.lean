import RequestBus.Dispatch.Reply
import RequestBus.Text.Blank
import RequestBus.Wire.Codec

namespace RequestBus

/-- A message that a broker delivers. What an MQTT broker delivers has a body and nothing
else. -/
structure Message where
  body : Bytes
  replyTo : Option String := none
  correlation : Option String := none
  replyExchange : Option String := none
  deriving DecidableEq, Repr

inductive ReplyRoute where
  /-- Through this exchange where the message names none, to the queue that it names. -/
  | amqp (exchange : String)
  | mqtt (topic : String)
  deriving DecidableEq, Repr

namespace ReplyRoute

def protocol : ReplyRoute → Protocol
  | .amqp _ => .amqp
  | .mqtt _ => .mqtt

def destination? : ReplyRoute → Message → Option Destination
  | .amqp exchange, m =>
    (m.replyTo.bind Text.given?).map fun queue =>
      .amqp ((m.replyExchange.bind Text.given?).getD exchange) queue m.correlation
  | .mqtt topic, _ => some (.mqtt topic)

end ReplyRoute

inductive Outcome where
  /-- The connection takes no more messages. -/
  | dropped
  | rejected
  | malformed
  | overloaded
  | submitted
  deriving DecidableEq, Repr

def Outcome.name : Outcome → String
  | .dropped => "dropped"
  | .rejected => "rejected"
  | .malformed => "malformed"
  | .overloaded => "overloaded"
  | .submitted => "submitted"

structure Job where
  protocol : Protocol
  body : Bytes
  id : String
  dest : Destination
  deriving DecidableEq, Repr

def Job.request (j : Job) : Except Response Request :=
  (j.protocol.readRequest j.body).mapError fun m => m.response j.id

/-- The reply of a worker: the handler's, if it gives one, or what there is to say without a
request to handle. -/
def Job.answer (j : Job) (reply : Option Response) : Option Response :=
  match j.request with
  | .ok _ => reply
  | .error refusal => some refusal

end RequestBus
