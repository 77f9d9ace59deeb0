import RequestBus.Connection.Error

namespace RequestBus

inductive Destination where
  | amqp (exchange routingKey : String) (correlation : Option String)
  | mqtt (topic : String)
  deriving DecidableEq, Repr

def Destination.shown : Destination → String
  | .amqp exchange routingKey _ => "amqp://" ++ exchange ++ "/" ++ routingKey
  | .mqtt topic => "mqtt://" ++ topic

abbrev Publisher := Bytes → Destination → Except BusError Unit

structure ReplyChannel where
  name : String
  publisher : Option Publisher := none

namespace ReplyChannel

def isAttached (c : ReplyChannel) : Bool := c.publisher.isSome

def attach (c : ReplyChannel) (p : Publisher) : ReplyChannel := { c with publisher := some p }

def detach (c : ReplyChannel) : ReplyChannel := { c with publisher := none }

def publish (c : ReplyChannel) (payload : Bytes) (dest : Destination) : Except BusError Unit :=
  match c.publisher with
  | some p => p payload dest
  | none => .error (.notConnected c.name)

end ReplyChannel

end RequestBus
