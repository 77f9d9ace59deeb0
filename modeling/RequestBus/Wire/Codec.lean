import RequestBus.Wire.Flat
import RequestBus.Wire.Framed

namespace RequestBus

inductive Protocol where
  | amqp
  | mqtt
  deriving DecidableEq, Repr

namespace Protocol

def name : Protocol → String
  | .amqp => "amqp"
  | .mqtt => "mqtt"

def peekId : Protocol → Bytes → Except Malformed String
  | .amqp => Wire.Flat.peekId
  | .mqtt => Wire.Framed.peekId

def readRequest : Protocol → Bytes → Except Malformed Request
  | .amqp => Wire.Flat.readRequest
  | .mqtt => Wire.Framed.readRequest

def writeReply : Protocol → Response → Bytes
  | .amqp => Wire.Flat.writeReply
  | .mqtt => Wire.Framed.writeReply

def readReply : Protocol → Bytes → Except Malformed Response
  | .amqp => Wire.Flat.readReply
  | .mqtt => Wire.Framed.readReply

end Protocol

end RequestBus
