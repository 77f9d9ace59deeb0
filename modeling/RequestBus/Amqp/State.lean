import RequestBus.Connection.State

namespace RequestBus

inductive AmqpState where
  | disconnected
  | connecting
  | channelOpen
  | exchangeVerified
  | queueBound
  | subscribed
  | closing
  | closed
  deriving DecidableEq, Repr

inductive AmqpEvent where
  | connect
  | channelOpened
  | exchangeVerified
  | queueBound
  | consumerStarted
  | connectionLost
  | channelClosed
  | shutdownRequested
  | closed
  deriving DecidableEq, Repr

namespace AmqpEvent

def name : AmqpEvent → String
  | .connect => "connect"
  | .channelOpened => "channel_opened"
  | .exchangeVerified => "exchange_verified"
  | .queueBound => "queue_bound"
  | .consumerStarted => "consumer_started"
  | .connectionLost => "connection_lost"
  | .channelClosed => "channel_closed"
  | .shutdownRequested => "shutdown_requested"
  | .closed => "closed"

def all : List AmqpEvent :=
  [ .connect, .channelOpened, .exchangeVerified, .queueBound, .consumerStarted, .connectionLost,
    .channelClosed, .shutdownRequested, .closed ]

def ofName? (name : String) : Option AmqpEvent := all.find? fun e => e.name == name

def isPartial : AmqpEvent → Bool
  | .channelOpened | .exchangeVerified => true
  | _ => false

end AmqpEvent

namespace AmqpState

def name : AmqpState → String
  | .disconnected => "disconnected"
  | .connecting => "connecting"
  | .channelOpen => "channel_open"
  | .exchangeVerified => "exchange_verified"
  | .queueBound => "queue_bound"
  | .subscribed => "subscribed"
  | .closing => "closing"
  | .closed => "closed"

def all : List AmqpState :=
  [ .disconnected, .connecting, .channelOpen, .exchangeVerified, .queueBound, .subscribed,
    .closing, .closed ]

def ofName? (name : String) : Option AmqpState := all.find? fun s => s.name == name

/-- The state after an event. An event that makes no sense in a state changes nothing; once a
connection is closing, its loss changes nothing either. -/
def next (s : AmqpState) (e : AmqpEvent) : AmqpState :=
  match s, e with
  | .closing, .connectionLost | .closing, .channelClosed
  | .closed, .connectionLost | .closed, .channelClosed => s
  | .closed, .shutdownRequested => .closed
  | _, .shutdownRequested => .closing
  | .closing, .closed => .closed
  | _, .connectionLost | _, .channelClosed => .disconnected
  | .disconnected, .connect => .connecting
  | .connecting, .channelOpened => .channelOpen
  | .channelOpen, .exchangeVerified => .exchangeVerified
  | .exchangeVerified, .queueBound => .queueBound
  | .queueBound, .consumerStarted => .subscribed
  | _, _ => s

def shown : AmqpState → ConnectionState
  | .disconnected => .disconnected
  | .connecting | .channelOpen | .exchangeVerified | .queueBound => .connecting
  | .subscribed => .subscribed
  | .closing => .closing
  | .closed => .closed

end AmqpState

end RequestBus
