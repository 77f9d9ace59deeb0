namespace RequestBus

inductive ConnectionState where
  | disconnected
  | connecting
  | subscribed
  | closing
  | closed
  deriving DecidableEq, Repr

namespace ConnectionState

def name : ConnectionState → String
  | .disconnected => "disconnected"
  | .connecting => "connecting"
  | .subscribed => "subscribed"
  | .closing => "closing"
  | .closed => "closed"

def all : List ConnectionState := [.disconnected, .connecting, .subscribed, .closing, .closed]

def ofName? (name : String) : Option ConnectionState := all.find? fun s => s.name == name

/-- Messages that arrive must not be acted on. -/
def isShuttingDown : ConnectionState → Bool
  | .closing | .closed => true
  | _ => false

end ConnectionState

end RequestBus
