import RequestBus.Decimal.Natural
import RequestBus.Dispatch.World
import RequestBus.Settings.Basic

namespace RequestBus

structure Identity where
  name : String
  route : ReplyRoute
  deriving DecidableEq, Repr

/-- The names of a number of AMQP connections: numbered, unless there is only one. -/
def consumerNames (count : Nat) : List String :=
  if count = 1 then ["amqp"]
  else (List.range count).map fun i => "amqp-" ++ Decimal.natText i

namespace Settings

/-- The AMQP connections, of which there is at least one where a broker is given. -/
def amqpIdentities (s : Settings) : List Identity :=
  match s.amqp with
  | some a => (consumerNames (max a.consumers.toNat 1)).map fun name => ⟨name, .amqp a.exchange⟩
  | none => []

def mqttIdentities (s : Settings) : List Identity :=
  match s.mqtt with
  | some m => [⟨"mqtt", .mqtt m.respondTopic⟩]
  | none => []

def identities (s : Settings) : List Identity := s.amqpIdentities ++ s.mqttIdentities

def dispatchers (s : Settings) : Except String (List Dispatcher) :=
  s.identities.mapM fun i => Dispatcher.create i.name i.route s.dispatch.poolSize.toNat

def registry (s : Settings) : Registry := .ofCapacity s.dispatch.registryCapacity.toNat

end Settings

end RequestBus
