import RequestBus.Amqp.Connection
import RequestBus.Connection.Identity
import RequestBus.Dispatch.Turns
import RequestBus.Mqtt.Connection

namespace RequestBus

inductive Connection where
  | amqp (c : AmqpConnection)
  | mqtt (c : MqttConnection)

namespace Connection

def name : Connection → String
  | .amqp c => c.name
  | .mqtt c => c.name

def dispatcher : Connection → Nat
  | .amqp c => c.dispatcher
  | .mqtt c => c.dispatcher

def protocol : Connection → Protocol
  | .amqp _ => .amqp
  | .mqtt _ => .mqtt

def result? : Connection → Option (Except BusError Unit)
  | .amqp c =>
    match c.phase with
    | .ended result => some result
    | _ => none
  | .mqtt c =>
    match c.phase with
    | .ended result => some result
    | _ => none

def renew : Connection → Connection
  | .amqp c => .amqp { c with stopping := false }
  | .mqtt c => .mqtt { c with stopping := false }

def signal (c : Connection) (d : Dispatcher) (s : Signal) : Connection × Deeds :=
  match c with
  | .amqp c =>
    let (c, deeds) := c.signal d s
    (.amqp c, deeds)
  | .mqtt c =>
    let (c, deeds) := c.signal d s
    (.mqtt c, deeds)

def ofIdentity (i : Identity) (dispatcher : Nat) : Connection :=
  match i.route with
  | .amqp _ => .amqp { name := i.name, dispatcher }
  | .mqtt _ => .mqtt { name := i.name, dispatcher }

end Connection

/-- Connections with their workers, and the health of the program. -/
structure Fleet where
  connections : List Connection
  shop : Workshop
  health : Health := Dictionary.empty

namespace Fleet

/-- The connections that settings ask for, before their first run. Those of AMQP share the
registry. -/
def ofSettings (s : Settings) (registry : Registry) (handler : Request → Handling) :
    Except String Fleet := do
  let dispatchers ← s.dispatchers
  return { connections := s.identities.zipIdx.map fun e => .ofIdentity e.1 e.2
           shop := { world := .ofDispatchers registry dispatchers, handler } }

def dispatcher? (f : Fleet) (c : Connection) : Option Dispatcher :=
  f.shop.dispatcher? c.dispatcher

def act (f : Fleet) (now : String) (i : Nat)
    (deed : Connection → Dispatcher → Connection × Deeds) : Fleet :=
  match f.connections[i]? with
  | none => f
  | some c =>
    match f.dispatcher? c with
    | none => f
    | some d =>
      let (c, deeds) := deed c d
      { connections := f.connections.set i c
        shop := { f.shop with world := f.shop.world.run deeds.events }
        health := f.health.markAll now c.name deeds.reports }

def signals (f : Fleet) (now : String) (i : Nat) (ss : List Signal) : Fleet :=
  ss.foldl (fun f s => f.act now i fun c d => c.signal d s) f

def signalAll (f : Fleet) (now : String) (ss : List Signal) : Fleet :=
  (List.range f.connections.length).foldl (fun f i => f.signals now i ss) f

/-- Lets workers and connections go on until all of them wait for something, while every
attempt to reach a broker fails at once with a text. A connection has closed after two rounds
at most. -/
def settle (f : Fleet) (now failure : String) : Fleet :=
  round (round f)
where
  round (f : Fleet) : Fleet :=
    { f with shop := f.shop.settle }.signalAll now
      [.proceed, .proceed, .failed false failure, .proceed, .proceed, .proceed, .proceed]

end Fleet

end RequestBus
