import RequestBus.Connection.Life
import RequestBus.Mqtt.Client

/-! The life of an MQTT connection. Its replies are attached for as long as a run lasts. A run
asks the client for news, and subscribes once the broker has accepted it; after a failure it pauses
and asks again, until it is to stop or the broker refuses the credentials of a client that was never
connected. Then the connection closes: it takes no more messages, waits for its workers, detaches
its replies and disconnects. -/
namespace RequestBus

inductive MqttPhase where
  | idle
  | polling
  | pausing
  | draining
  | disconnecting
  | ended (result : Except BusError Unit)

/-- An MQTT connection, and the position of its dispatcher. -/
structure MqttConnection where
  name : String
  dispatcher : Nat
  phase : MqttPhase := .idle
  wasConnected : Bool := false
  subscription : Mqtt.Subscription := {}
  stopping : Bool := false

namespace MqttConnection

def showing (c : MqttConnection) (d : Dispatcher) (s : ConnectionState) : Deeds :=
  .showing c.dispatcher d.state s

def beginClose (c : MqttConnection) (d : Dispatcher) : MqttConnection × Deeds :=
  ({ c with phase := .draining }, c.showing d .closing ++ .take (.shutDown c.dispatcher))

/-- Goes on as far as possible without anything from outside. -/
def proceed (c : MqttConnection) (d : Dispatcher) : MqttConnection × Deeds :=
  match c.phase with
  | .polling | .pausing => if c.stopping then c.beginClose d else (c, {})
  | .draining =>
    if d.pool.isDrained then ({ c with phase := .disconnecting }, .take (.detach c.dispatcher))
    else (c, {})
  | .disconnecting => ({ c with phase := .ended (.ok ()) }, c.showing d .closed)
  | _ => (c, {})

def welcome (c : MqttConnection) : MqttConnection :=
  { c with wasConnected := true, subscription := c.subscription.connected }

def subscribe (c : MqttConnection) (d : Dispatcher) (queued : Bool) : MqttConnection × Deeds :=
  match c.subscription.attempt (if queued then .ok () else .error ()) with
  | (.ok true, _, subscription) =>
    ({ c with subscription }, c.showing d .subscribed ++ .report .ok)
  | (_, _, subscription) => ({ c with subscription }, {})

/-- The client has news. After any of them it may be time to subscribe. -/
def poll (c : MqttConnection) (d : Dispatcher) (accepted queued : Bool) : MqttConnection × Deeds :=
  (if accepted then c.welcome else c).subscribe d queued

/-- The client reports a failure. Refused credentials end the run at once. -/
def fail (c : MqttConnection) (d : Dispatcher) (refused : Bool) (text : String) :
    MqttConnection × Deeds :=
  if refused && !c.wasConnected then
    ({ c with phase := .ended (.error (.authentication text)) },
      .report (.error text) ++ .take (.shutDown c.dispatcher) ++ .take (.detach c.dispatcher) ++
        c.showing d .closed)
  else
    ({ c with phase := .pausing, subscription := c.subscription.lost },
      c.showing d .disconnected ++ .report (.error text))

def signal (c : MqttConnection) (d : Dispatcher) (s : Signal) : MqttConnection × Deeds :=
  match s, c.phase with
  | .start, .idle | .start, .ended _ =>
    ({ c with phase := .polling, wasConnected := false, subscription := {} },
      .take (.attach c.dispatcher (Mqtt.publisher true)) ++ c.showing d .connecting)
  | .stop, _ => ({ c with stopping := true }, {})
  | .proceed, _ => c.proceed d
  | .failed refused text, .polling => c.fail d refused text
  | .polled accepted queued, .polling => c.poll d accepted queued
  | .elapsed, .pausing => ({ c with phase := .polling }, c.showing d .connecting)
  | _, _ => (c, {})

end MqttConnection

end RequestBus
