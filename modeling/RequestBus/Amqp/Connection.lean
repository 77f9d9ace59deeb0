import RequestBus.Amqp.State
import RequestBus.Connection.Life

/-! The life of an AMQP connection. A run tries to reach the broker again and again, with a wait
after every failure and every lost session, until it is asked to stop or the broker refuses the
credentials of a connection that was never open. Then the connection closes: it takes no more
messages, waits for its workers, and detaches its replies. -/
namespace RequestBus

/-- The publisher of a transport whose channel says what goes wrong with a publication, if anything
does. -/
def Amqp.publisher (fault? : Bytes → Destination → Option String) : Publisher := fun payload dest =>
  match dest with
  | .amqp .. =>
    match fault? payload dest with
    | some text => .error (.amqp text)
    | none => .ok ()
  | dest => .error (.destination dest.shown)

inductive AmqpPhase where
  | idle
  | deciding
  | connecting
  | opened
  | serving
  | waiting
  | draining (result : Except BusError Unit)
  | ended (result : Except BusError Unit)

/-- An AMQP connection, and the position of its dispatcher. -/
structure AmqpConnection where
  name : String
  dispatcher : Nat
  state : AmqpState := .disconnected
  phase : AmqpPhase := .idle
  wasConnected : Bool := false
  stopping : Bool := false

namespace AmqpConnection

def apply (c : AmqpConnection) (d : Dispatcher) (e : AmqpEvent) : AmqpConnection × Deeds :=
  let next := c.state.next e
  ({ c with state := next }, .showing c.dispatcher d.state next.shown)

def reset (c : AmqpConnection) (d : Dispatcher) : AmqpConnection × Deeds :=
  ({ c with state := .disconnected }, .showing c.dispatcher d.state .disconnected)

def beginClose (c : AmqpConnection) (d : Dispatcher) (result : Except BusError Unit) :
    AmqpConnection × Deeds :=
  let (c, deeds) := c.apply d .shutdownRequested
  ({ c with phase := .draining result }, deeds ++ .take (.shutDown c.dispatcher))

def finishClose (c : AmqpConnection) (d : Dispatcher) (result : Except BusError Unit) :
    AmqpConnection × Deeds :=
  let (c, deeds) := c.apply d .closed
  ({ c with phase := .ended result }, .take (.detach c.dispatcher) ++ deeds)

/-- Goes on as far as possible without anything from outside. -/
def proceed (c : AmqpConnection) (d : Dispatcher) : AmqpConnection × Deeds :=
  match c.phase with
  | .deciding =>
    if c.stopping then c.beginClose d (.ok ())
    else
      let (c, deeds) := c.apply d .connect
      ({ c with phase := .connecting }, deeds)
  | .serving => if c.stopping then c.beginClose d (.ok ()) else (c, {})
  | .waiting => (if c.stopping then { c with phase := .deciding } else c, {})
  | .draining result => if d.pool.isDrained then c.finishClose d result else (c, {})
  | _ => (c, {})

def fallBack (c : AmqpConnection) (d : Dispatcher) : AmqpConnection × Deeds :=
  let (c, deeds) := c.apply d .connectionLost
  ({ c with phase := .waiting }, deeds)

/-- The attempt to reach the broker fails. Credentials that were never accepted end the run. -/
def fail (c : AmqpConnection) (d : Dispatcher) (refused : Bool) (text : String) :
    AmqpConnection × Deeds :=
  let (c, deeds) :=
    if refused && !c.wasConnected then c.beginClose d (.error (.authentication text))
    else c.fallBack d
  (c, .report (.error text) ++ deeds)

def establish (c : AmqpConnection) (d : Dispatcher) (publisher : Publisher) :
    AmqpConnection × Deeds :=
  let (c, deeds) := c.apply d .queueBound
  ({ c with phase := .opened, wasConnected := true },
    deeds ++ .take (.attach c.dispatcher publisher))

def serve (c : AmqpConnection) (d : Dispatcher) : AmqpConnection × Deeds :=
  let (c, deeds) := c.apply d .consumerStarted
  ({ c with phase := .serving }, deeds ++ .report .ok)

/-- There is no consumer to be had over the transport. -/
def abandon (c : AmqpConnection) (d : Dispatcher) (text : String) : AmqpConnection × Deeds :=
  let (c, deeds) := c.fallBack d
  (c, .report (.error text) ++ .take (.detach c.dispatcher) ++ deeds)

def lose (c : AmqpConnection) (d : Dispatcher) : AmqpConnection × Deeds :=
  let (c, ended) := c.apply d .channelClosed
  let (c, fallen) := c.fallBack { d with state := c.state.shown }
  (c, ended ++ .take (.detach c.dispatcher) ++ fallen)

def signal (c : AmqpConnection) (d : Dispatcher) (s : Signal) : AmqpConnection × Deeds :=
  match s, c.phase with
  | .start, .idle | .start, .ended _ =>
    let (c, deeds) := c.reset d
    ({ c with phase := .deciding, wasConnected := false }, deeds)
  | .stop, _ => ({ c with stopping := true }, {})
  | .proceed, _ => c.proceed d
  | .failed refused text, .connecting => c.fail d refused text
  | .failed _ text, .opened => c.abandon d text
  | .elapsed, .waiting => ({ c with phase := .deciding }, {})
  | .setUp e, .connecting => if e.isPartial then c.apply d e else (c, {})
  | .opened publisher, .connecting =>
    if c.state = .exchangeVerified then c.establish d publisher else (c, {})
  | .consuming, .opened => c.serve d
  | .lost, .serving => c.lose d
  | _, _ => (c, {})

end AmqpConnection

end RequestBus
