import RequestBus.Connection.State
import RequestBus.Dispatch.Message
import RequestBus.Dispatch.Pool
import RequestBus.Dispatch.Registry

/-! Dispatchers at work. Each connection has a dispatcher with workers of its own; those of AMQP
share one registry of the requests in flight. A world holds all of them, and changes in small
steps: a message arrives, an answer from a broker arrives, a worker begins or ends, a
connection changes its state. Any order of steps is possible, so whatever holds after every run
holds however the dispatchers and their workers interleave. -/
namespace RequestBus

/-- What a dispatcher that settles a message over AMQP is waiting for. -/
inductive Call where
  | rejecting (ticket : Nat)
  /-- The acknowledgement of a message without an id. -/
  | refusing (ticket : Nat) (reply : Response) (dest : Destination)
  /-- The acknowledgement of a message whose id was accepted. -/
  | accepting (ticket : Nat) (job : Job)
  /-- The publication of the answer that every worker is busy. -/
  | answering (ticket : Nat) (job : Job)

structure Dispatcher where
  route : ReplyRoute
  state : ConnectionState := .disconnected
  pool : Pool Job
  replies : ReplyChannel
  call : Option Call := none
  /-- Answers on their way that nobody waits for. -/
  outbox : List (Nat × Response) := []

def Dispatcher.new (name : String) (route : ReplyRoute) (workers : Nat) : Dispatcher :=
  { route, pool := Pool.ofCapacity (name ++ "-workers") workers, replies := { name } }

def Dispatcher.create (name : String) (route : ReplyRoute) (workers : Nat) :
    Except String Dispatcher := do
  let pool ← Pool.create (name ++ "-workers") workers
  return { Dispatcher.new name route workers with pool }

inductive Record where
  | received (ticket dispatcher : Nat) (message : Message)
  | accepted (ticket : Nat) (id : String)
  | evicted (id : String)
  | acknowledged (ticket : Nat) (worked : Bool)
  | rejected (ticket : Nat) (worked : Bool)
  | decided (ticket : Nat) (outcome : Outcome)
  | invoked (ticket : Nat) (request : Request)
  /-- A reply was handed to the channel, and reached the transport or not. -/
  | handed (ticket : Nat) (payload : Bytes) (dest : Destination) (reached : Bool)
  | released (ticket : Nat) (id : String)
  /-- The worker of a message ended, by a crash of the handler or not. -/
  | ended (ticket : Nat) (crashed : Bool)
  deriving DecidableEq

/-- All dispatchers, the registry that those of AMQP share, and what has happened so far. -/
structure World where
  registry : Registry
  dispatchers : List Dispatcher
  issued : Nat := 0
  /-- The latest first. -/
  history : List Record := []

/-- A step. Dispatchers are named by their position, messages and their workers by their
ticket. -/
inductive Event where
  | receive (dispatcher : Nat) (message : Message)
  /-- What the dispatcher waits for is over, and has worked or not. -/
  | resume (dispatcher : Nat) (worked : Bool)
  | advance (dispatcher ticket : Nat)
  /-- A worker ends: with the handler's reply, or without one if the handler crashes. -/
  | finish (dispatcher ticket : Nat) (reply : Option Response)
  | send (dispatcher ticket : Nat)
  | setState (dispatcher : Nat) (state : ConnectionState)
  | attach (dispatcher : Nat) (publisher : Publisher)
  | detach (dispatcher : Nat)
  | shutDown (dispatcher : Nat)

namespace World

def ofDispatchers (registry : Registry) (dispatchers : List Dispatcher) : World :=
  { registry, dispatchers }

def record (w : World) (r : Record) : World := { w with history := r :: w.history }

def put (w : World) (i : Nat) (d : Dispatcher) : World :=
  { w with dispatchers := w.dispatchers.set i d }

def hand (w : World) (d : Dispatcher) (ticket : Nat) (reply : Response) (dest : Destination) :
    World :=
  let payload := d.route.protocol.writeReply reply
  w.record (.handed ticket payload dest (d.replies.publish payload dest).isOk)

def release (w : World) (ticket : Nat) (id : String) : World :=
  { w with registry := w.registry.release id }.record (.released ticket id)

def accept (w : World) (ticket : Nat) (id : String) : Bool × World :=
  let victim := w.registry.evicted? id
  let (new, registry) := w.registry.accept id
  let w := { w with registry }
  if new then
    (true, (match victim with
      | some v => w.record (.evicted v)
      | none => w).record (.accepted ticket id))
  else (false, w)

def submit (w : World) (i : Nat) (d : Dispatcher) (ticket : Nat) (job : Job) : World :=
  let (taken, pool) := d.pool.submit ticket job
  let w := w.put i { d with pool, call := none }
  if taken then w.record (.decided ticket .submitted)
  else
    (match job.protocol with
      | .amqp => w.release ticket job.id
      | .mqtt => w).record (.decided ticket .dropped)

/-- Decides about a message of an AMQP connection up to the first answer of the broker that the
decision waits for. -/
def receiveAmqp (w : World) (i : Nat) (d : Dispatcher) (ticket : Nat) (m : Message) : World :=
  match d.route.destination? m with
  | none => w.put i { d with call := some (.rejecting ticket) }
  | some dest =>
    match Protocol.amqp.peekId m.body with
    | .error e => w.put i { d with call := some (.refusing ticket (e.response "") dest) }
    | .ok id =>
      let (new, w) := w.accept ticket id
      w.put i { d with
        call := some (if new then .accepting ticket ⟨.amqp, m.body, id, dest⟩
          else .rejecting ticket) }

def receiveMqtt (w : World) (i : Nat) (d : Dispatcher) (ticket : Nat) (topic : String)
    (m : Message) : World :=
  match Protocol.mqtt.peekId m.body with
  | .error _ => w.record (.decided ticket .malformed)
  | .ok id =>
    if d.pool.isSaturated then
      (w.put i { d with outbox := d.outbox ++ [(ticket, Response.overloaded id)] }).record
        (.decided ticket .overloaded)
    else w.submit i d ticket ⟨.mqtt, m.body, id, .mqtt topic⟩

def receive (w : World) (i : Nat) (d : Dispatcher) (m : Message) : World :=
  if d.call.isSome then w
  else
    let ticket := w.issued
    let w := { w with issued := ticket + 1 }.record (.received ticket i m)
    if d.state.isShuttingDown then w.record (.decided ticket .dropped)
    else
      match d.route with
      | .amqp _ => w.receiveAmqp i d ticket m
      | .mqtt topic => w.receiveMqtt i d ticket topic m

def resume (w : World) (i : Nat) (d : Dispatcher) (worked : Bool) : World :=
  match d.call with
  | none => w
  | some (.rejecting ticket) =>
    ((w.put i { d with call := none }).record (.rejected ticket worked)).record
      (.decided ticket .rejected)
  | some (.refusing ticket reply dest) =>
    (((w.put i { d with call := none }).record (.acknowledged ticket worked)).hand d ticket reply
      dest).record (.decided ticket .malformed)
  | some (.accepting ticket job) =>
    let w := w.record (.acknowledged ticket worked)
    if d.pool.isSaturated then w.put i { d with call := some (.answering ticket job) }
    else w.submit i d ticket job
  | some (.answering ticket job) =>
    (((w.put i { d with call := none }).hand d ticket (Response.overloaded job.id) job.dest).release
      ticket job.id).record (.decided ticket .overloaded)

/-- Lets a worker run that has not begun. One that begins gives the request to the handler, if
there is a request. -/
def advance (w : World) (i : Nat) (d : Dispatcher) (ticket : Nat) : World :=
  match d.pool.task? ticket with
  | none => w
  | some before =>
    let pool := d.pool.advance ticket
    let w := w.put i { d with pool }
    if before.stage ≠ .running ∧ (pool.task? ticket).any fun t => t.stage == .running then
      match before.job.request with
      | .ok request => w.record (.invoked ticket request)
      | .error _ => w
    else w

/-- Ends a worker that has begun. Its reply is the handler's, or says why there was no request
to handle. -/
def finish (w : World) (i : Nat) (d : Dispatcher) (ticket : Nat) (reply : Option Response) :
    World :=
  match d.pool.task? ticket with
  | some ⟨_, job, .running⟩ =>
    let reply := job.answer reply
    let w := match reply with
      | some reply => w.hand d ticket reply job.dest
      | none => w
    let w := w.put i { d with pool := d.pool.finish ticket }
    (match job.protocol with
      | .amqp => w.release ticket job.id
      | .mqtt => w).record (.ended ticket reply.isNone)
  | _ => w

def send (w : World) (i : Nat) (d : Dispatcher) (ticket : Nat) : World :=
  match d.route, d.outbox.find? fun note => note.1 == ticket with
  | .mqtt topic, some (_, reply) =>
    (w.put i { d with outbox := d.outbox.filter fun note => note.1 != ticket }).hand d ticket
      reply (.mqtt topic)
  | _, _ => w

def visit (w : World) (i : Nat) (act : Dispatcher → World) : World :=
  match w.dispatchers[i]? with
  | some d => act d
  | none => w

theorem visit_induction {motive : World → Prop} {w : World} {i : Nat} {act : Dispatcher → World}
    (nobody : motive w) (somebody : ∀ d, w.dispatchers[i]? = some d → motive (act d)) :
    motive (w.visit i act) := by
  unfold visit
  split
  · rename_i d here
    exact somebody d here
  · exact nobody

/-- A step. One that is not possible changes nothing. -/
def step (w : World) : Event → World
  | .receive i m => w.visit i fun d => w.receive i d m
  | .resume i worked => w.visit i fun d => w.resume i d worked
  | .advance i ticket => w.visit i fun d => w.advance i d ticket
  | .finish i ticket reply => w.visit i fun d => w.finish i d ticket reply
  | .send i ticket => w.visit i fun d => w.send i d ticket
  | .setState i state => w.visit i fun d => w.put i { d with state }
  | .attach i p => w.visit i fun d => w.put i { d with replies := d.replies.attach p }
  | .detach i => w.visit i fun d => w.put i { d with replies := d.replies.detach }
  | .shutDown i => w.visit i fun d => w.put i { d with pool := d.pool.shutDown }

def run (w : World) (events : List Event) : World := events.foldl step w

/-- Takes a message through to the decision about it, with no other step in between. -/
def dispatch (w : World) (i : Nat) (m : Message) (worked : Bool) : World :=
  w.run [.receive i m, .resume i worked, .resume i worked]

end World

end RequestBus
