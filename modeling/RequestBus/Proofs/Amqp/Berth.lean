import RequestBus.Proofs.Amqp.History
import RequestBus.Proofs.Connection.Farewell
import RequestBus.Proofs.Dispatch.Backpressure

/-! An AMQP connection and the dispatcher that shows its state. The two states are kept apart, but
every step of the connection writes both; so what the dispatcher does with a message, too, follows
from what the connection has gone through. -/
namespace RequestBus

/-- A connection in the world of its dispatcher, and what could be seen of it so far. -/
structure Berth where
  connection : AmqpConnection
  world : World
  /-- The states that its dispatcher has shown, in order; one that lasts stands there once. -/
  seen : List ConnectionState := []

namespace Berth

def new (name : String) (i : Nat) (registry : Registry) (posts : List Post) : Berth :=
  { connection := { name, dispatcher := i }, world := World.start registry posts }

def dispatcher? (b : Berth) : Option Dispatcher :=
  b.world.dispatchers[b.connection.dispatcher]?

def see (seen : List ConnectionState) (state : Option ConnectionState) : List ConnectionState :=
  if seen.getLast? = state then seen else seen ++ state.toList

def take (b : Berth) (e : Event) : Berth :=
  let world := b.world.step e
  let state := world.dispatchers[b.connection.dispatcher]?.map Dispatcher.state
  { b with world, seen := see b.seen state }

def act (b : Berth) (deed : AmqpConnection → Dispatcher → AmqpConnection × Deeds) : Berth :=
  match b.dispatcher? with
  | none => b
  | some d =>
    let (connection, deeds) := deed b.connection d
    deeds.events.foldl take { b with connection }

variable {b : Berth} {i : Nat} {d : Dispatcher}
  {deed : AmqpConnection → Dispatcher → AmqpConnection × Deeds}

theorem act_eq (here : b.dispatcher? = some d) :
    b.act deed = (deed b.connection d).2.events.foldl take
      { b with connection := (deed b.connection d).1 } := by
  simp only [act, here]

theorem connection_takes (b : Berth) (events : List Event) :
    (events.foldl take b).connection = b.connection := by
  induction events generalizing b with
  | nil => rfl
  | cons e events ih => exact ih (b.take e)

theorem connection_act (here : b.dispatcher? = some d) :
    (b.act deed).connection = (deed b.connection d).1 := by
  rw [act_eq here, connection_takes]

theorem world_takes (b : Berth) (events : List Event) :
    (events.foldl take b).world = b.world.run events := by
  induction events generalizing b with
  | nil => rfl
  | cons e events ih => exact ih (b.take e)

theorem act_fleet {fleet : Fleet} {j : Nat} {c : AmqpConnection}
    (member : fleet.connections[j]? = some (.amqp c))
    (here : fleet.dispatcher? (.amqp c) = some d) (now : String) (s : Signal)
    (seen : List ConnectionState) :
    let b := act ⟨c, fleet.shop.world, seen⟩ fun c d => c.signal d s
    let after := fleet.act now j fun c d => c.signal d s
    after.connections[j]? = some (.amqp b.connection) ∧ after.shop.world = b.world := by
  have known : dispatcher? ⟨c, fleet.shop.world, seen⟩ = some d := here
  simp only [act_eq known, connection_takes, world_takes, Fleet.act, member, here]
  exact ⟨List.getElem?_set_self (List.getElem?_eq_some_iff.mp member).1, rfl⟩

theorem getLast?_see (seen : List ConnectionState) (state : ConnectionState) :
    (see seen (some state)).getLast? = some state := by
  unfold see
  split
  · assumption
  · simp

theorem see_same {seen : List ConnectionState} {state : ConnectionState}
    (last : seen.getLast? = some state) : see seen (some state) = seen :=
  if_pos last

theorem see_new {seen : List ConnectionState} {state : ConnectionState}
    (last : seen.getLast? ≠ some state) : see seen (some state) = seen ++ [state] :=
  if_neg last

theorem take_eq {e : Event}
    (there : (b.world.step e).dispatchers[b.connection.dispatcher]? = some d) :
    b.take e = ⟨b.connection, b.world.step e, see b.seen (some d.state)⟩ := by
  simp only [take, there, Option.map_some]

theorem act_shows (here : b.dispatcher? = some d) {state : ConnectionState}
    (own : (deed b.connection d).1.dispatcher = b.connection.dispatcher)
    (events : (deed b.connection d).2.events = [.setState b.connection.dispatcher state]) :
    b.act deed = ⟨(deed b.connection d).1,
      b.world.step (.setState b.connection.dispatcher state), see b.seen (some state)⟩ := by
  have there := (Farewell.step_steers (w := b.world) here).1 state
  rw [act_eq here, events]
  simp only [List.foldl_cons, List.foldl_nil, take, own, there, Option.map_some]

theorem act_pair (here : b.dispatcher? = some d) {first second : Event} {next last : Dispatcher}
    (own : (deed b.connection d).1.dispatcher = b.connection.dispatcher)
    (events : (deed b.connection d).2.events = [first, second])
    (one : (b.world.step first).dispatchers[b.connection.dispatcher]? = some next)
    (two : ((b.world.step first).step second).dispatchers[b.connection.dispatcher]? = some last) :
    b.act deed = ⟨(deed b.connection d).1, (b.world.step first).step second,
      see (see b.seen (some next.state)) (some last.state)⟩ := by
  rw [act_eq here, events]
  simp only [List.foldl_cons, List.foldl_nil, take, own, one, two, Option.map_some]

end Berth

/-- What happens at a berth: the connection is told of an event or begins anew, or the dispatcher
goes on with its work. -/
inductive Berth.Turn where
  | apply (e : AmqpEvent)
  | reset
  | event (e : Event)

namespace Berth

def Turn.isReset : Turn → Bool
  | .reset => true
  | _ => false

def Turn.applied? : Turn → Option AmqpEvent
  | .apply e => some e
  | _ => none

def sinceReset (turns : List Turn) : List AmqpEvent :=
  (turns.rtakeWhile fun t => !t.isReset).filterMap Turn.applied?

def turn (b : Berth) : Turn → Berth
  | .apply e => b.act fun c d => c.apply d e
  | .reset => b.act fun c d => c.reset d
  | .event e => b.take e

def turns (b : Berth) (ts : List Turn) : Berth := ts.foldl turn b

theorem sinceReset_concat (ts : List Turn) (t : Turn) : sinceReset (ts ++ [t]) =
    match t with
    | .apply e => sinceReset ts ++ [e]
    | .reset => []
    | .event _ => sinceReset ts := by
  cases t with
  | reset => rw [sinceReset, List.rtakeWhile_concat_neg _ _ _ (by simp [Turn.isReset])]; rfl
  | apply e | event e =>
    rw [sinceReset, List.rtakeWhile_concat_pos _ _ _ (by simp [Turn.isReset])]
    simp [sinceReset, Turn.applied?]

structure Moored (i : Nat) (exchange : String) (ts : List Turn) (b : Berth) (d : Dispatcher) :
    Prop where
  own : b.connection.dispatcher = i
  here : b.world.dispatchers[i]? = some d
  tidy : b.world.Tidy fun _ _ => True
  route : d.route = .amqp exchange
  shown : d.state = b.connection.state.shown
  past : b.connection.state = .after (sinceReset ts)

section Turns
variable {b : Berth} {i : Nat} {d : Dispatcher} {exchange : String} {ts : List Turn}

theorem tidy_step {w : World} (tidy : w.Tidy fun _ _ => True) (e : Event) :
    (w.step e).Tidy fun _ _ => True :=
  World.tidy_run tidy [e] (World.allAnswer_of_forall (fun _ _ => trivial) _)

theorem state_becomes {next : Dispatcher} {e : Event} (becomes : d.Becomes i e next)
    (other : ∀ state, e ≠ .setState i state) : next.state = d.state := by
  cases becomes with
  | shows state => exact absurd rfl (other state)
  | _ => rfl

theorem Moored.shows (h : Moored i exchange ts b d) {t : Turn} {state : AmqpState}
    (deed : AmqpConnection → Dispatcher → AmqpConnection × Deeds)
    (goes : deed b.connection d = ({ b.connection with state },
      .showing b.connection.dispatcher d.state state.shown))
    (past : state = .after (sinceReset (ts ++ [t]))) :
    Moored i exchange (ts ++ [t]) (b.act deed) { d with state := state.shown } := by
  obtain ⟨rfl, here, tidy, route, -, -⟩ := h
  rw [act_shows here (by rw [goes]) (by rw [goes]; rfl), goes]
  exact ⟨rfl, (Farewell.step_steers here).1 _, tidy_step tidy (.setState _ _), route, rfl, past⟩

theorem Moored.turn (h : Moored i exchange ts b d) (t : Turn)
    (foreign : ∀ state, t ≠ .event (.setState i state)) :
    ∃ next, Moored i exchange (ts ++ [t]) (b.turn t) next := by
  have concat := sinceReset_concat ts t
  cases t with
  | apply e =>
    have past : b.connection.state.next e = .after (sinceReset (ts ++ [.apply e])) := by
      rw [concat, AmqpState.after_concat, h.past]
    exact ⟨_, h.shows (fun c d => c.apply d e) rfl past⟩
  | reset =>
    have past : .disconnected = AmqpState.after (sinceReset (ts ++ [.reset])) := by
      rw [concat]
      rfl
    exact ⟨_, h.shows (fun c d => c.reset d) rfl past⟩
  | event e =>
    obtain ⟨next, there, becomes⟩ := World.dispatcher_step h.here e
    have state : next.state = d.state := state_becomes becomes fun state same =>
      foreign state (congrArg Turn.event same)
    exact ⟨next, h.own, there, tidy_step h.tidy e, becomes.route.trans h.route,
      state.trans h.shown, h.past.trans (congrArg _ concat.symm)⟩

theorem Moored.turns (h : Moored i exchange ts b d) (more : List Turn)
    (foreign : ∀ state, .event (.setState i state) ∉ more) :
    ∃ next, Moored i exchange (ts ++ more) (b.turns more) next := by
  induction more generalizing ts b d with
  | nil => exact ⟨d, by simpa [Berth.turns] using h⟩
  | cons t more ih =>
    simp only [List.mem_cons, not_or] at foreign
    obtain ⟨next, moored⟩ := h.turn t fun state same => (foreign state).1 same.symm
    have rest := ih moored fun state => (foreign state).2
    rwa [List.append_assoc, List.singleton_append] at rest

end Turns

theorem turnedAway_iff {w : World} {i : Nat} {d : Dispatcher} {exchange : String}
    (tidy : w.Tidy fun _ _ => True) (here : w.dispatchers[i]? = some d) (idle : d.call = none)
    (route : d.route = .amqp exchange) (m : Message) : (w.step (.receive i m)).trail w.issued =
      [.decided w.issued .dropped, .received w.issued i m] ↔ d.state.isShuttingDown = true := by
  have fresh := tidy.fresh w.issued (Nat.le_refl _)
  cases closing : d.state.isShuttingDown with
  | true =>
    have turned : w.step (.receive i m) = ({ w with issued := w.issued + 1 }.record
        (.received w.issued i m)).record (.decided w.issued .dropped) := by
      simp [World.step, World.visit, here, World.receive, idle, closing]
    rw [turned, World.trail_record rfl, World.trail_record rfl]
    exact iff_of_true (congrArg _ (congrArg _ fresh)) rfl
  | false =>
    simp only [Bool.false_eq_true, iff_false]
    intro turned
    have decided : .decided w.issued .dropped ∈ (w.step (.receive i m)).trail w.issued := by
      rw [turned]
      exact List.mem_cons_self
    replace decided := (World.mem_trail.mp decided).1
    rw [World.step_receive here idle closing route] at decided
    refine World.receiveAmqp_undecided _ i d _ m ?_ decided
    have before : .decided w.issued .dropped ∉ w.trail w.issued := by simp [fresh]
    simpa [World.mem_trail, World.record, Record.ticket?] using before

/-- What the state of a connection says about the events since it began anew, and what it means
for its messages. -/
structure Reveals (b : Berth) (i : Nat) (d : Dispatcher) (past : List AmqpEvent) : Prop where
  subscribed : b.connection.state = .subscribed ↔
    .shutdownRequested ∉ past ∧ AmqpEvent.setup.Sublist (sinceLoss past)
  closing : b.connection.state = .closing ∨ b.connection.state = .closed ↔
    .shutdownRequested ∈ past
  closed : b.connection.state = .closed ↔ ∃ before later,
    past = before ++ .shutdownRequested :: later ∧ .shutdownRequested ∉ before ∧ .closed ∈ later
  shown : d.state = b.connection.state.shown
  refuses : d.state.isShuttingDown = true ↔ .shutdownRequested ∈ past
  /-- A message that arrives is turned away at once, and otherwise is looked at. -/
  turnsAway : d.call = none → ∀ m, (b.world.step (.receive i m)).trail b.world.issued =
      [.decided b.world.issued .dropped, .received b.world.issued i m] ↔
    .shutdownRequested ∈ past

/-- Whatever a connection is told of, its state and the one that its dispatcher shows are what its
past makes of them. -/
theorem state_reveals_past (registry : Registry) (posts : List Post) (i : Nat) (name : String)
    (exchange : String) (workers : Nat) (post : posts[i]? = some ⟨name, .amqp exchange, workers⟩)
    (ts : List Turn) (foreign : ∀ state, .event (.setState i state) ∉ ts) :
    let b := (new name i registry posts).turns ts
    ∃ d, b.world.dispatchers[i]? = some d ∧ b.Reveals i d (sinceReset ts) := by
  intro b
  have here : (World.start registry posts).dispatchers[i]? =
      some (.new name (.amqp exchange) workers) := by
    simp [World.start, World.ofDispatchers, post]
  have begins : Moored i exchange [] (new name i registry posts)
      (.new name (.amqp exchange) workers) :=
    ⟨rfl, here, World.tidy_start registry posts, rfl, rfl, rfl⟩
  obtain ⟨d, moored⟩ := begins.turns ts foreign
  have refuses : d.state.isShuttingDown = true ↔ .shutdownRequested ∈ sinceReset ts := by
    rw [moored.shown, AmqpState.isShuttingDown_shown, moored.past]
    exact AmqpState.closing_or_closed_iff _
  refine ⟨d, moored.here, ?_, ?_, ?_, moored.shown, refuses, fun idle m => ?_⟩
  · rw [moored.past]
    exact AmqpState.subscribed_iff _
  · rw [moored.past]
    exact AmqpState.closing_or_closed_iff _
  · rw [moored.past]
    exact AmqpState.closed_iff _
  · rw [← refuses]
    exact turnedAway_iff moored.tidy moored.here idle moored.route m

/-- The transport is lost and opened anew; then the connection is asked to stop. -/
theorem state_reveals_past_of_one :
    let posts : List Post := [⟨"a", .amqp "x", 1⟩]
    let opens : List Turn := [.apply .connect, .apply .channelClosed, .apply .channelOpened,
      .apply .connect, .apply .channelOpened, .apply .exchangeVerified, .apply .connect,
      .event (.attach 0 fun _ _ => .ok ()), .apply .queueBound, .apply .consumerStarted]
    let stops : List Turn := opens ++ [.apply .shutdownRequested, .apply .connect]
    ((new "a" 0 (.ofCapacity 1) posts).turns opens).connection.state = .subscribed ∧
    ((new "a" 0 (.ofCapacity 1) posts).turns stops).connection.state = .closing ∧
    (∃ d, ((new "a" 0 (.ofCapacity 1) posts).turns opens).world.dispatchers[0]? = some d ∧
      ((new "a" 0 (.ofCapacity 1) posts).turns opens).Reveals 0 d (sinceReset opens)) ∧
    ∃ d, ((new "a" 0 (.ofCapacity 1) posts).turns stops).world.dispatchers[0]? = some d ∧
      ((new "a" 0 (.ofCapacity 1) posts).turns stops).Reveals 0 d (sinceReset stops) := by
  intro posts opens stops
  exact ⟨by decide +kernel, by decide +kernel,
    state_reveals_past (.ofCapacity 1) posts 0 "a" "x" 1 rfl opens (by simp [opens]),
    state_reveals_past (.ofCapacity 1) posts 0 "a" "x" 1 rfl stops (by simp [stops, opens])⟩

end Berth

end RequestBus
