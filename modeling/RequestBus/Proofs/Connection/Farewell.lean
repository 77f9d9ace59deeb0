import RequestBus.Connection.Fleet
import RequestBus.Proofs.Dispatch.Frame
import RequestBus.Proofs.Dispatch.Replies

/-! How a connection closes. It shows that it is closing, shuts its pool down, waits until the
last worker has ended, and only then detaches its replies and shows that it is closed. In between
anything can happen: messages arrive, and workers end in any order. -/
namespace RequestBus

namespace Connection

def beginClose (c : Connection) (d : Dispatcher) (result : Except BusError Unit) :
    Connection × Deeds :=
  match c with
  | .amqp c =>
    let (c, deeds) := c.beginClose d result
    (.amqp c, deeds)
  | .mqtt c =>
    let (c, deeds) := c.beginClose d
    (.mqtt c, deeds)

def IsOpen : Connection → Prop
  | .amqp c => c.state ≠ .closed
  | .mqtt _ => True

inductive Drains : Connection → Prop
  | amqp (c : AmqpConnection) (result : Except BusError Unit) (phase : c.phase = .draining result)
      (state : c.state = .closing) : Drains (.amqp c)
  | mqtt (c : MqttConnection) (phase : c.phase = .draining) : Drains (.mqtt c)

/-- What a connection has still to do once its replies are detached. -/
inductive Leaves (i : Nat) : Connection → List Event → Prop
  | amqp (c : AmqpConnection) (result : Except BusError Unit) (phase : c.phase = .ended result) :
      Leaves i (.amqp c) [.setState i .closed]
  | mqtt (c : MqttConnection) (phase : c.phase = .disconnecting) : Leaves i (.mqtt c) []
  | last (c : MqttConnection) (result : Except BusError Unit) (phase : c.phase = .ended result) :
      Leaves i (.mqtt c) [.setState i .closed]

theorem signal_amqp (c : AmqpConnection) (d : Dispatcher) : signal (.amqp c) d .proceed =
    (.amqp (c.proceed d).1, (c.proceed d).2) := rfl

theorem signal_mqtt (c : MqttConnection) (d : Dispatcher) : signal (.mqtt c) d .proceed =
    (.mqtt (c.proceed d).1, (c.proceed d).2) := rfl

end Connection

theorem AmqpConnection.beginClose_open {c : AmqpConnection} (opened : c.state ≠ .closed)
    (d : Dispatcher) (result : Except BusError Unit) : c.beginClose d result =
      ({ c with state := .closing, phase := .draining result },
        .showing c.dispatcher d.state .closing ++ .take (.shutDown c.dispatcher)) := by
  have closing : c.state.next .shutdownRequested = .closing := by
    cases state : c.state with
    | closed => exact absurd state opened
    | _ => rfl
  simp only [beginClose, apply, closing]
  rfl

theorem AmqpConnection.proceed_drained {c : AmqpConnection} {d : Dispatcher}
    {result : Except BusError Unit} (phase : c.phase = .draining result)
    (closing : c.state = .closing) (drained : d.pool.isDrained = true) :
    c.proceed d = ({ c with state := .closed, phase := .ended result },
      .take (.detach c.dispatcher) ++ .showing c.dispatcher d.state .closed) := by
  simp only [proceed, phase, drained, if_true, finishClose, apply, closing]
  rfl

namespace Connection

variable {c : Connection} {d : Dispatcher}

theorem Drains.proceed_waits (h : c.Drains) (working : d.pool.isDrained = false) :
    c.signal d .proceed = (c, {}) := by
  cases h with
  | amqp c result phase => simp [signal_amqp, AmqpConnection.proceed, phase, working]
  | mqtt c phase => simp [signal_mqtt, MqttConnection.proceed, phase, working]

theorem Drains.proceed_drained (h : c.Drains) (drained : d.pool.isDrained = true) :
    ∃ more, (c.signal d .proceed).2.events = .detach c.dispatcher :: more ∧
      (c.signal d .proceed).1.Leaves c.dispatcher more ∧
      (c.signal d .proceed).1.dispatcher = c.dispatcher := by
  cases h with
  | amqp c result phase closing =>
    rw [signal_amqp, c.proceed_drained phase closing drained]
    exact ⟨_, rfl, .amqp _ result rfl, rfl⟩
  | mqtt c phase =>
    have went : c.proceed d =
        ({ c with phase := .disconnecting }, .take (.detach c.dispatcher)) := by
      simp [MqttConnection.proceed, phase, drained]
    rw [signal_mqtt, went]
    exact ⟨[], rfl, .mqtt _ rfl, rfl⟩

theorem Leaves.proceed (h : c.Leaves c.dispatcher []) :
    (c.signal d .proceed).2.events = [.setState c.dispatcher .closed] ∧
      (c.signal d .proceed).1.Leaves c.dispatcher [.setState c.dispatcher .closed] ∧
      (c.signal d .proceed).1.dispatcher = c.dispatcher := by
  cases h with
  | mqtt c phase =>
    have went : c.proceed d = ({ c with phase := .ended (.ok ()) }, c.showing d .closed) := by
      simp [MqttConnection.proceed, phase]
    rw [signal_mqtt, went]
    exact ⟨rfl, .last _ (.ok ()) rfl, rfl⟩

theorem Leaves.ended {i : Nat} {e : Event} {more : List Event} (h : c.Leaves i (e :: more)) :
    e = .setState i .closed ∧ more = [] ∧ c.result?.isSome = true := by
  cases h with
  | amqp c result phase | last c result phase => simp [result?, phase]

theorem proceed_over (ended : c.result?.isSome = true) : c.signal d .proceed = (c, {}) := by
  cases c with
  | amqp c =>
    obtain ⟨result, phase⟩ : ∃ result, c.phase = .ended result := by
      cases phase : c.phase <;> simp_all [result?]
    simp [signal_amqp, AmqpConnection.proceed, phase]
  | mqtt c =>
    obtain ⟨result, phase⟩ : ∃ result, c.phase = .ended result := by
      cases phase : c.phase <;> simp_all [result?]
    simp [signal_mqtt, MqttConnection.proceed, phase]

end Connection

/-- A connection on its way to be closed, in the world of its dispatcher. It does one thing at a
time, so other things can happen in between. -/
structure Farewell where
  connection : Connection
  pending : List Event
  world : World

inductive Farewell.Move where
  | proceed
  | deed
  | event (e : Event)

namespace Farewell

def step (f : Farewell) : Move → Farewell
  | .proceed =>
    match f.pending, f.world.dispatchers[f.connection.dispatcher]? with
    | [], some d =>
      let (connection, deeds) := f.connection.signal d .proceed
      { f with connection, pending := deeds.events }
    | _, _ => f
  | .deed =>
    match f.pending with
    | e :: pending => { f with pending, world := f.world.step e }
    | [] => f
  | .event e => { f with world := f.world.step e }

def run (f : Farewell) (moves : List Move) : Farewell := moves.foldl step f

def begin (c : Connection) (d : Dispatcher) (result : Except BusError Unit) (w : World) :
    Farewell :=
  let (connection, deeds) := c.beginClose d result
  step { connection, pending := deeds.events, world := w } .deed

def IsOver (f : Farewell) : Prop := f.connection.result?.isSome = true ∧ f.pending = []

/-! ## Where a closing connection stands -/

/-- How far a connection has got, and what that means for its dispatcher, which was `first` as it
began to close. -/
inductive Stands (i : Nat) (first d : Dispatcher) : Connection → List Event → Prop
  | shutting (c : Connection) (drains : c.Drains) (state : d.state = .closing)
      (replies : d.replies = first.replies) : Stands i first d c [.shutDown i]
  | draining (c : Connection) (drains : c.Drains) (state : d.state = .closing)
      (replies : d.replies = first.replies) (down : d.pool.isShutDown = true) :
      Stands i first d c []
  | leaving (c : Connection) (more : List Event) (leaves : c.Leaves i more)
      (state : d.state = .closing) (replies : d.replies = first.replies)
      (drained : d.pool.isDrained = true) : Stands i first d c (.detach i :: more)
  | left (c : Connection) (more : List Event) (leaves : c.Leaves i more)
      (state : d.state = .closing) (silent : d.replies.publisher = none)
      (drained : d.pool.isDrained = true) : Stands i first d c more
  | closed (c : Connection) (ended : c.result?.isSome = true) (state : d.state = .closed)
      (silent : d.replies.publisher = none) (drained : d.pool.isDrained = true) :
      Stands i first d c []

variable {i : Nat} {first d next : Dispatcher} {c : Connection} {pending : List Event}

theorem Stands.keeps (h : Stands i first d c pending) (keeps : d.Keeps next) :
    Stands i first next c pending := by
  cases h with
  | shutting drains state replies =>
    exact .shutting c drains (keeps.state.trans state) (keeps.replies.trans replies)
  | draining drains state replies down =>
    exact .draining c drains (keeps.state.trans state) (keeps.replies.trans replies)
      (keeps.down down)
  | leaving more leaves state replies drained =>
    exact .leaving c more leaves (keeps.state.trans state) (keeps.replies.trans replies)
      (keeps.drained drained)
  | left _ leaves state silent drained =>
    exact .left c pending leaves (keeps.state.trans state) (keeps.replies ▸ silent)
      (keeps.drained drained)
  | closed ended state silent drained =>
    exact .closed c ended (keeps.state.trans state) (keeps.replies ▸ silent)
      (keeps.drained drained)

theorem Stands.proceed (h : Stands i first d c []) (own : c.dispatcher = i) :
    Stands i first d (c.signal d .proceed).1 (c.signal d .proceed).2.events ∧
      (c.signal d .proceed).1.dispatcher = i := by
  subst own
  cases h with
  | draining drains state replies down =>
    cases drained : d.pool.isDrained with
    | true =>
      obtain ⟨more, events, leaves, own⟩ := drains.proceed_drained drained
      rw [events]
      exact ⟨.leaving _ more leaves state replies drained, own⟩
    | false =>
      rw [drains.proceed_waits drained]
      exact ⟨.draining c drains state replies down, rfl⟩
  | left _ leaves state silent drained =>
    obtain ⟨events, leaves, own⟩ := leaves.proceed
    rw [events]
    exact ⟨.left _ _ leaves state silent drained, own⟩
  | closed ended state silent drained =>
    rw [Connection.proceed_over ended]
    exact ⟨.closed c ended state silent drained, rfl⟩

theorem step_steers {w : World} (here : w.dispatchers[i]? = some d) :
    (∀ state, (w.step (.setState i state)).dispatchers[i]? = some { d with state }) ∧
    (w.step (.detach i)).dispatchers[i]? = some { d with replies := d.replies.detach } ∧
    (w.step (.shutDown i)).dispatchers[i]? = some { d with pool := d.pool.shutDown } := by
  have there := (List.getElem?_eq_some_iff.mp here).1
  simp [World.step, World.visit, here, World.put, List.getElem?_set_self there]

theorem Stands.deed {w : World} {e : Event} (here : w.dispatchers[i]? = some d)
    (h : Stands i first d c (e :: pending)) :
    ∃ next, (w.step e).dispatchers[i]? = some next ∧ Stands i first next c pending := by
  obtain ⟨sets, detaches, shutsDown⟩ := step_steers here
  cases h with
  | shutting drains state replies => exact ⟨_, shutsDown, .draining c drains state replies rfl⟩
  | leaving _ leaves state replies drained =>
    exact ⟨_, detaches, .left c pending leaves state rfl drained⟩
  | left _ leaves state silent drained =>
    obtain ⟨rfl, rfl, ended⟩ := leaves.ended
    exact ⟨_, sets .closed, .closed c ended rfl silent drained⟩

theorem Stands.shuttingDown (h : Stands i first d c pending) : d.state.isShuttingDown = true := by
  cases h <;> simp_all [ConnectionState.isShuttingDown]

theorem Stands.working (h : Stands i first d c pending) (left : d.pool.tasks ≠ []) :
    d.replies = first.replies ∧ d.state = .closing := by
  have busy : d.pool.isDrained ≠ true := fun drained =>
    left (Dispatcher.drained_iff.mp drained).2
  cases h with
  | shutting _ state replies | draining _ state replies => exact ⟨replies, state⟩
  | leaving _ _ _ _ drained | left _ _ _ _ drained | closed _ _ _ drained =>
    exact absurd drained busy

theorem Stands.ended (h : Stands i first d c []) (ended : c.result?.isSome = true) :
    d.state = .closed ∧ d.replies.publisher = none ∧ d.pool.isDrained = true := by
  cases h with
  | draining drains => cases drains <;> simp_all [Connection.result?]
  | left _ leaves => cases leaves; simp_all [Connection.result?]
  | closed _ state silent drained => exact ⟨state, silent, drained⟩

/-! ## What happens meanwhile -/

/-- What has happened in the world since `first`, a dispatcher of the world `w₀`, began to close.
Messages that have come since were turned away; a worker that there was is still at work, or has
ended and handed its answer, if it had one, to the channel as it was then. -/
structure Witnessed (w₀ : World) (i : Nat) (first : Dispatcher) (w : World) (d : Dispatcher) :
    Prop where
  tidy : w.Tidy fun _ _ => True
  here : w.dispatchers[i]? = some d
  route : d.route = first.route
  history : w₀.history ⊆ w.history
  turnedAway : ∀ t m, w₀.issued ≤ t → .received t i m ∈ w.history →
    w.trail t = [.decided t .dropped, .received t i m]
  served : ∀ t ∈ first.pool.tickets, t ∈ d.pool.tickets ∨ ∃ crashed, .ended t crashed ∈ w.history ∧
    (crashed = false → ∃ payload dest,
      .handed t payload dest (first.replies.publish payload dest).isOk ∈ w.history)

theorem receive_closing {w : World} (here : w.dispatchers[i]? = some d)
    (closing : d.state.isShuttingDown = true) (m : Message) : w.step (.receive i m) = w ∨
      w.step (.receive i m) = ({ w with issued := w.issued + 1 }.record
        (.received w.issued i m)).record (.decided w.issued .dropped) := by
  simp only [World.step, World.visit, here, World.receive, closing, if_true]
  split
  · exact .inl rfl
  · exact .inr rfl

theorem answers_anything (w : World) (e : Event) : w.Answers (fun _ _ => True) e :=
  (World.allAnswer_of_forall (fun _ _ => trivial) [e] : w.AllAnswer _ [e]).1

variable {w₀ w : World} {f : Farewell}

theorem Witnessed.step (h : Witnessed w₀ i first w d) (closing : d.state.isShuttingDown = true)
    (working : d.pool.tasks ≠ [] → d.replies = first.replies) (e : Event)
    (there : (w.step e).dispatchers[i]? = some next) :
    Witnessed w₀ i first (w.step e) next := by
  obtain ⟨_, there', becomes⟩ := World.dispatcher_step h.here e
  cases there.symm.trans there'
  have change := World.change_step h.tidy e (answers_anything w e)
  have tidy := World.tidy_change h.tidy change
  have history := World.history_step w e
  constructor
  case tidy => exact tidy
  case here => exact there
  case route => exact becomes.route.trans h.route
  case history => exact List.Subset.trans h.history history
  case turnedAway =>
    intro t m since received
    by_cases early : t < w.issued
    · obtain ⟨j, _, _, n, _, _, course⟩ := h.tidy.located t early
      have before := (World.mem_trail.mp (List.mem_of_getLast? course.getLast?)).1
      obtain ⟨rfl, rfl⟩ := tidy.received_unique (history before) received
      exact change.trail_turnedAway (h.turnedAway t n since before)
    · have late := tidy.lt_issued_of_mem (World.mem_trail.mpr ⟨received, rfl⟩)
      rcases w.issued_step e with same | ⟨n, receives, more, recorded⟩
      · omega
      · obtain rfl : t = w.issued := by omega
        obtain ⟨own, rfl⟩ := tidy.received_unique recorded received
        rw [own] at receives
        subst receives
        rcases receive_closing h.here closing n with same | turned
        · rw [same] at more
          omega
        · rw [turned, World.trail_record rfl, World.trail_record rfl]
          exact congrArg _ (congrArg _ (h.tidy.fresh w.issued (Nat.le_refl _)))
  case served =>
    intro t ht
    rcases h.served t ht with atWork | ⟨crashed, ended, handed⟩
    · rcases becomes.mem_tickets atWork with stays | ⟨reply, rfl⟩
      · exact .inl stays
      · have replies : d.replies = first.replies := working fun empty => by
          simp [Pool.tickets, empty] at atWork
        rcases World.finish_hands h.here t reply with same | served
        · rw [same] at there
          cases there.symm.trans h.here
          exact .inl atWork
        · exact .inr (replies ▸ served)
    · refine .inr ⟨crashed, history ended, fun returned => ?_⟩
      obtain ⟨payload, dest, handed⟩ := handed returned
      exact ⟨payload, dest, history handed⟩

structure Sound (w₀ : World) (i : Nat) (first : Dispatcher) (f : Farewell) (d : Dispatcher) :
    Prop where
  witnessed : Witnessed w₀ i first f.world d
  stands : Stands i first d f.connection f.pending
  own : f.connection.dispatcher = i

theorem sound_begin (tidy : w.Tidy fun _ _ => True) (here : w.dispatchers[c.dispatcher]? = some d)
    (opened : c.IsOpen) (result : Except BusError Unit) :
    Sound w c.dispatcher d (begin c d result w) { d with state := .closing } := by
  have world : (begin c d result w).world = w.step (.setState c.dispatcher .closing) := by
    cases c with
    | amqp c =>
      rw [begin, Connection.beginClose, c.beginClose_open opened]
      rfl
    | mqtt c => rfl
  have change := World.change_step tidy (.setState c.dispatcher .closing) (answers_anything w _)
  have there := (step_steers here).1 .closing
  have same : (w.step (.setState c.dispatcher .closing)).history = w.history := by
    simp only [World.step, World.visit, here]
    rfl
  constructor
  case witnessed =>
    rw [world]
    refine ⟨World.tidy_change tidy change, there, rfl, fun _ => same ▸ id, ?_,
      fun t ht => .inl ht⟩
    intro t m late received
    have early := tidy.lt_issued_of_mem (World.mem_trail.mpr ⟨same ▸ received, rfl⟩)
    omega
  case stands =>
    cases c with
    | amqp c =>
      rw [begin, Connection.beginClose, c.beginClose_open opened]
      exact .shutting _ (.amqp _ result rfl rfl) rfl rfl
    | mqtt c => exact .shutting _ (.mqtt _ rfl) rfl rfl
  case own =>
    cases c with
    | amqp c =>
      rw [begin, Connection.beginClose, c.beginClose_open opened]
      rfl
    | mqtt c => rfl

theorem sound_step (h : Sound w₀ i first f d) (move : Move)
    (foreign : ∀ e, move = .event e → e.steers i = false) :
    ∃ next, Sound w₀ i first (f.step move) next := by
  obtain ⟨witnessed, stands, own⟩ := h
  have meanwhile (e : Event) {next : Dispatcher}
      (there : (f.world.step e).dispatchers[i]? = some next) :
      Witnessed w₀ i first (f.world.step e) next :=
    witnessed.step stands.shuttingDown (fun left => (stands.working left).1) e there
  cases move with
  | proceed =>
    simp only [step, own, witnessed.here]
    split
    · rename_i nothing same
      cases same
      rw [nothing] at stands
      obtain ⟨goes, same⟩ := stands.proceed own
      exact ⟨d, witnessed, goes, same⟩
    · exact ⟨d, witnessed, stands, own⟩
  | deed =>
    simp only [step]
    split
    · rename_i e pending about
      rw [about] at stands
      obtain ⟨next, there, stands⟩ := stands.deed witnessed.here
      exact ⟨next, meanwhile e there, stands, own⟩
    · exact ⟨d, witnessed, stands, own⟩
  | event e =>
    obtain ⟨next, there, becomes⟩ := World.dispatcher_step witnessed.here e
    exact ⟨next, meanwhile e there, stands.keeps (becomes.keeps (foreign e rfl)), own⟩

theorem sound_run (h : Sound w₀ i first f d) (moves : List Move)
    (foreign : ∀ e, .event e ∈ moves → e.steers i = false) :
    ∃ next, Sound w₀ i first (f.run moves) next := by
  induction moves generalizing f d with
  | nil => exact ⟨d, h⟩
  | cons move moves ih =>
    obtain ⟨next, sound⟩ := sound_step h move fun e same =>
      foreign e (same ▸ List.mem_cons_self)
    exact ih sound fun e later => foreign e (List.mem_cons_of_mem _ later)

/-! ## The end of it -/

def Closes (f : Farewell) : Prop :=
  ∃ moves : List Move, (∀ move ∈ moves, move = .proceed ∨ move = .deed) ∧ (f.run moves).IsOver

theorem closes_of_proceed (h : (f.step .proceed).Closes) : f.Closes := by
  obtain ⟨moves, own, ended⟩ := h
  exact ⟨.proceed :: moves, List.forall_mem_cons.mpr ⟨.inl rfl, own⟩, ended⟩

theorem closes_of_deed (h : (f.step .deed).Closes) : f.Closes := by
  obtain ⟨moves, own, ended⟩ := h
  exact ⟨.deed :: moves, List.forall_mem_cons.mpr ⟨.inr rfl, own⟩, ended⟩

theorem step_deed {e : Event} (about : f.pending = e :: pending) :
    f.step .deed = { f with pending, world := f.world.step e } := by
  simp [step, about]

theorem step_proceed (here : f.world.dispatchers[f.connection.dispatcher]? = some d)
    (nothing : f.pending = []) : f.step .proceed =
      ⟨(f.connection.signal d .proceed).1, (f.connection.signal d .proceed).2.events, f.world⟩ := by
  simp [step, nothing, here]

theorem closes_left (here : f.world.dispatchers[f.connection.dispatcher]? = some d)
    (leaves : f.connection.Leaves f.connection.dispatcher f.pending) : f.Closes := by
  have last {g : Farewell} (leaves : g.connection.Leaves g.connection.dispatcher g.pending)
      (left : g.pending ≠ []) : g.Closes := by
    obtain ⟨e, more, pending⟩ := List.exists_cons_of_ne_nil left
    rw [pending] at leaves
    obtain ⟨-, nothing, ended⟩ := leaves.ended
    rw [nothing] at pending
    refine closes_of_deed ⟨[], by simp, ?_⟩
    rw [step_deed pending]
    exact ⟨ended, rfl⟩
  by_cases nothing : f.pending = []
  · rw [nothing] at leaves
    obtain ⟨events, leaves, own⟩ := leaves.proceed (d := d)
    refine closes_of_proceed (last ?_ ?_) <;> rw [step_proceed here nothing]
    · simp only [events, own]
      exact leaves
    · simp [events]
  · exact last leaves nothing

theorem closes_leaving {more : List Event}
    (here : f.world.dispatchers[f.connection.dispatcher]? = some d)
    (leaves : f.connection.Leaves f.connection.dispatcher more)
    (pending : f.pending = .detach f.connection.dispatcher :: more) : f.Closes := by
  have there := (step_steers here).2.1
  refine closes_of_deed ?_
  rw [step_deed pending]
  exact closes_left there leaves

theorem closes_draining (here : f.world.dispatchers[f.connection.dispatcher]? = some d)
    (drains : f.connection.Drains) (drained : d.pool.isDrained = true) (nothing : f.pending = []) :
    f.Closes := by
  obtain ⟨more, events, leaves, own⟩ := drains.proceed_drained drained
  refine closes_of_proceed ?_
  rw [step_proceed here nothing, events]
  exact closes_leaving (own ▸ here) (own ▸ leaves) (own ▸ rfl)

theorem Sound.closes (h : Sound w₀ i first f d) (empty : d.pool.tasks = []) : f.Closes := by
  obtain ⟨witnessed, stands, rfl⟩ := h
  have here := witnessed.here
  generalize pending : f.pending = events at stands
  cases stands with
  | shutting drains =>
    have there := (step_steers here).2.2
    refine closes_of_deed ?_
    rw [step_deed pending]
    exact closes_draining there drains (Dispatcher.drained_iff.mpr ⟨rfl, empty⟩) rfl
  | draining drains _ _ down =>
    exact closes_draining here drains (Dispatcher.drained_iff.mpr ⟨down, empty⟩) pending
  | leaving more leaves => exact closes_leaving here leaves pending
  | left _ leaves => exact closes_left here (pending ▸ leaves)
  | closed ended => exact ⟨[], by simp, ended, pending⟩

/-! ## In a fleet -/

theorem run_deeds (c : Connection) (events : List Event) (w : World) :
    run ⟨c, events, w⟩ (List.replicate events.length .deed) = ⟨c, [], w.run events⟩ := by
  induction events generalizing w with
  | nil => rfl
  | cons e events ih => exact ih (w.step e)

/-- A connection of a fleet does in one go what it is about to do as it proceeds; a farewell gets
to the same point move by move. -/
theorem run_act {fleet : Fleet} {j : Nat} (member : fleet.connections[j]? = some c)
    (here : fleet.dispatcher? c = some d) (now : String) :
    let after := fleet.act now j fun c d => c.signal d .proceed
    ∃ moves next, run ⟨c, [], fleet.shop.world⟩ moves = ⟨next, [], after.shop.world⟩ ∧
      after.connections[j]? = some next := by
  have known : fleet.shop.world.dispatchers[c.dispatcher]? = some d := here
  refine ⟨.proceed :: List.replicate (c.signal d .proceed).2.events.length .deed,
    (c.signal d .proceed).1, ?_, ?_⟩
  · rw [run, List.foldl_cons, step_proceed known rfl]
    simp only [Fleet.act, member, here]
    exact run_deeds _ _ _
  · simp only [Fleet.act, member, here]
    exact List.getElem?_set_self (List.getElem?_eq_some_iff.mp member).1

/-! ## What is lost and kept -/

/-- What a connection has lost and kept since it began to close as the dispatcher `first` of the
world `w₀`. -/
structure Graceful (w₀ : World) (i : Nat) (first : Dispatcher) (f : Farewell) (d : Dispatcher) :
    Prop where
  here : f.world.dispatchers[i]? = some d
  closing : d.state = .closing ∨ d.state = .closed
  turnedAway : ∀ t m, w₀.issued ≤ t → .received t i m ∈ f.world.history →
    f.world.trail t = [.decided t .dropped, .received t i m]
  untouched : ∀ m, (f.world.step (.receive i m)).registry = f.world.registry
  patient : ∀ t ∈ first.pool.tickets, (∀ crashed, .ended t crashed ∉ f.world.history) →
    d.replies = first.replies ∧ d.state = .closing
  answered : ∀ t ∈ first.pool.tickets, .ended t false ∈ f.world.history →
    ∃ m answer dest, .received t i m ∈ w₀.history ∧ first.route.destination? m = some dest ∧
      f.world.replies t = [(first.route.protocol.writeReply answer, dest)] ∧
      .handed t (first.route.protocol.writeReply answer) dest
        (first.replies.publish (first.route.protocol.writeReply answer) dest).isOk ∈
          f.world.history
  ended : f.IsOver → d.pool.isShutDown = true ∧ d.pool.tasks = [] ∧ d.pool.active = 0 ∧
    d.replies.publisher = none ∧ d.state = .closed
  ends : d.pool.tasks = [] → f.Closes

theorem graceful (tidy : w₀.Tidy fun _ _ => True) (begun : w₀.dispatchers[i]? = some first)
    (h : Sound w₀ i first f d) : Graceful w₀ i first f d := by
  obtain ⟨witnessed, stands, own⟩ := h
  constructor
  case here => exact witnessed.here
  case closing =>
    have closing := stands.shuttingDown
    cases state : d.state <;> simp_all [ConnectionState.isShuttingDown]
  case turnedAway => exact witnessed.turnedAway
  case untouched =>
    intro m
    rcases receive_closing witnessed.here stands.shuttingDown m with same | turned
    · rw [same]
    · rw [turned]
      rfl
  case patient =>
    intro t ht atWork
    rcases witnessed.served t ht with there | ⟨crashed, ended, _⟩
    · refine stands.working fun empty => ?_
      simp [Pool.tickets, empty] at there
    · exact absurd ended (atWork crashed)
  case answered =>
    intro t ht returned
    obtain ⟨m, received⟩ : ∃ m, .received t i m ∈ w₀.history := by
      obtain ⟨task, member, rfl⟩ := List.mem_map.mp ht
      obtain ⟨m, course⟩ := tidy.placed i first begun _ _ (Dispatcher.mem_sites_of_task member)
      exact ⟨m, (World.mem_trail.mp (List.mem_of_getLast? course.getLast?)).1⟩
    have there := World.mem_trail.mpr ⟨returned, rfl⟩
    obtain ⟨_, course⟩ :=
      witnessed.tidy.course_of_received (witnessed.history received) witnessed.here
    rw [witnessed.route] at course
    obtain ⟨job, answer, _, asks, _, _, only, _⟩ := course.returned_one there
    refine ⟨m, answer, job.dest, received, asks.dest, only, ?_⟩
    rcases witnessed.served t ht with atWork | ⟨crashed, ended, handed⟩
    · obtain ⟨task, member, rfl⟩ := List.mem_map.mp atWork
      obtain ⟨_, course⟩ := witnessed.tidy.placed i d witnessed.here _ _
        (Dispatcher.mem_sites_of_task member)
      cases course.finished_ended there
    · have same := (course.ended_unique there).2 crashed (World.mem_trail.mpr ⟨ended, rfl⟩)
      obtain ⟨payload, dest, handed⟩ := handed same.symm
      have one : (payload, dest) ∈ (f.world.trail t).filterMap Record.reply? :=
        List.mem_filterMap.mpr ⟨_, World.mem_trail.mpr ⟨handed, rfl⟩, rfl⟩
      rw [only, List.mem_singleton] at one
      cases one
      exact handed
  case ended =>
    rintro ⟨ended, nothing⟩
    rw [nothing] at stands
    obtain ⟨state, silent, drained⟩ := stands.ended ended
    obtain ⟨down, empty⟩ := Dispatcher.drained_iff.mp drained
    have slots := (witnessed.tidy.prompt i d witnessed.here).slots
    rw [empty, List.length_nil] at slots
    exact ⟨down, empty, by rw [Pool.active]; omega, silent, state⟩
  case ends => exact fun empty => Sound.closes ⟨witnessed, stands, own⟩ empty

/-- A connection that closes, whatever its workers do and whatever arrives meanwhile: it takes on
nothing more, and loses no answer of the workers that it had. -/
theorem close_loses_nothing (registry : Registry) (posts : List Post) (events : List Event)
    (c : Connection) (first : Dispatcher) (result : Except BusError Unit) (moves : List Move)
    (begun : ((World.start registry posts).run events).dispatchers[c.dispatcher]? = some first)
    (opened : c.IsOpen) (foreign : ∀ e, .event e ∈ moves → e.steers c.dispatcher = false) :
    let w := (World.start registry posts).run events
    ∃ d, Graceful w c.dispatcher first ((begin c first result w).run moves) d := by
  intro w
  have tidy : w.Tidy fun _ _ => True := World.tidy_run (World.tidy_start registry posts) events
    (World.allAnswer_of_forall (fun _ _ => trivial) events)
  obtain ⟨d, sound⟩ := sound_run (sound_begin tidy begun opened result) moves foreign
  exact ⟨d, graceful tidy begun sound⟩

/-- A message arrives and the only worker ends while a connection closes. -/
theorem close_loses_nothing_of_one :
    let one : Message := {
      body := Utf8.encode "\x7b\"id\":\"r\",\"method\":\"GET\",\"path\":\"/\"\x7d"
      replyTo := some "q" }
    let two : Message := { body := Utf8.encode "\x7b\"id\":\"s\"\x7d", replyTo := some "p" }
    let events : List Event :=
      [.attach 0 fun _ _ => .ok (), .receive 0 one, .resume 0 true, .advance 0 0]
    let w := (World.start (.ofCapacity 16) [⟨"a", .amqp "x", 1⟩]).run events
    let first := (w.dispatchers[0]?).getD (.new "a" (.amqp "x") 1)
    let moves : List Move :=
      [.event (.receive 0 two), .deed, .proceed,
        .event (.finish 0 0 (some (.plain "r" 200 []))), .proceed, .deed, .deed]
    let f := (begin (.amqp { name := "a", dispatcher := 0, state := .subscribed }) first (.ok ())
      w).run moves
    f.IsOver ∧
    f.world.replies 0 = [(Protocol.amqp.writeReply (.plain "r" 200 []), .amqp "x" "q" none)] ∧
    f.world.trail 1 = [.decided 1 .dropped, .received 1 0 two] ∧
    ∃ d, Graceful w 0 first f d := by
  intro one two events w first moves f
  obtain ⟨some, ended, nothing, replies, trail⟩ : (w.dispatchers[0]?).isSome = true ∧
      f.connection.result?.isSome = true ∧ f.pending.isEmpty = true ∧
      f.world.replies 0 = [(Protocol.amqp.writeReply (.plain "r" 200 []), .amqp "x" "q" none)] ∧
      f.world.trail 1 = [.decided 1 .dropped, .received 1 0 two] := by
    decide +kernel
  have begun : w.dispatchers[0]? = .some first := by
    obtain ⟨d, here⟩ := Option.isSome_iff_exists.mp some
    simp only [first, here, Option.getD_some]
  have foreign : ∀ e, .event e ∈ moves → e.steers 0 = false := by
    intro e member
    simp only [moves, List.mem_cons, reduceCtorEq, Move.event.injEq, List.not_mem_nil, or_false,
      false_or] at member
    rcases member with rfl | rfl <;> rfl
  exact ⟨⟨ended, List.isEmpty_iff.mp nothing⟩, replies, trail,
    close_loses_nothing _ _ events (.amqp { name := "a", dispatcher := 0, state := .subscribed })
      first (.ok ()) moves begun (fun closed => nomatch closed) foreign⟩

end Farewell

end RequestBus
