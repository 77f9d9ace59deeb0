import RequestBus.Proofs.Connection.Farewell
import RequestBus.Proofs.Connection.Fleet

/-! Runs that reach a broker, lose it and reach it again. Wherever a connection stands, what it shows
and whether its replies are attached go together: messages are only asked for while an answer can be
published. -/
namespace RequestBus

/-! ## What a connection makes of its dispatcher -/

def Dispatcher.steered (d : Dispatcher) : Event → Dispatcher
  | .setState _ state => { d with state }
  | .attach _ p => { d with replies := d.replies.attach p }
  | .detach _ => { d with replies := d.replies.detach }
  | .shutDown _ => { d with pool := d.pool.shutDown }
  | _ => d

namespace Deeds

def lead (deeds : Deeds) (d : Dispatcher) : Dispatcher := deeds.events.foldl Dispatcher.steered d

variable {d : Dispatcher} {i : Nat}

@[simp] theorem lead_nothing : lead {} d = d := rfl

@[simp] theorem lead_report (m : Mark) : (report m).lead d = d := rfl

@[simp] theorem lead_take (e : Event) : (take e).lead d = d.steered e := rfl

@[simp] theorem lead_showing (before after : ConnectionState) :
    (showing i before after).lead d = { d with state := after } := rfl

@[simp] theorem lead_append (a b : Deeds) : (a ++ b).lead d = b.lead (a.lead d) :=
  List.foldl_append

end Deeds

theorem World.step_steered {w : World} {i : Nat} {d : Dispatcher} {e : Event}
    (here : w.dispatchers[i]? = some d) (steers : e.steers i = true) :
    (w.step e).dispatchers[i]? = some (d.steered e) := by
  obtain ⟨sets, detaches, shutsDown⟩ := Farewell.step_steers here
  cases e with
  | setState j state =>
    obtain rfl := beq_iff_eq.mp steers
    exact sets state
  | detach j =>
    obtain rfl := beq_iff_eq.mp steers
    exact detaches
  | shutDown j =>
    obtain rfl := beq_iff_eq.mp steers
    exact shutsDown
  | attach j p =>
    obtain rfl := beq_iff_eq.mp steers
    have there := (List.getElem?_eq_some_iff.mp here).1
    simp [World.step, World.visit, here, World.put, List.getElem?_set_self there,
      Dispatcher.steered]
  | _ => simp [Event.steers] at steers

theorem World.run_lead {w : World} {i : Nat} {d : Dispatcher} {deeds : Deeds}
    (here : w.dispatchers[i]? = some d) (concern : deeds.Concern i) :
    (w.run deeds.events).dispatchers[i]? = some (deeds.lead d) := by
  obtain ⟨reports, events⟩ := deeds
  induction events generalizing w d with
  | nil => exact here
  | cons e events ih =>
    obtain ⟨steers, behind⟩ := List.forall_mem_cons.mp concern
    exact ih (World.step_steered here steers) behind

/-- A refusal of the credentials only ends a run that has not reached its broker. -/
def Denied (wasConnected : Bool) (result : Except BusError Unit) : Prop :=
  ∀ text, result = .error (.authentication text) → wasConnected = false

/-! ## AMQP -/

namespace AmqpConnection

inductive Stands (c : AmqpConnection) (d : Dispatcher) : Prop
  | idle (phase : c.phase = .idle) (state : c.state = .disconnected)
      (silent : d.replies.publisher = none)
  | deciding (phase : c.phase = .deciding) (state : c.state = .disconnected)
      (silent : d.replies.publisher = none)
  | connecting (phase : c.phase = .connecting)
      (state : c.state = .connecting ∨ c.state = .channelOpen ∨ c.state = .exchangeVerified)
      (silent : d.replies.publisher = none)
  | opened (phase : c.phase = .opened) (state : c.state = .queueBound)
      (met : c.wasConnected = true) (attached : d.replies.isAttached = true)
  | serving (phase : c.phase = .serving) (state : c.state = .subscribed)
      (met : c.wasConnected = true) (attached : d.replies.isAttached = true)
  | waiting (phase : c.phase = .waiting) (state : c.state = .disconnected)
      (silent : d.replies.publisher = none)
  | draining (result : Except BusError Unit) (phase : c.phase = .draining result)
      (state : c.state = .closing) (denied : Denied c.wasConnected result)
      (down : d.pool.isShutDown = true)
  | ended (result : Except BusError Unit) (phase : c.phase = .ended result)
      (state : c.state = .closed) (denied : Denied c.wasConnected result)
      (silent : d.replies.publisher = none) (down : d.pool.isShutDown = true)

structure Agrees (c : AmqpConnection) (d : Dispatcher) : Prop where
  shown : d.state = c.state.shown
  stands : c.Stands d

variable {c : AmqpConnection} {d next : Dispatcher}

theorem Agrees.keeps (h : c.Agrees d) (keeps : d.Keeps next) : c.Agrees next := by
  refine ⟨keeps.state.trans h.shown, ?_⟩
  have replies := keeps.replies
  cases h.stands with
  | idle phase state silent => exact .idle phase state (replies ▸ silent)
  | deciding phase state silent => exact .deciding phase state (replies ▸ silent)
  | connecting phase state silent => exact .connecting phase state (replies ▸ silent)
  | opened phase state met attached => exact .opened phase state met (replies ▸ attached)
  | serving phase state met attached => exact .serving phase state met (replies ▸ attached)
  | waiting phase state silent => exact .waiting phase state (replies ▸ silent)
  | draining result phase state denied down =>
    exact .draining result phase state denied (keeps.down down)
  | ended result phase state denied silent down =>
    exact .ended result phase state denied (replies ▸ silent) (keeps.down down)

theorem Agrees.ask (h : c.Agrees d) : { c with stopping := true }.Agrees d := by
  refine ⟨h.shown, ?_⟩
  cases h.stands with
  | idle phase state silent => exact .idle phase state silent
  | deciding phase state silent => exact .deciding phase state silent
  | connecting phase state silent => exact .connecting phase state silent
  | opened phase state met attached => exact .opened phase state met attached
  | serving phase state met attached => exact .serving phase state met attached
  | waiting phase state silent => exact .waiting phase state silent
  | draining result phase state denied down => exact .draining result phase state denied down
  | ended result phase state denied silent down =>
    exact .ended result phase state denied silent down

theorem agrees_beginClose {result : Except BusError Unit} (opened : c.state ≠ .closed)
    (denied : Denied c.wasConnected result) :
    (c.beginClose d result).1.Agrees ((c.beginClose d result).2.lead d) := by
  rw [beginClose_open opened]
  exact ⟨rfl, .draining result rfl rfl denied rfl⟩

theorem agrees_fallBack (closing : c.state.shown.isShuttingDown = false)
    (silent : d.replies.publisher = none) :
    (c.fallBack d).1.Agrees ((c.fallBack d).2.lead d) := by
  have lost : c.state.next .connectionLost = .disconnected := by
    cases state : c.state <;>
      simp_all [AmqpState.next, AmqpState.shown, ConnectionState.isShuttingDown]
  exact ⟨rfl, .waiting rfl lost silent⟩

theorem Agrees.proceed (h : c.Agrees d) :
    (c.proceed d).1.Agrees ((c.proceed d).2.lead d) := by
  have denied : Denied c.wasConnected (.ok ()) := nofun
  cases h.stands with
  | deciding phase state silent =>
    cases stopping : c.stopping with
    | true =>
      have goes : c.proceed d = c.beginClose d (.ok ()) := by
        simp [AmqpConnection.proceed, phase, stopping]
      rw [goes]
      exact agrees_beginClose (by simp [state]) denied
    | false =>
      simp only [AmqpConnection.proceed, phase, stopping, apply, state]
      exact ⟨rfl, .connecting rfl (.inl rfl) silent⟩
  | serving phase state =>
    cases stopping : c.stopping with
    | true =>
      have goes : c.proceed d = c.beginClose d (.ok ()) := by
        simp [AmqpConnection.proceed, phase, stopping]
      rw [goes]
      exact agrees_beginClose (by simp [state]) denied
    | false => simpa [AmqpConnection.proceed, phase, stopping] using h
  | waiting phase state silent =>
    cases stopping : c.stopping with
    | true =>
      simp only [AmqpConnection.proceed, phase, stopping]
      exact ⟨h.shown, .deciding rfl state silent⟩
    | false => simpa [AmqpConnection.proceed, phase, stopping] using h
  | draining result phase state denied down =>
    cases drained : d.pool.isDrained with
    | true =>
      rw [proceed_drained phase state drained]
      exact ⟨rfl, .ended result rfl rfl denied rfl down⟩
    | false => simpa [AmqpConnection.proceed, phase, drained] using h
  | idle phase | connecting phase | opened phase | ended result phase =>
    simpa [AmqpConnection.proceed, phase] using h

theorem agrees_fail (state : c.state = .connecting ∨ c.state = .channelOpen ∨
      c.state = .exchangeVerified) (silent : d.replies.publisher = none) (refused : Bool)
    (text : String) : (c.fail d refused text).1.Agrees ((c.fail d refused text).2.lead d) := by
  have opened : c.state ≠ .closed := by
    rcases state with state | state | state <;> simp [state]
  have closing : c.state.shown.isShuttingDown = false := by
    rcases state with state | state | state <;> simp [state, AmqpState.shown,
      ConnectionState.isShuttingDown]
  cases ends : refused && !c.wasConnected with
  | true =>
    simp only [Bool.and_eq_true, Bool.not_eq_true'] at ends
    have denied : Denied c.wasConnected (.error (.authentication text)) := fun _ _ => ends.2
    simpa [fail, ends] using agrees_beginClose opened denied
  | false => simpa [fail, ends] using agrees_fallBack closing silent

theorem agrees_setUp (phase : c.phase = .connecting)
    (state : c.state = .connecting ∨ c.state = .channelOpen ∨ c.state = .exchangeVerified)
    (silent : d.replies.publisher = none) {e : AmqpEvent} (part : e.isPartial = true) :
    (c.apply d e).1.Agrees ((c.apply d e).2.lead d) := by
  refine ⟨rfl, .connecting phase ?_ silent⟩
  simp only [apply]
  rcases state with state | state | state <;> rw [state] <;> cases e <;>
    first | contradiction | decide

theorem Agrees.signal (h : c.Agrees d) (s : Signal) :
    (c.signal d s).1.Agrees ((c.signal d s).2.lead d) := by
  have stands := h.stands
  unfold AmqpConnection.signal
  split
  case h_1 phase | h_2 phase =>
    cases stands with
    | idle _ _ silent | ended _ _ _ _ silent => exact ⟨rfl, .deciding rfl rfl silent⟩
    | _ => simp_all
  case h_3 => exact h.ask
  case h_4 => exact h.proceed
  case h_5 refused text phase =>
    cases stands with
    | connecting _ state silent => exact agrees_fail state silent refused text
    | _ => simp_all
  case h_6 text phase =>
    cases stands with
    | opened _ state =>
      simp only [abandon, fallBack, apply, state]
      exact ⟨rfl, .waiting rfl rfl rfl⟩
    | _ => simp_all
  case h_7 phase =>
    cases stands with
    | waiting _ state silent => exact ⟨h.shown, .deciding rfl state silent⟩
    | _ => simp_all
  case h_8 e phase =>
    split
    · rename_i part
      cases stands with
      | connecting _ state silent => exact agrees_setUp phase state silent part
      | _ => simp_all
    · exact h
  case h_9 publisher phase =>
    split
    · rename_i state
      simp only [establish, apply, state]
      exact ⟨rfl, .opened rfl rfl rfl rfl⟩
    · exact h
  case h_10 phase =>
    cases stands with
    | opened _ state met attached =>
      simp only [serve, apply, state]
      exact ⟨rfl, .serving rfl rfl met attached⟩
    | _ => simp_all
  case h_11 phase =>
    cases stands with
    | serving _ state =>
      simp only [lose, fallBack, apply, state]
      exact ⟨rfl, .waiting rfl rfl rfl⟩
    | _ => simp_all
  case h_12 => exact h

end AmqpConnection

/-! ## MQTT -/

namespace MqttConnection

/-- Only a client that the broker has accepted has anything to subscribe to. -/
def Entitled (c : MqttConnection) : Prop :=
  c.subscription.isPending = true → c.wasConnected = true

inductive Stands (c : MqttConnection) (d : Dispatcher) : Prop
  | idle (phase : c.phase = .idle) (state : d.state = .disconnected)
      (silent : d.replies.publisher = none)
  | polling (phase : c.phase = .polling)
      (state : d.state = .connecting ∨ d.state = .subscribed ∧ c.wasConnected = true)
      (entitled : c.Entitled) (attached : d.replies.isAttached = true)
  | pausing (phase : c.phase = .pausing) (state : d.state = .disconnected)
      (entitled : c.Entitled) (attached : d.replies.isAttached = true)
  | draining (phase : c.phase = .draining) (state : d.state = .closing)
      (down : d.pool.isShutDown = true)
  | disconnecting (phase : c.phase = .disconnecting) (state : d.state = .closing)
      (silent : d.replies.publisher = none) (down : d.pool.isShutDown = true)
  | ended (result : Except BusError Unit) (phase : c.phase = .ended result)
      (state : d.state = .closed) (denied : Denied c.wasConnected result)
      (silent : d.replies.publisher = none) (down : d.pool.isShutDown = true)

variable {c : MqttConnection} {d next : Dispatcher}

theorem Stands.keeps (h : c.Stands d) (keeps : d.Keeps next) : c.Stands next := by
  have replies := keeps.replies
  have shown := keeps.state
  cases h with
  | idle phase state silent => exact .idle phase (shown.trans state) (replies ▸ silent)
  | polling phase state entitled attached =>
    exact .polling phase (by rwa [shown]) entitled (replies ▸ attached)
  | pausing phase state entitled attached =>
    exact .pausing phase (shown.trans state) entitled (replies ▸ attached)
  | draining phase state down => exact .draining phase (shown.trans state) (keeps.down down)
  | disconnecting phase state silent down =>
    exact .disconnecting phase (shown.trans state) (replies ▸ silent) (keeps.down down)
  | ended result phase state denied silent down =>
    exact .ended result phase (shown.trans state) denied (replies ▸ silent) (keeps.down down)

theorem Stands.ask (h : c.Stands d) : { c with stopping := true }.Stands d := by
  cases h with
  | idle phase state silent => exact .idle phase state silent
  | polling phase state entitled attached => exact .polling phase state entitled attached
  | pausing phase state entitled attached => exact .pausing phase state entitled attached
  | draining phase state down => exact .draining phase state down
  | disconnecting phase state silent down => exact .disconnecting phase state silent down
  | ended result phase state denied silent down =>
    exact .ended result phase state denied silent down

theorem Stands.proceed (h : c.Stands d) : (c.proceed d).1.Stands ((c.proceed d).2.lead d) := by
  have stands := h
  unfold MqttConnection.proceed
  split
  case h_1 | h_2 =>
    split
    · exact .draining rfl rfl rfl
    · exact h
  case h_3 phase =>
    split
    · cases stands with
      | draining _ state down => exact .disconnecting rfl state rfl down
      | _ => simp_all
    · exact h
  case h_4 phase =>
    cases stands with
    | disconnecting _ _ silent down => exact .ended (.ok ()) rfl rfl nofun silent down
    | _ => simp_all
  case h_5 => exact h

theorem Stands.fail (h : c.Stands d) (phase : c.phase = .polling) (refused : Bool)
    (text : String) : (c.fail d refused text).1.Stands ((c.fail d refused text).2.lead d) := by
  unfold MqttConnection.fail
  split
  · rename_i ends
    simp only [Bool.and_eq_true, Bool.not_eq_true'] at ends
    exact .ended _ rfl rfl (fun _ _ => ends.2) rfl rfl
  · cases h with
    | polling _ _ _ attached => exact .pausing rfl rfl nofun attached
    | _ => simp_all

theorem Stands.welcome (h : c.Stands d) (phase : c.phase = .polling) : c.welcome.Stands d := by
  cases h with
  | polling _ state _ attached =>
    exact .polling phase (state.imp id fun shown => ⟨shown.1, rfl⟩) (fun _ => rfl) attached
  | _ => simp_all

theorem subscribe_queued (pending : c.subscription.isPending = true) : c.subscribe d true =
    ({ c with subscription := {} }, c.showing d .subscribed ++ .report .ok) := by
  simp [MqttConnection.subscribe, Mqtt.Subscription.attempt, pending]

theorem subscribe_idle {queued : Bool} (idle : c.subscription.isPending = false ∨ queued = false) :
    c.subscribe d queued = (c, {}) := by
  rcases idle with pending | rfl
  · simp [MqttConnection.subscribe, Mqtt.Subscription.attempt, pending]
  · cases pending : c.subscription.isPending <;>
      simp [MqttConnection.subscribe, Mqtt.Subscription.attempt, pending]

theorem Stands.subscribe (h : c.Stands d) (phase : c.phase = .polling) (queued : Bool) :
    (c.subscribe d queued).1.Stands ((c.subscribe d queued).2.lead d) := by
  by_cases idle : c.subscription.isPending = false ∨ queued = false
  · rw [subscribe_idle idle]
    exact h
  · simp only [not_or, Bool.not_eq_false] at idle
    obtain ⟨pending, rfl⟩ := idle
    rw [subscribe_queued pending]
    cases h with
    | polling _ _ entitled attached =>
      exact .polling phase (.inr ⟨rfl, entitled pending⟩) nofun attached
    | _ => simp_all

theorem Stands.signal (h : c.Stands d) (s : Signal) :
    (c.signal d s).1.Stands ((c.signal d s).2.lead d) := by
  unfold MqttConnection.signal
  split
  case h_1 | h_2 => exact .polling rfl (.inl rfl) nofun rfl
  case h_3 => exact h.ask
  case h_4 => exact h.proceed
  case h_5 refused text phase => exact h.fail phase refused text
  case h_6 accepted queued phase =>
    unfold MqttConnection.poll
    split
    · exact (h.welcome phase).subscribe phase queued
    · exact h.subscribe phase queued
  case h_7 phase =>
    cases h with
    | pausing _ _ entitled attached => exact .polling rfl (.inl rfl) entitled attached
    | _ => simp_all
  case h_8 => exact h

end MqttConnection

/-! ## In a fleet -/

namespace Connection

def wasConnected : Connection → Bool
  | .amqp c => c.wasConnected
  | .mqtt c => c.wasConnected

def Agrees : Connection → Dispatcher → Prop
  | .amqp c, d => c.Agrees d
  | .mqtt c, d => c.Stands d

variable {c : Connection} {d next : Dispatcher}

theorem Agrees.keeps (h : c.Agrees d) (keeps : d.Keeps next) : c.Agrees next := by
  cases c with
  | amqp c => exact AmqpConnection.Agrees.keeps h keeps
  | mqtt c => exact MqttConnection.Stands.keeps h keeps

theorem Agrees.signal (h : c.Agrees d) (s : Signal) :
    (c.signal d s).1.Agrees ((c.signal d s).2.lead d) := by
  cases c with
  | amqp c => exact AmqpConnection.Agrees.signal h s
  | mqtt c => exact MqttConnection.Stands.signal h s

theorem agrees_ofIdentity (identity : Identity) (i workers : Nat) :
    (ofIdentity identity i).Agrees (.new identity.name identity.route workers) := by
  unfold ofIdentity
  split
  · exact ⟨rfl, .idle rfl rfl rfl⟩
  · exact .idle rfl rfl rfl

/-- What can be relied on, whatever a connection has gone through. -/
structure Reliable (c : Connection) (d : Dispatcher) : Prop where
  attached : d.state = .subscribed → d.replies.isAttached = true ∧ c.wasConnected = true
  closed : d.state = .closed → d.replies.isAttached = false ∧ d.pool.isShutDown = true
  ended : c.result?.isSome = true ↔ d.state = .closed
  denied : ∀ text, c.result? = some (.error (.authentication text)) → c.wasConnected = false

theorem reliable_amqp {c : AmqpConnection} (h : c.Agrees d) : (amqp c).Reliable d := by
  obtain ⟨shown, stands⟩ := h
  cases stands with
  | idle phase state | deciding phase state | waiting phase state | opened phase state
  | draining _ phase state =>
    constructor <;> simp [shown, state, AmqpState.shown, result?, phase]
  | connecting phase state =>
    have connecting : d.state = .connecting := by
      rcases state with state | state | state <;> rw [shown, state] <;> rfl
    constructor <;> simp [connecting, result?, phase]
  | serving phase state met attached =>
    constructor <;> simp [shown, state, AmqpState.shown, result?, phase, wasConnected, met, attached]
  | ended result phase state denied silent down =>
    constructor
    case denied =>
      intro text same
      refine denied text (Option.some.inj ?_)
      rwa [result?, phase] at same
    all_goals simp [shown, state, AmqpState.shown, result?, phase, ReplyChannel.isAttached, silent,
      down]

theorem reliable_mqtt {c : MqttConnection} (h : c.Stands d) : (mqtt c).Reliable d := by
  cases h with
  | idle phase state | pausing phase state | draining phase state | disconnecting phase state =>
    constructor <;> simp [state, result?, phase]
  | polling phase state entitled attached =>
    rcases state with state | ⟨state, met⟩
    · constructor <;> simp [state, result?, phase]
    · constructor <;> simp [state, result?, phase, wasConnected, met, attached]
  | ended result phase state denied silent down =>
    constructor
    case denied =>
      intro text same
      refine denied text (Option.some.inj ?_)
      rwa [result?, phase] at same
    all_goals simp [state, result?, phase, ReplyChannel.isAttached, silent, down]

theorem Agrees.reliable (h : c.Agrees d) : c.Reliable d := by
  cases c with
  | amqp c => exact reliable_amqp h
  | mqtt c => exact reliable_mqtt h

end Connection

namespace Fleet

structure Sound (f : Fleet) : Prop where
  placed : f.Placed
  agrees : ∀ (i : Nat) (c : Connection), f.connections[i]? = some c →
    ∃ d, f.shop.world.dispatchers[i]? = some d ∧ c.Agrees d

variable {f start : Fleet}

theorem sound_given (s : Settings) (registry : Registry) (handler : Request → Handling) :
    (given s registry handler).Sound := by
  refine ⟨placed_given, fun i c member => ?_⟩
  obtain ⟨identity, here, rfl⟩ := connections_given.mp member
  exact ⟨_, dispatcher_given here,
    Connection.agrees_ofIdentity identity i s.dispatch.poolSize.toNat⟩

theorem Sound.move (h : f.Sound) (m : Move) (foreign : ∀ e i, m = .event e → e.steers i = false) :
    (f.move m).Sound := by
  refine ⟨placed_follow h.placed [m], fun i c member => ?_⟩
  cases m with
  | event e =>
    obtain ⟨d, here, agrees⟩ := h.agrees i c member
    obtain ⟨next, there, becomes⟩ := World.dispatcher_step here e
    exact ⟨next, there, agrees.keeps (becomes.keeps (foreign e i rfl))⟩
  | report | refresh => exact h.agrees i c member
  | signal now j s =>
    rcases f.move_signal now j s with same | ⟨own, d, own_member, here, same⟩
    · rw [same] at member ⊢
      exact h.agrees i c member
    · by_cases self : i = j
      · subst self
        rw [same, List.getElem?_set_self (List.getElem?_eq_some_iff.mp own_member).1] at member
        cases member
        obtain ⟨d', here', agrees⟩ := h.agrees i own own_member
        rw [dispatcher?, h.placed i own own_member] at here
        cases here'.symm.trans here
        have concern := (own.keeps (d := d) s).concern
        rw [h.placed i own own_member] at concern
        exact ⟨_, by rw [same]; exact World.run_lead here concern, agrees.signal s⟩
      · have other : (Move.signal now j s).actor? ≠ some i := fun self' =>
          self (Option.some.inj self').symm
        rw [dispatchers_move h.placed other]
        rw [same, List.getElem?_set_ne (Ne.symm self)] at member
        exact h.agrees i c member

theorem Sound.follow (h : f.Sound) (moves : List Move)
    (foreign : ∀ e i, .event e ∈ moves → e.steers i = false) : (f.follow moves).Sound := by
  induction moves generalizing f with
  | nil => exact h
  | cons m moves ih =>
    have moved := h.move m fun e i same => foreign e i (same ▸ List.mem_cons_self)
    exact ih moved fun e i later => foreign e i (List.mem_cons_of_mem _ later)

/-- Whatever signals connections are given, and whatever their dispatchers and workers do meanwhile,
each of them only shows that it is subscribed while an answer can be published, and comes to its end
detached and with its pool shut down. -/
theorem reliable_follow (s : Settings) (registry : Registry) (handler : Request → Handling)
    (built : ofSettings s registry handler = .ok start) (moves : List Move)
    (foreign : ∀ e i, .event e ∈ moves → e.steers i = false) (i : Nat) (c : Connection)
    (member : (start.follow moves).connections[i]? = some c) :
    ∃ d, (start.follow moves).dispatcher? c = some d ∧ c.Reliable d := by
  have fits : ¬ s.Overflows := by
    intro overflows
    rw [ofSettings_of_overflows overflows] at built
    contradiction
  obtain rfl : given s registry handler = start :=
    Except.ok.inj ((ofSettings_of_fits fits).symm.trans built)
  have sound := (sound_given s registry handler).follow moves foreign
  obtain ⟨d, here, agrees⟩ := sound.agrees i c member
  exact ⟨d, by rw [dispatcher?, sound.placed i c member]; exact here, agrees.reliable⟩

end Fleet

end RequestBus
