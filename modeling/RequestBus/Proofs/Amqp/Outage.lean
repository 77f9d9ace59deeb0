import RequestBus.Amqp.Protocol
import RequestBus.Proofs.Amqp.Berth

/-! A run of an AMQP connection that never reaches its broker. It tries, falls back and waits,
again and again, until it is asked to stop or the broker refuses its credentials. Whenever that
is, it closes in the same way, with its workers at an end and its replies detached. -/
namespace RequestBus

/-- An attempt to reach the broker that has failed, and what there is to say about it. -/
structure Attempt where
  progress : Amqp.Progress
  failure : Amqp.Failure
  text : String

namespace Attempt

def refused (a : Attempt) : Bool := Amqp.isCredentialRefusal a.progress a.failure

def shows (a : Attempt) : List ConnectionState :=
  if a.refused then [.connecting] else [.connecting, .disconnected]

end Attempt

def AmqpPhase.shows : AmqpPhase → List ConnectionState
  | .idle | .deciding | .waiting => []
  | .connecting | .opened => [.connecting]
  | .serving => [.connecting, .subscribed]
  | .draining _ => [.closing]
  | .ended _ => [.closing, .closed]

/-- A run without a broker. -/
structure Outage where
  berth : Berth
  failed : List Attempt := []

namespace Outage

inductive Move where
  | stop
  | proceed
  | elapsed
  | setup (e : AmqpEvent)
  | fail (a : Attempt)
  | event (e : Event)

def signal (o : Outage) (s : Signal) : Outage :=
  { o with berth := o.berth.act fun c d => c.signal d s }

def step (o : Outage) : Move → Outage
  | .stop => o.signal .stop
  | .proceed => o.signal .proceed
  | .elapsed => o.signal .elapsed
  | .setup e => o.signal (.setUp e)
  | .fail a =>
    match o.berth.connection.phase with
    | .connecting => { o.signal (.failed a.refused a.text) with failed := o.failed ++ [a] }
    | _ => o
  | .event e => { o with berth := o.berth.take e }

def run (o : Outage) (moves : List Move) : Outage := moves.foldl step o

def begin (c : AmqpConnection) (w : World) : Outage :=
  { berth := Berth.act ⟨c, w, []⟩ fun c d => c.signal d .start }

def past (failed : List Attempt) : List ConnectionState :=
  .disconnected :: failed.flatMap Attempt.shows

/-- Why a run ends, and how. -/
inductive Ends (stopping : Bool) (failed : List Attempt) : Except BusError Unit → Prop
  | asked (asked : stopping = true) (others : ∀ a ∈ failed, a.refused = false) :
      Ends stopping failed (.ok ())
  | refused (before : List Attempt) (a : Attempt) (last : failed = before ++ [a])
      (others : ∀ a ∈ before, a.refused = false) (refused : a.refused = true) :
      Ends stopping failed (.error (.authentication a.text))

/-- How far a run has got, and what that means for its dispatcher. -/
inductive Stands (failed : List Attempt) (d : Dispatcher) : AmqpConnection → Prop
  | deciding (c : AmqpConnection) (phase : c.phase = .deciding) (state : c.state = .disconnected)
      (others : ∀ a ∈ failed, a.refused = false) : Stands failed d c
  | connecting (c : AmqpConnection) (phase : c.phase = .connecting)
      (state : c.state = .connecting ∨ c.state = .channelOpen ∨ c.state = .exchangeVerified)
      (others : ∀ a ∈ failed, a.refused = false) : Stands failed d c
  | waiting (c : AmqpConnection) (phase : c.phase = .waiting) (state : c.state = .disconnected)
      (others : ∀ a ∈ failed, a.refused = false) : Stands failed d c
  | draining (c : AmqpConnection) (result : Except BusError Unit)
      (phase : c.phase = .draining result) (state : c.state = .closing)
      (ends : Ends c.stopping failed result) (down : d.pool.isShutDown = true) : Stands failed d c
  | ended (c : AmqpConnection) (result : Except BusError Unit) (phase : c.phase = .ended result)
      (state : c.state = .closed) (ends : Ends c.stopping failed result)
      (drained : d.pool.isDrained = true) (silent : d.replies.publisher = none) :
      Stands failed d c

structure Sound (i : Nat) (o : Outage) (d : Dispatcher) : Prop where
  own : o.berth.connection.dispatcher = i
  here : o.berth.world.dispatchers[i]? = some d
  tidy : o.berth.world.Tidy fun _ _ => True
  shown : d.state = o.berth.connection.state.shown
  seen : o.berth.seen = past o.failed ++ o.berth.connection.phase.shows
  unmet : o.berth.connection.wasConnected = false
  stands : Stands o.failed d o.berth.connection

variable {i : Nat} {o : Outage} {d next : Dispatcher} {failed : List Attempt} {c : AmqpConnection}

theorem Stands.keeps (h : Stands failed d c) (keeps : d.Keeps next) : Stands failed next c := by
  cases h with
  | deciding phase state others => exact .deciding c phase state others
  | connecting phase state others => exact .connecting c phase state others
  | waiting phase state others => exact .waiting c phase state others
  | draining result phase state ends down =>
    exact .draining c result phase state ends (keeps.down down)
  | ended result phase state ends drained silent =>
    exact .ended c result phase state ends (keeps.drained drained) (keeps.replies ▸ silent)

theorem Ends.ask {stopping : Bool} {result : Except BusError Unit}
    (h : Ends stopping failed result) : Ends true failed result := by
  cases h with
  | asked _ others => exact .asked rfl others
  | refused before a last others refused => exact .refused before a last others refused

theorem Stands.ask (h : Stands failed d c) : Stands failed d { c with stopping := true } := by
  cases h with
  | deciding phase state others => exact .deciding _ phase state others
  | connecting phase state others => exact .connecting _ phase state others
  | waiting phase state others => exact .waiting _ phase state others
  | draining result phase state ends down => exact .draining _ result phase state ends.ask down
  | ended result phase state ends drained silent =>
    exact .ended _ result phase state ends.ask drained silent

theorem past_concat (failed : List Attempt) (a : Attempt) :
    past (failed ++ [a]) = past failed ++ a.shows := by
  simp [past]

theorem getLast?_past (others : ∀ a ∈ failed, a.refused = false) :
    (past failed).getLast? = some .disconnected := by
  cases failed using List.reverseRecOn with
  | nil => rfl
  | append_singleton failed a =>
    have fallsBack : a.refused = false := others a (by simp)
    simp [past_concat, Attempt.shows, fallsBack]

/-! ## What a move keeps -/

theorem Sound.dispatcher (h : Sound i o d) : o.berth.dispatcher? = some d := by
  rw [Berth.dispatcher?, h.own]
  exact h.here

theorem Sound.getLast? (h : Sound i o d) : o.berth.seen.getLast? = some d.state := by
  rw [h.seen, h.shown]
  cases h.stands with
  | deciding phase state others | waiting phase state others =>
    rw [phase, state, AmqpPhase.shows, List.append_nil, getLast?_past others]
    rfl
  | connecting phase state others =>
    rw [phase]
    rcases state with state | state | state <;> simp [state, AmqpPhase.shows, AmqpState.shown]
  | draining result phase state | ended result phase state =>
    simp [phase, state, AmqpPhase.shows, AmqpState.shown]

section Goes
variable (h : Sound i o d) (deed : AmqpConnection → Dispatcher → AmqpConnection × Deeds)
include h

theorem Sound.silent (goes : deed o.berth.connection d = (c, {}))
    (own : c.dispatcher = o.berth.connection.dispatcher)
    (state : c.state = o.berth.connection.state)
    (shows : c.phase.shows = o.berth.connection.phase.shows)
    (met : c.wasConnected = o.berth.connection.wasConnected) (stands : Stands o.failed d c) :
    Sound i { o with berth := o.berth.act deed } d := by
  rw [Berth.act_eq h.dispatcher, goes]
  exact ⟨own.trans h.own, h.here, h.tidy, h.shown.trans (congrArg _ state.symm),
    h.seen.trans (congrArg _ shows.symm), met.trans h.unmet, stands⟩

theorem Sound.shows {deeds : Deeds} (goes : deed o.berth.connection d = (c, deeds))
    (events : deeds.events = [.setState o.berth.connection.dispatcher c.state.shown])
    (own : c.dispatcher = o.berth.connection.dispatcher)
    (met : c.wasConnected = o.berth.connection.wasConnected)
    (seen : Berth.see o.berth.seen (some c.state.shown) = past failed ++ c.phase.shows)
    (stands : Stands failed { d with state := c.state.shown } c) :
    Sound i ⟨o.berth.act deed, failed⟩ { d with state := c.state.shown } := by
  rw [Berth.act_shows h.dispatcher (by rw [goes]; exact own) (by rw [goes]; exact events), h.own,
    goes]
  exact ⟨own.trans h.own, (Farewell.step_steers h.here).1 _,
    Berth.tidy_step h.tidy (.setState _ _), rfl, seen, met.trans h.unmet, stands⟩

theorem Sound.closes (reports : Deeds) {result : Except BusError Unit}
    (opened : o.berth.connection.state ≠ .closed) (reported : reports.events = [])
    (goes : deed o.berth.connection d = ((o.berth.connection.beginClose d result).1,
      reports ++ (o.berth.connection.beginClose d result).2))
    (seen : Berth.see o.berth.seen (some .closing) = past failed ++ [.closing])
    (ends : Ends o.berth.connection.stopping failed result) :
    Sound i ⟨o.berth.act deed, failed⟩ { d with state := .closing, pool := d.pool.shutDown } := by
  rw [AmqpConnection.beginClose_open opened] at goes
  have events : (deed o.berth.connection d).2.events = [.setState o.berth.connection.dispatcher
      .closing, .shutDown o.berth.connection.dispatcher] := by
    rw [goes]
    exact congrArg (· ++ _) reported
  have first := (Farewell.step_steers (w := o.berth.world) h.dispatcher).1 .closing
  have second := (Farewell.step_steers first).2.2
  rw [Berth.act_pair h.dispatcher (by rw [goes]) events first second, goes,
    Berth.see_same (Berth.getLast?_see _ _)]
  exact ⟨h.own, h.own ▸ second, Berth.tidy_step (Berth.tidy_step h.tidy _) (.shutDown _), rfl,
    seen, h.unmet, .draining _ result rfl rfl ends rfl⟩

theorem Sound.leaves {result : Except BusError Unit}
    (phase : o.berth.connection.phase = .draining result)
    (state : o.berth.connection.state = .closing) (drained : d.pool.isDrained = true)
    (goes : deed o.berth.connection d = o.berth.connection.proceed d)
    (ends : Ends o.berth.connection.stopping o.failed result) :
    Sound i { o with berth := o.berth.act deed }
      { d with state := .closed, replies := d.replies.detach } := by
  rw [AmqpConnection.proceed_drained phase state drained] at goes
  have events : (deed o.berth.connection d).2.events = [.detach o.berth.connection.dispatcher,
      .setState o.berth.connection.dispatcher .closed] := by
    rw [goes]
    rfl
  have first := (Farewell.step_steers (w := o.berth.world) h.dispatcher).2.1
  have second := (Farewell.step_steers first).1 .closed
  have shown : d.state = .closing := by
    rw [h.shown, state]
    rfl
  rw [Berth.act_pair h.dispatcher (by rw [goes]) events first second, goes,
    Berth.see_same h.getLast?]
  refine ⟨h.own, h.own ▸ second, Berth.tidy_step (Berth.tidy_step h.tidy _) (.setState _ _), rfl,
    ?_, h.unmet, .ended _ result rfl rfl ends drained rfl⟩
  rw [Berth.see_new (by rw [h.getLast?, shown]; simp), h.seen, phase]
  simp [AmqpPhase.shows]

end Goes

/-- After something that the connection has done, everything is as it should be, and its workers
are where they were. -/
def Keeps (i : Nat) (d : Dispatcher) (o : Outage) : Prop :=
  ∃ next, Sound i o next ∧ next.pool.tasks = d.pool.tasks

theorem Sound.proceed (h : Sound i o d) : Keeps i d (o.signal .proceed) := by
  have signal : o.berth.connection.signal d .proceed = o.berth.connection.proceed d := rfl
  let goesOn (c : AmqpConnection) (d : Dispatcher) := c.signal d .proceed
  cases h.stands with
  | deciding phase state others =>
    have last : o.berth.seen.getLast? = some .disconnected := by
      rw [h.getLast?, h.shown, state]
      rfl
    have seen : o.berth.seen = past o.failed := by rw [h.seen, phase]; simp [AmqpPhase.shows]
    cases stopping : o.berth.connection.stopping with
    | true =>
      have goes : o.berth.connection.proceed d = o.berth.connection.beginClose d (.ok ()) := by
        simp [AmqpConnection.proceed, phase, stopping]
      refine ⟨_, h.closes goesOn {} (by simp [state]) rfl (signal.trans goes) ?_
        (.asked stopping others), rfl⟩
      rw [Berth.see_new (by rw [last]; simp), seen]
    | false =>
      have goes : o.berth.connection.proceed d =
          ({ o.berth.connection with state := .connecting, phase := .connecting },
            .showing o.berth.connection.dispatcher d.state .connecting) := by
        simp [AmqpConnection.proceed, phase, stopping, AmqpConnection.apply, state,
          AmqpState.next, AmqpState.shown]
      refine ⟨_, h.shows goesOn (signal.trans goes) rfl rfl rfl ?_
        (.connecting _ rfl (.inl rfl) others), rfl⟩
      rw [Berth.see_new (by rw [last]; simp [AmqpState.shown]), seen]
      rfl
  | connecting phase | ended result phase =>
    have goes : o.berth.connection.proceed d = (o.berth.connection, {}) := by
      simp [AmqpConnection.proceed, phase]
    exact ⟨d, h.silent goesOn (signal.trans goes) rfl rfl rfl rfl h.stands, rfl⟩
  | waiting phase state others =>
    have goes : o.berth.connection.proceed d = (if o.berth.connection.stopping then
        { o.berth.connection with phase := .deciding } else o.berth.connection, {}) := by
      simp [AmqpConnection.proceed, phase]
    rw [← signal] at goes
    split at goes
    · exact ⟨d, h.silent goesOn goes rfl rfl (by rw [phase]; rfl) rfl
        (.deciding _ rfl state others), rfl⟩
    · exact ⟨d, h.silent goesOn goes rfl rfl rfl rfl h.stands, rfl⟩
  | draining result phase state ends down =>
    cases drained : d.pool.isDrained with
    | true => exact ⟨_, h.leaves goesOn phase state drained signal ends, rfl⟩
    | false =>
      have goes : o.berth.connection.proceed d = (o.berth.connection, {}) := by
        simp [AmqpConnection.proceed, phase, drained]
      exact ⟨d, h.silent goesOn (signal.trans goes) rfl rfl rfl rfl h.stands, rfl⟩

theorem Sound.elapsed (h : Sound i o d) : Keeps i d (o.signal .elapsed) := by
  cases h.stands with
  | waiting phase state others =>
    have goes : o.berth.connection.signal d .elapsed =
        ({ o.berth.connection with phase := .deciding }, {}) := by
      simp [AmqpConnection.signal, phase]
    exact ⟨d, h.silent (fun c d => c.signal d .elapsed) goes rfl rfl (by rw [phase]; rfl) rfl
      (.deciding _ rfl state others), rfl⟩
  | deciding phase | connecting phase | draining result phase | ended result phase =>
    have goes : o.berth.connection.signal d .elapsed = (o.berth.connection, {}) := by
      simp [AmqpConnection.signal, phase]
    exact ⟨d, h.silent (fun c d => c.signal d .elapsed) goes rfl rfl rfl rfl h.stands, rfl⟩

theorem Sound.setup (h : Sound i o d) (e : AmqpEvent) : Keeps i d (o.step (.setup e)) := by
  cases h.stands with
  | connecting phase state others =>
    cases part : e.isPartial with
    | true =>
      have goes : o.berth.connection.signal d (.setUp e) = o.berth.connection.apply d e := by
        simp [AmqpConnection.signal, phase, part]
      have onward : (o.berth.connection.state.next e = .connecting ∨
          o.berth.connection.state.next e = .channelOpen ∨
          o.berth.connection.state.next e = .exchangeVerified) ∧
          (o.berth.connection.state.next e).shown = .connecting := by
        rcases state with state | state | state <;> rw [state] <;> cases e <;>
          first | contradiction | decide
      have last : d.state = .connecting := by
        rw [h.shown]
        rcases state with state | state | state <;> rw [state] <;> rfl
      refine ⟨_, h.shows (fun c d => c.signal d (.setUp e)) goes rfl rfl rfl ?_
        (.connecting _ phase onward.1 others), rfl⟩
      rw [onward.2, ← last, Berth.see_same h.getLast?]
      exact h.seen
    | false =>
      have goes : o.berth.connection.signal d (.setUp e) = (o.berth.connection, {}) := by
        simp [AmqpConnection.signal, phase, part]
      exact ⟨d, h.silent (fun c d => c.signal d (.setUp e)) goes rfl rfl rfl rfl h.stands, rfl⟩
  | deciding phase | waiting phase | draining result phase | ended result phase =>
    have goes : o.berth.connection.signal d (.setUp e) = (o.berth.connection, {}) := by
      simp [AmqpConnection.signal, phase]
    exact ⟨d, h.silent (fun c d => c.signal d (.setUp e)) goes rfl rfl rfl rfl h.stands, rfl⟩

theorem Sound.fail (h : Sound i o d) (a : Attempt) : Keeps i d (o.step (.fail a)) := by
  rw [Outage.step]
  split
  · rename_i phase
    cases h.stands with
    | connecting _ state others =>
      have opened : o.berth.connection.state ≠ .closed := by
        rcases state with state | state | state <;> simp [state]
      have last : o.berth.seen.getLast? = some .connecting := by
        rw [h.seen, phase]
        simp [AmqpPhase.shows]
      cases refused : a.refused with
      | true =>
        have goes : o.berth.connection.signal d (.failed true a.text) =
            ((o.berth.connection.beginClose d (.error (.authentication a.text))).1,
              .report (.error a.text) ++
                (o.berth.connection.beginClose d (.error (.authentication a.text))).2) := by
          simp [AmqpConnection.signal, phase, AmqpConnection.fail, h.unmet]
        -- no fall back: the state goes from connecting straight to closing
        refine ⟨_, h.closes (fun c d => c.signal d (.failed true a.text)) (.report (.error a.text))
          opened rfl goes ?_ (.refused o.failed a rfl others refused), rfl⟩
        rw [Berth.see_new (by rw [last]; simp), h.seen, phase, past_concat]
        simp [Attempt.shows, refused, AmqpPhase.shows]
      | false =>
        have lost : o.berth.connection.state.next .connectionLost = .disconnected := by
          rcases state with state | state | state <;> rw [state] <;> rfl
        have goes : o.berth.connection.signal d (.failed false a.text) =
            ({ o.berth.connection with state := .disconnected, phase := .waiting },
              .report (.error a.text) ++
                .showing o.berth.connection.dispatcher d.state .disconnected) := by
          simp [AmqpConnection.signal, phase, AmqpConnection.fail, AmqpConnection.fallBack,
            AmqpConnection.apply, lost, AmqpState.shown]
        refine ⟨_, h.shows (fun c d => c.signal d (.failed false a.text)) goes rfl rfl rfl ?_
          (.waiting _ rfl rfl ?_), rfl⟩
        · rw [Berth.see_new (by rw [last]; simp [AmqpState.shown]), h.seen, phase, past_concat]
          simp [Attempt.shows, refused, AmqpPhase.shows, AmqpState.shown]
        · intro b member
          rcases List.mem_append.mp member with member | member
          · exact others b member
          · rwa [List.mem_singleton.mp member]
    | _ => simp_all
  · exact ⟨d, h, rfl⟩

theorem Sound.step (h : Sound i o d) (move : Move)
    (foreign : ∀ e, move = .event e → e.steers i = false) :
    ∃ next, Sound i (o.step move) next := by
  cases move with
  | stop => exact ⟨d, h.silent (fun c d => c.signal d .stop) rfl rfl rfl rfl rfl h.stands.ask⟩
  | proceed => exact h.proceed.imp fun _ => And.left
  | elapsed => exact h.elapsed.imp fun _ => And.left
  | setup e => exact (h.setup e).imp fun _ => And.left
  | fail a => exact (h.fail a).imp fun _ => And.left
  | event e =>
    obtain ⟨next, there, becomes⟩ := World.dispatcher_step h.here e
    have keeps := becomes.keeps (foreign e rfl)
    refine ⟨next, ?_⟩
    rw [Outage.step, Berth.take_eq (h.own ▸ there), keeps.state, Berth.see_same h.getLast?]
    exact ⟨h.own, there, Berth.tidy_step h.tidy e, keeps.state.trans h.shown, h.seen, h.unmet,
      h.stands.keeps keeps⟩

theorem Sound.run (h : Sound i o d) (moves : List Move)
    (foreign : ∀ e, .event e ∈ moves → e.steers i = false) :
    ∃ next, Sound i (o.run moves) next := by
  induction moves generalizing o d with
  | nil => exact ⟨d, h⟩
  | cons move moves ih =>
    obtain ⟨next, sound⟩ := h.step move fun e same => foreign e (same ▸ List.mem_cons_self)
    exact ih sound fun e later => foreign e (List.mem_cons_of_mem _ later)

theorem sound_begin {w : World} (tidy : w.Tidy fun _ _ => True)
    (here : w.dispatchers[c.dispatcher]? = some d)
    (rests : c.phase = .idle ∨ ∃ result, c.phase = .ended result) :
    ∃ next, Sound c.dispatcher (begin c w) next := by
  have goes : c.signal d .start =
      ({ c with state := .disconnected, phase := .deciding, wasConnected := false },
        .showing c.dispatcher d.state .disconnected) := by
    rcases rests with phase | ⟨result, phase⟩ <;>
      simp [AmqpConnection.signal, phase, AmqpConnection.reset]
  refine ⟨{ d with state := .disconnected }, ?_⟩
  rw [begin, Berth.act_shows (b := ⟨c, w, []⟩) here (by rw [goes]) (by rw [goes]; rfl), goes]
  exact ⟨rfl, (Farewell.step_steers here).1 _, Berth.tidy_step tidy (.setState _ _), rfl, rfl,
    rfl, .deciding _ rfl rfl (by simp)⟩

/-! ## The end of it -/

/-- The steps of its own that a run is away from its end once it is to end. -/
def rank : AmqpPhase → Nat
  | .idle | .ended _ => 0
  | .draining _ => 1
  | .deciding => 2
  | .waiting => 3
  | .connecting | .opened | .serving => 4

def Due (o : Outage) : Prop :=
  o.berth.connection.stopping = true ∨ ∃ a ∈ o.failed, a.refused = true

theorem stopping_proceed (c : AmqpConnection) (d : Dispatcher) :
    (c.proceed d).1.stopping = c.stopping := by
  unfold AmqpConnection.proceed
  split
  case h_5 => rfl
  all_goals split <;> rfl

theorem Due.proceed (due : o.Due) (h : Sound i o d) : (o.signal .proceed).Due := by
  have same : (o.signal .proceed).berth.connection.stopping = o.berth.connection.stopping :=
    (congrArg AmqpConnection.stopping (Berth.connection_act h.dispatcher)).trans
      (stopping_proceed _ d)
  exact due.imp same.trans id

theorem Sound.closer (h : Sound i o d) (due : o.Due) (empty : d.pool.tasks = [])
    (settled : rank o.berth.connection.phase ≤ 3) :
    rank (o.signal .proceed).berth.connection.phase ≤ rank o.berth.connection.phase - 1 := by
  have goes : (o.signal .proceed).berth.connection = (o.berth.connection.proceed d).1 :=
    Berth.connection_act h.dispatcher
  have asked (others : ∀ a ∈ o.failed, a.refused = false) :
      o.berth.connection.stopping = true := by
    rcases due with asked | ⟨a, member, refused⟩
    · exact asked
    · simp [others a member] at refused
  rw [goes]
  cases h.stands with
  | deciding phase state others =>
    simp [AmqpConnection.proceed, phase, asked others, AmqpConnection.beginClose, rank]
  | connecting phase => simp [phase, rank] at settled
  | waiting phase state others => simp [AmqpConnection.proceed, phase, asked others, rank]
  | draining result phase state ends down =>
    have drained : d.pool.isDrained = true := Dispatcher.drained_iff.mpr ⟨down, empty⟩
    simp [AmqpConnection.proceed, phase, drained, AmqpConnection.finishClose, rank]
  | ended result phase => simp [AmqpConnection.proceed, phase, rank]

theorem Sound.ended_of_rank (h : Sound i o d) (zero : rank o.berth.connection.phase = 0) :
    ∃ result, o.berth.connection.phase = .ended result := by
  cases h.stands with
  | ended result phase => exact ⟨result, phase⟩
  | deciding phase | connecting phase | waiting phase | draining result phase =>
    simp [phase, rank] at zero

theorem Sound.ends (h : Sound i o d) (due : o.Due) (empty : d.pool.tasks = [])
    (settled : rank o.berth.connection.phase ≤ 3) :
    ∃ result, (o.run [.proceed, .proceed, .proceed]).berth.connection.phase = .ended result := by
  have one := h.closer due empty settled
  obtain ⟨_, first, same⟩ := h.proceed
  have two := first.closer (due.proceed h) (same.trans empty) (by omega)
  obtain ⟨_, second, again⟩ := first.proceed
  have three := second.closer ((due.proceed h).proceed first) (again.trans (same.trans empty))
    (by omega)
  obtain ⟨_, third, _⟩ := second.proceed
  exact third.ended_of_rank (by omega)

theorem Sound.settled (h : Sound i o d) (a : Attempt) :
    rank (o.step (.fail a)).berth.connection.phase ≤ 3 ∧ (o.Due → (o.step (.fail a)).Due) := by
  rw [Outage.step]
  split
  · rename_i phase
    have goes : (o.signal (.failed a.refused a.text)).berth.connection =
        (o.berth.connection.fail d a.refused a.text).1 := by
      have same : o.berth.connection.signal d (.failed a.refused a.text) =
          o.berth.connection.fail d a.refused a.text := by simp [AmqpConnection.signal, phase]
      exact (Berth.connection_act h.dispatcher).trans (congrArg Prod.fst same)
    simp only [Due, goes, AmqpConnection.fail]
    refine ⟨?_, Or.imp (fun asked => ?_) fun ⟨b, member, refused⟩ => ?_⟩
    · split <;> simp [AmqpConnection.beginClose, AmqpConnection.fallBack, rank]
    · split <;> exact asked
    · exact ⟨b, List.mem_append_left _ member, refused⟩
  · rename_i idle
    refine ⟨?_, id⟩
    cases h.stands with
    | connecting phase => exact absurd phase idle
    | deciding phase | waiting phase | draining result phase | ended result phase =>
      simp [phase, rank]

theorem connecting_signal {s : Signal} (stopping : c.stopping = true)
    (after : (c.signal d s).1.phase = .connecting) : c.phase = .connecting := by
  cases phase : c.phase with
  | connecting => rfl
  | draining result =>
    cases drained : d.pool.isDrained <;> cases s <;>
      simp_all [AmqpConnection.signal, AmqpConnection.proceed, AmqpConnection.finishClose]
  | idle | deciding | opened | serving | waiting | ended result =>
    cases s <;>
      simp_all [AmqpConnection.signal, AmqpConnection.proceed, AmqpConnection.beginClose,
        AmqpConnection.reset, AmqpConnection.abandon, AmqpConnection.serve, AmqpConnection.lose,
        AmqpConnection.fallBack]

theorem Sound.begins_nothing (h : Sound i o d) (stopping : o.berth.connection.stopping = true)
    (move : Move) (after : (o.step move).berth.connection.phase = .connecting) :
    o.berth.connection.phase = .connecting := by
  have signalled {s : Signal} (after : (o.signal s).berth.connection.phase = .connecting) :
      o.berth.connection.phase = .connecting := by
    have goes : (o.signal s).berth.connection = (o.berth.connection.signal d s).1 :=
      Berth.connection_act h.dispatcher
    exact connecting_signal stopping (goes ▸ after)
  cases move with
  | stop | proceed | elapsed | setup => exact signalled after
  | fail a =>
    rw [Outage.step] at after
    split at after
    · assumption
    · exact after
  | event e => exact after

/-! ## A run without a broker -/

/-- What a run comes to that has not reached its broker so far. -/
structure Unreached (i : Nat) (o : Outage) (d : Dispatcher) : Prop where
  here : o.berth.world.dispatchers[i]? = some d
  seen : o.berth.seen = past o.failed ++ o.berth.connection.phase.shows
  shown : d.state = o.berth.connection.state.shown ∧ o.berth.seen.getLast? = some d.state
  neverSubscribed : .subscribed ∉ o.berth.seen
  noMore : o.berth.connection.stopping = true → ∀ move,
    (o.step move).berth.connection.phase = .connecting →
      o.berth.connection.phase = .connecting
  lastRefused : ∀ before a later, o.failed = before ++ a :: later → a.refused = true → later = []
  result : ∀ result, o.berth.connection.phase = .ended result →
    Ends o.berth.connection.stopping o.failed result
  refusal : ∀ result, o.berth.connection.phase = .ended result →
    ((∃ a ∈ o.failed, a.refused = true) ↔ ∃ text, result = .error (.authentication text))
  closed : ∀ result, o.berth.connection.phase = .ended result →
    o.berth.connection.state = .closed ∧ d.state = .closed ∧ d.pool.isShutDown = true ∧
    d.pool.tasks = [] ∧ d.pool.active = 0 ∧ d.replies.publisher = none
  ends : o.Due → d.pool.tasks = [] → ∀ a, ∃ result,
    (o.run [.fail a, .proceed, .proceed, .proceed]).berth.connection.phase = .ended result

theorem subscribed_notMem_past (failed : List Attempt) : .subscribed ∉ past failed := by
  simp only [past, List.mem_cons, reduceCtorEq, List.mem_flatMap, false_or, not_exists, not_and]
  intro a _ shown
  unfold Attempt.shows at shown
  split at shown <;> simp at shown

theorem Ends.refusal {stopping : Bool} {result : Except BusError Unit}
    (h : Ends stopping failed result) :
    (∃ a ∈ failed, a.refused = true) ↔ ∃ text, result = .error (.authentication text) := by
  cases h with
  | asked _ others =>
    refine iff_of_false (fun ⟨a, member, denied⟩ => ?_) fun ⟨text, same⟩ => nomatch same
    simp [others a member] at denied
  | refused before a last others refused =>
    exact iff_of_true ⟨a, by simp [last], refused⟩ ⟨a.text, rfl⟩

theorem Sound.last_of_refused (h : Sound i o d) {before later : List Attempt} {a : Attempt}
    (split : o.failed = before ++ a :: later) (refused : a.refused = true) : later = [] := by
  have member : a ∈ o.failed := by simp [split]
  have ends {stopping : Bool} {result : Except BusError Unit}
      (ends : Ends stopping o.failed result) : later = [] := by
    cases ends with
    | asked _ others => simp [others a member] at refused
    | refused earlier b last others _ =>
      by_contra more
      obtain ⟨rest, final, rfl⟩ := later.eq_nil_or_concat.resolve_left more
      rw [last, List.concat_eq_append, ← List.cons_append, ← List.append_assoc] at split
      obtain ⟨rfl, _⟩ := List.append_inj' split rfl
      simp [others a (by simp)] at refused
  cases h.stands with
  | deciding _ _ others | connecting _ _ others | waiting _ _ others =>
    simp [others a member] at refused
  | draining _ _ _ because | ended _ _ _ because => exact ends because

theorem Sound.unreached (h : Sound i o d) : Unreached i o d where
  here := h.here
  seen := h.seen
  shown := ⟨h.shown, h.getLast?⟩
  neverSubscribed := by
    rw [h.seen, List.mem_append, not_or]
    refine ⟨subscribed_notMem_past _, ?_⟩
    cases h.stands with
    | deciding phase | connecting phase | waiting phase | draining result phase
    | ended result phase => simp [phase, AmqpPhase.shows]
  noMore := h.begins_nothing
  lastRefused := fun _ _ _ => h.last_of_refused
  result := by
    intro result ended
    cases h.stands with
    | ended other phase _ ends =>
      cases phase.symm.trans ended
      exact ends
    | _ => simp_all
  refusal := by
    intro result ended
    cases h.stands with
    | ended other phase _ ends =>
      cases phase.symm.trans ended
      exact ends.refusal
    | _ => simp_all
  closed := by
    intro result ended
    cases h.stands with
    | ended other phase state _ drained silent =>
      obtain ⟨down, empty⟩ := Dispatcher.drained_iff.mp drained
      have slots := (h.tidy.prompt i d h.here).slots
      rw [empty, List.length_nil] at slots
      exact ⟨state, by rw [h.shown, state]; rfl, down, empty, by rw [Pool.active]; omega, silent⟩
    | _ => simp_all
  ends := by
    intro due empty a
    obtain ⟨next, sound, same⟩ := h.fail a
    obtain ⟨settled, still⟩ := h.settled a
    exact sound.ends (still due) (same.trans empty) settled

/-- A run that does not reach its broker, whatever an earlier one has left behind, whatever
becomes of its attempts and whenever it is asked to stop. -/
theorem run_without_broker (registry : Registry) (posts : List Post) (events : List Event)
    (c : AmqpConnection) (first : Dispatcher) (moves : List Move)
    (here : ((World.start registry posts).run events).dispatchers[c.dispatcher]? = some first)
    (rests : c.phase = .idle ∨ ∃ result, c.phase = .ended result)
    (foreign : ∀ e, .event e ∈ moves → e.steers c.dispatcher = false) :
    ∃ d, Unreached c.dispatcher
      ((begin c ((World.start registry posts).run events)).run moves) d := by
  have tidy : ((World.start registry posts).run events).Tidy fun _ _ => True :=
    World.tidy_run (World.tidy_start registry posts) events
      (World.allAnswer_of_forall (fun _ _ => trivial) events)
  obtain ⟨d, sound⟩ := sound_begin tidy here rests
  obtain ⟨d, sound⟩ := sound.run moves foreign
  exact ⟨d, sound.unreached⟩

/-- A connection that was left as if subscribed. It loses its first attempt in the setup, and is
either refused or asked to stop during the second. -/
theorem run_without_broker_of_one :
    let c : AmqpConnection := { name := "a", dispatcher := 0, state := .subscribed }
    let posts : List Post := [⟨"a", .amqp "x", 1⟩]
    let lost : Attempt := ⟨.setup, .network, "channel setup failed"⟩
    let denied : Attempt := ⟨.connect, .refused Amqp.accessRefused, "connect failed"⟩
    let once : List Move := [.proceed, .setup .channelOpened, .fail lost, .elapsed, .proceed]
    let refused := once ++ [.fail denied, .proceed]
    let stopped := once ++
      [.stop, .event (.receive 0 { body := [] }), .fail lost, .proceed, .proceed, .proceed]
    let tries : List ConnectionState := [.disconnected, .connecting, .disconnected, .connecting]
    ((begin c (World.start (.ofCapacity 1) posts)).run refused).berth.seen =
      tries ++ [.closing, .closed] ∧
    ((begin c (World.start (.ofCapacity 1) posts)).run stopped).berth.seen =
      tries ++ [.disconnected, .closing, .closed] ∧
    (∃ d, Unreached 0 ((begin c (World.start (.ofCapacity 1) posts)).run refused) d) ∧
    ∃ d, Unreached 0 ((begin c (World.start (.ofCapacity 1) posts)).run stopped) d := by
  intro c posts lost denied once refused stopped tries
  have foreign (moves : List Move) (own : ∀ e, .event e ∈ moves → e = .receive 0 { body := [] }) :
      ∀ e, .event e ∈ moves → e.steers c.dispatcher = false := by
    intro e member
    rw [own e member]
    rfl
  exact ⟨by decide +kernel, by decide +kernel,
    run_without_broker (.ofCapacity 1) posts [] c (.new "a" (.amqp "x") 1) refused rfl (.inl rfl)
      (foreign refused (by simp [refused, once])),
    run_without_broker (.ofCapacity 1) posts [] c (.new "a" (.amqp "x") 1) stopped rfl (.inl rfl)
      (foreign stopped (by simp [stopped, once]))⟩

end Outage

end RequestBus
