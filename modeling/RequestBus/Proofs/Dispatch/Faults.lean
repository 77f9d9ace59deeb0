import RequestBus.Proofs.Dispatch.Settlement
import RequestBus.Proofs.Dispatch.Replies

/-! Faults of brokers and transports. What a dispatcher decides and what its workers do depends
neither on which settlements work nor on which replies reach the transport. So every run mirrors
the one of the same steps in which all of that works, and two runs that differ in such faults only
are alike in all else. -/
namespace RequestBus

def Record.faultless : Record → Record
  | .acknowledged t _ => .acknowledged t true
  | .rejected t _ => .rejected t true
  | .handed t payload dest _ => .handed t payload dest true
  | r => r

/-- The event as it would be had everything worked; nothing if it is about the transport only. -/
def Event.faultless? : Event → Option Event
  | .resume i _ => some (.resume i true)
  | .attach _ _ => none
  | .detach _ => none
  | e => some e

/-- The steps of a run, but for what its brokers and transports make of them. -/
def Event.script (events : List Event) : List Event := events.filterMap Event.faultless?

def Dispatcher.faultless (d : Dispatcher) : Dispatcher :=
  { d with replies := d.replies.attach fun _ _ => .ok () }

namespace Dispatcher

variable (d : Dispatcher)

@[simp] theorem route_faultless : d.faultless.route = d.route := rfl

@[simp] theorem state_faultless : d.faultless.state = d.state := rfl

@[simp] theorem pool_faultless : d.faultless.pool = d.pool := rfl

@[simp] theorem call_faultless : d.faultless.call = d.call := rfl

@[simp] theorem outbox_faultless : d.faultless.outbox = d.outbox := rfl

end Dispatcher

namespace World

def faultless (w : World) : World :=
  { w with
    dispatchers := w.dispatchers.map Dispatcher.faultless
    history := w.history.map Record.faultless }

variable (w : World) (i : Nat) (d : Dispatcher) (t : Nat)

theorem faultless_record (r : Record) : (w.record r).faultless = w.faultless.record r.faultless :=
  rfl

theorem faultless_put : (w.put i d).faultless = w.faultless.put i d.faultless := by
  simp [faultless, put, List.map_set]

theorem faultless_release (id : String) :
    (w.release t id).faultless = w.faultless.release t id :=
  rfl

theorem faultless_hand (reply : Response) (dest : Destination) :
    (w.hand d t reply dest).faultless = w.faultless.hand d.faultless t reply dest :=
  rfl

theorem faultless_accept (id : String) :
    w.faultless.accept t id = ((w.accept t id).1, (w.accept t id).2.faultless) := by
  cases seen : w.registry.contains id with
  | true => rw [accept_duplicate seen, accept_duplicate (w := w.faultless) seen]; rfl
  | false =>
    rw [accept_new seen, accept_new (w := w.faultless) seen]
    cases victim : w.registry.evicted? id <;> simp [faultless, victim, Record.faultless]

theorem faultless_submit (job : Job) :
    (w.submit i d t job).faultless = w.faultless.submit i d.faultless t job := by
  unfold submit
  rw [Dispatcher.pool_faultless]
  rcases d.pool.submit t job with ⟨taken, pool⟩
  have next : (w.put i { d with pool, call := none }).faultless =
      w.faultless.put i { d.faultless with pool, call := none } := faultless_put w i _
  cases taken with
  | true => exact congrArg (record · (.decided t .submitted)) next
  | false =>
    cases protocol : job.protocol with
    | amqp =>
      exact congrArg (fun v => (v.release t job.id).record (.decided t .dropped)) next
    | mqtt => exact congrArg (record · (.decided t .dropped)) next

theorem faultless_receiveAmqp (m : Message) :
    (w.receiveAmqp i d t m).faultless = w.faultless.receiveAmqp i d.faultless t m := by
  unfold receiveAmqp
  rw [Dispatcher.route_faultless]
  cases d.route.destination? m with
  | none => exact faultless_put w i _
  | some dest =>
    cases Protocol.amqp.peekId m.body with
    | error fault => exact faultless_put w i _
    | ok id =>
      simp only [faultless_accept]
      exact faultless_put _ i _

theorem faultless_receiveMqtt (topic : String) (m : Message) :
    (w.receiveMqtt i d t topic m).faultless = w.faultless.receiveMqtt i d.faultless t topic m := by
  unfold receiveMqtt
  rw [Dispatcher.pool_faultless]
  cases Protocol.mqtt.peekId m.body with
  | error fault => rfl
  | ok id =>
    cases d.pool.isSaturated with
    | true => exact congrArg (record · _) (faultless_put w i _)
    | false => exact faultless_submit w i d t _

theorem faultless_receive (m : Message) :
    (w.receive i d m).faultless = w.faultless.receive i d.faultless m := by
  unfold receive
  rw [Dispatcher.call_faultless, Dispatcher.state_faultless, Dispatcher.route_faultless]
  cases d.call.isSome with
  | true => rfl
  | false =>
    cases d.state.isShuttingDown with
    | true => rfl
    | false =>
      cases d.route with
      | amqp exchange => exact faultless_receiveAmqp _ i d _ m
      | mqtt topic => exact faultless_receiveMqtt _ i d _ topic m

theorem faultless_resume (worked : Bool) :
    (w.resume i d worked).faultless = w.faultless.resume i d.faultless true := by
  have idle : (w.put i { d with call := none }).faultless =
      w.faultless.put i { d.faultless with call := none } := faultless_put w i _
  unfold resume
  rw [Dispatcher.call_faultless, Dispatcher.pool_faultless]
  cases d.call with
  | none => rfl
  | some waiting =>
    cases waiting with
    | rejecting t => simp only [faultless_record, idle]; rfl
    | refusing t reply dest => simp only [faultless_record, faultless_hand, idle]; rfl
    | accepting t job =>
      cases d.pool.isSaturated with
      | true => exact faultless_put _ i _
      | false => exact faultless_submit _ i d t job
    | answering t job =>
      simp only [faultless_record, faultless_release, faultless_hand, idle]
      rfl

theorem faultless_advance :
    (w.advance i d t).faultless = w.faultless.advance i d.faultless t := by
  have next : (w.put i { d with pool := d.pool.advance t }).faultless =
      w.faultless.put i { d.faultless with pool := d.pool.advance t } := faultless_put w i _
  unfold advance
  rw [Dispatcher.pool_faultless]
  cases d.pool.task? t with
  | none => rfl
  | some before =>
    simp only
    split
    · cases before.job.request with
      | ok request => rw [faultless_record, next]; rfl
      | error refusal => exact next
    · exact next

theorem faultless_finish (reply : Option Response) :
    (w.finish i d t reply).faultless = w.faultless.finish i d.faultless t reply := by
  unfold finish
  rw [Dispatcher.pool_faultless]
  split
  · rename_i u job found
    have put (w : World) : (w.put i { d with pool := d.pool.finish t }).faultless =
        w.faultless.put i { d.faultless with pool := d.pool.finish t } := faultless_put w i _
    cases job.answer reply <;> cases job.protocol <;>
      simp only [faultless_record, faultless_release, faultless_hand, put] <;> rfl
  · rfl

theorem faultless_send :
    (w.send i d t).faultless = w.faultless.send i d.faultless t := by
  unfold send
  rw [Dispatcher.route_faultless, Dispatcher.outbox_faultless]
  split
  · rw [faultless_hand, faultless_put]; rfl
  · rfl

theorem faultless_visit (act after : Dispatcher → World)
    (same : ∀ d, (act d).faultless = after d.faultless) :
    (w.visit i act).faultless = w.faultless.visit i after := by
  unfold visit
  rw [show w.faultless.dispatchers[i]? = _ from List.getElem?_map]
  cases w.dispatchers[i]? with
  | none => rfl
  | some d => exact same d

theorem faultless_visit_of_same (act : Dispatcher → Dispatcher)
    (same : ∀ d, (act d).faultless = d.faultless) :
    (w.visit i fun d => w.put i (act d)).faultless = w.faultless := by
  unfold visit
  cases here : w.dispatchers[i]? with
  | none => rfl
  | some d =>
    have there : w.faultless.dispatchers[i]? = some d.faultless := by simp [faultless, here]
    rw [faultless_put, same, put, set_same there]

theorem faultless_step (e : Event) :
    (w.step e).faultless = w.faultless.run e.faultless?.toList := by
  cases e with
  | receive i m => exact faultless_visit w i _ _ fun d => faultless_receive w i d m
  | resume i worked => exact faultless_visit w i _ _ fun d => faultless_resume w i d worked
  | advance i t => exact faultless_visit w i _ _ fun d => faultless_advance w i d t
  | finish i t reply => exact faultless_visit w i _ _ fun d => faultless_finish w i d t reply
  | send i t => exact faultless_visit w i _ _ fun d => faultless_send w i d t
  | setState i state => exact faultless_visit w i _ _ fun d => faultless_put w i _
  | shutDown i => exact faultless_visit w i _ _ fun d => faultless_put w i _
  | attach i p => exact faultless_visit_of_same w i _ fun d => rfl
  | detach i => exact faultless_visit_of_same w i _ fun d => rfl

theorem faultless_run (events : List Event) :
    (w.run events).faultless = w.faultless.run (Event.script events) := by
  induction events generalizing w with
  | nil => rfl
  | cons e events ih =>
    rw [show w.run (e :: events) = (w.step e).run events from rfl, ih, faultless_step]
    cases step : e.faultless? with
    | none => rw [Event.script, Event.script, List.filterMap_cons_none step]; rfl
    | some works => rw [Event.script, Event.script, List.filterMap_cons_some step]; rfl

end World

def Record.delivery? : Record → Option (Nat × Message)
  | .received _ i m => some (i, m)
  | _ => none

def Record.outcome? : Record → Option Outcome
  | .decided _ outcome => some outcome
  | _ => none

@[simp] theorem Record.ticket?_faultless (r : Record) : r.faultless.ticket? = r.ticket? := by
  cases r <;> rfl

theorem Course.handed_unique {fits : Request → Response → Prop} {shut : Prop} {route : ReplyRoute}
    {i t : Nat} {m : Message} {site : Site} {records : List Record}
    (h : Course fits shut route i t m site records) {payload payload' : Bytes}
    {dest dest' : Destination} {reached reached' : Bool}
    (one : .handed t payload dest reached ∈ records)
    (two : .handed t payload' dest' reached' ∈ records) : payload = payload' ∧ dest = dest' := by
  cases h with
  | ended job asks worked reached reply fit =>
    simp only [List.mem_append, List.mem_cons, mem_taking, mem_invocation, mem_handing,
      mem_releasing, Record.handed.injEq, reduceCtorEq, and_false, exists_false, false_or,
      or_false, List.not_mem_nil, true_and] at one two
    obtain ⟨answer, answers, rfl, rfl, _⟩ := one
    obtain ⟨other, others, rfl, rfl, _⟩ := two
    rw [answers, Option.some.injEq] at others
    exact ⟨others ▸ rfl, rfl⟩
  | waiting job asks worked | begun job asks worked => simp [mem_taking, mem_invocation] at one
  | _ => simp_all

namespace World

variable {w v : World}

theorem Tidy.handed_unique {fits : Request → Response → Prop} (tidy : w.Tidy fits) {t : Nat}
    {payload payload' : Bytes} {dest dest' : Destination} {reached reached' : Bool}
    (one : .handed t payload dest reached ∈ w.history)
    (two : .handed t payload' dest' reached' ∈ w.history) :
    payload = payload' ∧ dest = dest' := by
  have here : .handed t payload dest reached ∈ w.trail t := mem_trail.mpr ⟨one, rfl⟩
  have there : .handed t payload' dest' reached' ∈ w.trail t := mem_trail.mpr ⟨two, rfl⟩
  obtain ⟨i, d, s, m, _, _, course⟩ := tidy.located t (tidy.lt_issued_of_mem here)
  exact course.handed_unique here there

theorem mem_history_faultless {t : Nat} {payload : Bytes} {dest : Destination} :
    .handed t payload dest true ∈ w.faultless.history ↔
      ∃ reached, .handed t payload dest reached ∈ w.history := by
  constructor
  · intro mirrored
    obtain ⟨r, member, same⟩ := List.mem_map.mp mirrored
    cases r with
    | handed u sent there reached =>
      obtain ⟨rfl, rfl, rfl, _⟩ := Record.handed.inj same
      exact ⟨reached, member⟩
    | _ => contradiction
  · rintro ⟨reached, member⟩
    exact List.mem_map.mpr ⟨_, member, rfl⟩

def told (w : World) (kind : Record → Option α) : List (Option Nat × α) :=
  w.history.filterMap fun r => (kind r).map (r.ticket?, ·)

theorem told_faultless {kind : Record → Option α} (blind : ∀ r, kind r.faultless = kind r) :
    w.faultless.told kind = w.told kind := by
  simp only [told, faultless, List.filterMap_map, Function.comp_def, blind,
    Record.ticket?_faultless]

/-- Two worlds are alike but for what their brokers and transports made of it: which settlements
worked, and which replies reached the transport. -/
structure Alike (w v : World) : Prop where
  deliveries : w.told Record.delivery? = v.told Record.delivery?
  outcomes : w.told Record.outcome? = v.told Record.outcome?
  settlements : w.told Record.settlement? = v.told Record.settlement?
  invocations : w.told Record.request? = v.told Record.request?
  registry : w.registry = v.registry
  pools : w.dispatchers.map Dispatcher.pool = v.dispatchers.map Dispatcher.pool
  replies : ∀ t payload dest payload' dest', .handed t payload dest true ∈ w.history →
    .handed t payload' dest' true ∈ v.history → payload = payload' ∧ dest = dest'

theorem alike_of_faultless {fits : Request → Response → Prop} (tidy : v.Tidy fits)
    (same : w.faultless = v.faultless) : w.Alike v := by
  have told {α : Type} {kind : Record → Option α} (blind : ∀ r, kind r.faultless = kind r) :
      w.told kind = v.told kind := by
    rw [← told_faultless blind, same, told_faultless blind]
  have pools (u : World) :
      u.dispatchers.map Dispatcher.pool = u.faultless.dispatchers.map Dispatcher.pool := by
    simp [faultless, Dispatcher.faultless, Function.comp_def]
  constructor
  case deliveries => exact told fun r => by cases r <;> rfl
  case outcomes => exact told fun r => by cases r <;> rfl
  case settlements => exact told fun r => by cases r <;> rfl
  case invocations => exact told fun r => by cases r <;> rfl
  case registry =>
    show w.faultless.registry = v.faultless.registry
    rw [same]
  case pools => rw [pools w, same, ← pools v]
  case replies =>
    intro t payload dest payload' dest' one two
    have mirrored := mem_history_faultless.mpr ⟨_, one⟩
    rw [same] at mirrored
    obtain ⟨reached, handed⟩ := mem_history_faultless.mp mirrored
    exact tidy.handed_unique handed two

/-- Two runs of the same steps that differ in faults only are alike after every step: wherever one
of them is, the other has been or comes to be after the same steps, and there the two worlds are
alike. -/
theorem faults_invisible (registry : Registry) (posts : List Post) (events events' : List Event)
    (same : Event.script events = Event.script events') :
    (∀ before, before <+: events →
      ∃ before', before' <+: events' ∧ Event.script before' = Event.script before) ∧
    ∀ before before', before <+: events → before' <+: events' →
      Event.script before' = Event.script before →
      ((start registry posts).run before).Alike ((start registry posts).run before') := by
  constructor
  · intro before early
    have ahead : Event.script before <+: Event.script events' := same ▸ early.filterMap _
    obtain ⟨before', early', level⟩ := List.prefix_filterMap_iff.mp ahead
    exact ⟨before', early', level.symm⟩
  · intro before before' _ _ level
    have tidy : ((start registry posts).run before').Tidy fun _ _ => True :=
      tidy_run (tidy_start registry posts) before' (allAnswer_of_forall (fun _ _ => trivial) _)
    exact alike_of_faultless tidy (by rw [faultless_run, faultless_run, level])

/-- For one run all works; the other has no transport at first, then one that takes no reply. -/
theorem faults_invisible_to_one :
    let m : Message := { body := Utf8.encode "\x7b\"id\":\"r\"\x7d", replyTo := some "q" }
    let sound : List Event := [.attach 0 fun _ _ => .ok (), .receive 0 m, .resume 0 true,
      .advance 0 0, .finish 0 0 (some (Response.overloaded "r"))]
    let faulty : List Event := [.receive 0 m, .resume 0 false, .advance 0 0,
      .attach 0 fun _ _ => .error (.notConnected "a"),
      .finish 0 0 (some (Response.overloaded "r")), .detach 0]
    let w := start (.ofCapacity 16) [⟨"a", .amqp "x", 1⟩]
    Event.script sound = Event.script faulty ∧ (w.run sound).Alike (w.run faulty) := by
  intro m sound faulty w
  have level : Event.script sound = Event.script faulty := rfl
  exact ⟨level, (faults_invisible _ _ sound faulty level).2 sound faulty (List.prefix_refl _)
    (List.prefix_refl _) level.symm⟩

end World
end RequestBus
