import RequestBus.Proofs.Dispatch.Exits
import RequestBus.Proofs.Dispatch.Frame
import RequestBus.Proofs.Dispatch.Replies

/-! Backpressure. A dispatcher looks whether a worker is free before it hands a message on, so its
workers are never given more than they can take at once: nobody waits for a slot, and a message is
turned away as one too many exactly when every worker is at work. -/
namespace RequestBus

def Record.arrival? (i : Nat) : Record → Option Nat
  | .received t j _ => if j = i then some t else none
  | _ => none

theorem mem_arrivals {records : List Record} {i t : Nat} :
    t ∈ records.filterMap (Record.arrival? i) ↔ ∃ m, .received t i m ∈ records := by
  rw [List.mem_filterMap]
  constructor
  · rintro ⟨r, there, arrives⟩
    cases r with
    | received u j m =>
      simp only [Record.arrival?, Option.ite_none_right_eq_some, Option.some.injEq] at arrives
      obtain ⟨rfl, rfl⟩ := arrives
      exact ⟨m, there⟩
    | _ => contradiction
  · rintro ⟨m, there⟩
    exact ⟨_, there, if_pos rfl⟩

def Event.resumes (i : Nat) : Event → Bool
  | .resume j _ => j == i
  | _ => false

namespace Course

variable {fits : Request → Response → Prop} {shut : Prop} {route : ReplyRoute} {i t : Nat}
  {m : Message} {site : Site} {records : List Record}

theorem working_iff (h : Course fits shut route i t m site records) :
    (∃ job begun, site = .working job begun) ↔
      .decided t .submitted ∈ records ∧ ∀ crashed, .ended t crashed ∉ records := by
  cases h with
  | waiting job asks worked | begun job asks worked | ended job asks worked reached reply fit =>
    simp [mem_taking, mem_invocation, mem_handing, mem_releasing]
  | _ => simp

end Course

namespace Dispatcher

variable {d : Dispatcher} {t : Nat}

theorem mem_tickets_iff : t ∈ d.pool.tickets ↔ ∃ job begun, (t, .working job begun) ∈ d.sites := by
  constructor
  · intro there
    obtain ⟨task, member, rfl⟩ := List.mem_map.mp there
    exact ⟨_, _, mem_sites_of_task member⟩
  · rintro ⟨job, begun, placed⟩
    rw [sites, callSites, outboxSites] at placed
    rcases List.mem_append.mp placed with placed | noted
    · rcases List.mem_append.mp placed with called | placed
      · simp at called
      · rw [Pool.tickets, ← taskSites_fst]
        exact List.mem_map_of_mem placed
    · simp at noted

end Dispatcher

namespace World

/-- The messages that the workers of a dispatcher were given and have not come to an end with. -/
def atWork (w : World) (i : Nat) : List Nat :=
  (List.range w.issued).filter fun t =>
    t ∈ w.history.filterMap (Record.arrival? i) ∧ .decided t .submitted ∈ w.history ∧
      .ended t true ∉ w.history ∧ .ended t false ∉ w.history

/-- What becomes of a message that has passed every check before the workers are looked at. -/
def verdict (w : World) (i : Nat) (d : Dispatcher) : Outcome :=
  if (w.atWork i).length = d.pool.capacity then .overloaded
  else if d.pool.isShutDown then .dropped
  else .submitted

/-- A message passes every check before the workers are looked at. -/
structure Admits (w : World) (d : Dispatcher) (m : Message) (id : String) : Prop where
  opened : d.state.isShuttingDown = false
  readable : d.route.protocol.peekId m.body = .ok id
  answerable : d.route.protocol = .amqp →
    ∃ queue, m.replyTo = some queue ∧ Text.allBlank queue = false
  absent : d.route.protocol = .amqp → w.registry.contains id = false

variable {fits : Request → Response → Prop} {w v : World} {i t : Nat} {d : Dispatcher}
  {m : Message} {id : String} {job : Job}

theorem mem_atWork : t ∈ w.atWork i ↔ t < w.issued ∧ (∃ m, .received t i m ∈ w.history) ∧
    .decided t .submitted ∈ w.history ∧ ∀ crashed, .ended t crashed ∉ w.history := by
  simp only [atWork, List.mem_filter, List.mem_range, mem_arrivals, decide_eq_true_eq,
    Bool.forall_bool, and_comm (a := Record.ended t true ∉ w.history)]

theorem Tidy.mem_atWork_iff (tidy : Tidy fits w) (here : w.dispatchers[i]? = some d) :
    t ∈ w.atWork i ↔ t ∈ d.pool.tickets := by
  have trail {r : Record} (about : r.ticket? = some t) : r ∈ w.history ↔ r ∈ w.trail t := by
    simp [mem_trail, about]
  rw [mem_atWork, Dispatcher.mem_tickets_iff, trail rfl]
  simp only [trail (r := .ended t _) rfl]
  constructor
  · rintro ⟨_, ⟨m, received⟩, working⟩
    obtain ⟨s, placed, course⟩ := tidy.site_of_received received here
    obtain ⟨job, begun, rfl⟩ := course.working_iff.mpr working
    exact ⟨job, begun, placed.resolve_left (by simp)⟩
  · rintro ⟨job, begun, placed⟩
    obtain ⟨m, course⟩ := tidy.placed i d here _ _ placed
    have received := (mem_trail.mp (List.mem_of_getLast? course.getLast?)).1
    exact ⟨tidy.lt_issued here placed, ⟨m, received⟩, course.working_iff.mp ⟨job, begun, rfl⟩⟩

theorem Tidy.atWork_perm (tidy : Tidy fits w) (here : w.dispatchers[i]? = some d) :
    (w.atWork i).Perm d.pool.tickets :=
  (List.perm_ext_iff_of_nodup (List.nodup_range.filter _)
    (tickets_nodup (tidy.distinct i d here))).mpr fun _ => tidy.mem_atWork_iff here

theorem Tidy.slots_atWork (tidy : Tidy fits w) (here : w.dispatchers[i]? = some d) :
    d.pool.free + (w.atWork i).length = d.pool.capacity := by
  rw [(tidy.atWork_perm here).length_eq, Pool.tickets, List.length_map]
  exact (tidy.prompt i d here).slots

theorem Tidy.verdict_eq (tidy : Tidy fits w) (here : w.dispatchers[i]? = some d) :
    w.verdict i d = if d.pool.isSaturated then .overloaded
      else if d.pool.isShutDown then .dropped else .submitted := by
  have slots := tidy.slots_atWork here
  have full : (w.atWork i).length = d.pool.capacity ↔ d.pool.isSaturated = true := by
    rw [Pool.isSaturated, beq_iff_eq]
    omega
  rw [verdict]
  simp only [full]

/-! ## What a dispatcher waits for -/

def Awaits (w : World) (i : Nat) (c : Call) : Prop :=
  (w.dispatchers[i]?.bind Dispatcher.call) = some c

theorem awaits_iff {c : Call} :
    w.Awaits i c ↔ ∃ d, w.dispatchers[i]? = some d ∧ d.call = some c :=
  Option.bind_eq_some_iff

theorem awaits_put {c : Call} (there : i < w.dispatchers.length) (busy : d.call = some c) :
    (w.put i d).Awaits i c :=
  awaits_iff.mpr ⟨d, List.getElem?_set_self there, busy⟩

theorem awaits_step {c : Call} (awaits : w.Awaits i c) {e : Event}
    (other : e.resumes i = false) : (w.step e).Awaits i c := by
  obtain ⟨d, here, busy⟩ := awaits_iff.mp awaits
  have there := (List.getElem?_eq_some_iff.mp here).1
  by_cases named : e.dispatcher = i
  · cases e with
    | receive j m =>
      obtain rfl : j = i := named
      simpa [step, visit, here, receive, busy] using awaits
    | resume j worked => simp_all [Event.resumes, Event.dispatcher]
    | advance j t =>
      obtain rfl : j = i := named
      simp only [step, visit, here, World.advance]
      split
      · exact awaits
      · split
        · split <;> exact awaits_put (by exact there) busy
        · exact awaits_put there busy
    | finish j t reply =>
      obtain rfl : j = i := named
      simp only [step, visit, here, World.finish]
      split
      · rename_i job _
        cases job.answer reply <;> cases job.protocol <;> exact awaits_put (by exact there) busy
      · exact awaits
    | send j t =>
      obtain rfl : j = i := named
      simp only [step, visit, here, World.send]
      split
      · exact awaits_put (by exact there) busy
      · exact awaits
    | setState j state | attach j publisher | detach j | shutDown j =>
      obtain rfl : j = i := named
      simp only [step, visit, here]
      exact awaits_put (by exact there) busy
  · have same : (w.step e).dispatchers[i]? = w.dispatchers[i]? := by
      rcases w.step_acts e with same | ⟨_, v, _, dispatchers, _, acts⟩
      · rw [same]
      · rcases acts.dispatchers with same | ⟨next, _, same⟩
        · rw [same, dispatchers]
        · rw [same, dispatchers, List.getElem?_set_ne named]
    exact awaits_iff.mpr ⟨d, same.trans here, busy⟩

/-! ## What a look at the workers leads to -/

theorem history_run (w : World) (events : List Event) : w.history ⊆ (w.run events).history := by
  induction events generalizing w with
  | nil => exact List.Subset.refl _
  | cons e events ih => exact List.Subset.trans (w.history_step e) (ih (w.step e))

theorem Tidy.decided_unique (tidy : Tidy fits w) {one other : Outcome}
    (first : .decided t one ∈ w.history) (second : .decided t other ∈ w.history) :
    one = other := by
  obtain ⟨_, _, _, _, _, _, _, course⟩ := tidy.received_of_mem (mem_trail.mpr ⟨first, rfl⟩)
  exact course.decided_unique (mem_trail.mpr ⟨first, rfl⟩) (mem_trail.mpr ⟨second, rfl⟩)

theorem Tidy.undecided_of_answering (tidy : Tidy fits w) (awaits : w.Awaits i (.answering t job))
    (o : Outcome) : .decided t o ∉ w.history := by
  intro decided
  obtain ⟨d, here, busy⟩ := awaits_iff.mp awaits
  obtain ⟨m, course⟩ := tidy.placed i d here t _ (Dispatcher.mem_sites_of_call busy)
  have there : .decided t o ∈ w.trail t := mem_trail.mpr ⟨decided, rfl⟩
  generalize w.trail t = records at course there
  cases course with
  | answering => simp at there

theorem answers_step (awaits : w.Awaits i (.answering t job)) (worked : Bool) :
    .decided t .overloaded ∈ (w.step (.resume i worked)).history := by
  obtain ⟨d, here, busy⟩ := awaits_iff.mp awaits
  simp only [step_resume here, resume, busy]
  exact List.mem_cons_self

/-- The step in which a dispatcher looks at its workers for a message: over MQTT when it arrives,
over AMQP when its acknowledgement is through. -/
inductive Looks (w : World) (i : Nat) (d : Dispatcher) : Event → Nat → Prop
  | arrival (m : Message) (id : String) (mqtt : d.route.protocol = .mqtt) (idle : d.call = none)
      (admits : w.Admits d m id) : Looks w i d (.receive i m) w.issued
  | acknowledgement (t : Nat) (job : Job) (worked : Bool)
      (busy : d.call = some (.accepting t job)) : Looks w i d (.resume i worked) t

theorem looks_step (tidy : Tidy fits w) (here : w.dispatchers[i]? = some d) {e : Event}
    (looks : w.Looks i d e t) : .decided t (w.verdict i d) ∈ (w.step e).history ∨
      (w.verdict i d = .overloaded ∧ ∃ job, (w.step e).Awaits i (.answering t job)) := by
  have there := (List.getElem?_eq_some_iff.mp here).1
  rw [tidy.verdict_eq here]
  have submits (v : World) (t : Nat) (job : Job) (free : d.pool.isSaturated = false) :
      .decided t (if d.pool.isShutDown then .dropped else .submitted) ∈
        (v.submit i d t job).history := by
    cases down : d.pool.isShutDown with
    | true =>
      rw [submit_refused down]
      exact List.mem_cons_self
    | false =>
      rw [submit_taken down free]
      exact List.mem_cons_self
  cases looks with
  | arrival m id mqtt idle admits =>
    left
    cases route : d.route with
    | amqp exchange => simp [route, ReplyRoute.protocol] at mqtt
    | mqtt topic =>
      have readable : Protocol.mqtt.peekId m.body = .ok id := mqtt ▸ admits.readable
      simp only [step, visit, here, receive, idle, admits.opened, route, receiveMqtt, readable]
      cases full : d.pool.isSaturated with
      | true => exact List.mem_cons_self
      | false => exact submits _ _ _ full
  | acknowledgement t job worked busy =>
    simp only [step_resume here, resume, busy]
    cases full : d.pool.isSaturated with
    | true => exact .inr ⟨rfl, job, awaits_put (by exact there) rfl⟩
    | false => exact .inl (submits _ _ _ full)

/-- What is decided about the delivery `t` from the step `e` on: this outcome and no other, at
once or when its sender has been told. -/
structure Follows (w : World) (i t : Nat) (e : Event) (o : Outcome) : Prop where
  only : ∀ later other, .decided t other ∈ ((w.step e).run later).history → other = o
  decided : .decided t o ∈ (w.step e).history ∨
    (o = .overloaded ∧ ∃ job, (w.step e).Awaits i (.answering t job))

theorem follows_looks (tidy : Tidy fits w) (any : ∀ request reply, fits request reply)
    (here : w.dispatchers[i]? = some d) {e : Event} (looks : w.Looks i d e t) :
    w.Follows i t e (w.verdict i d) := by
  have decided := looks_step tidy here looks
  refine ⟨fun later other there => ?_, decided⟩
  -- From the look on, the outcome is on record or the sender is being told.
  have after : ∀ (later : List Event) (v : World), .decided t (w.verdict i d) ∈ v.history ∨
      (w.verdict i d = .overloaded ∧ ∃ job, v.Awaits i (.answering t job)) →
      .decided t (w.verdict i d) ∈ (v.run later).history ∨
        ∃ job, (v.run later).Awaits i (.answering t job) := by
    intro later
    induction later with
    | nil => exact fun v now => now.imp id And.right
    | cons e later ih =>
      intro v now
      refine ih (v.step e) ?_
      rcases now with now | ⟨overloaded, job, awaits⟩
      · exact .inl (v.history_step e now)
      · cases resumes : e.resumes i with
        | false => exact .inr ⟨overloaded, job, awaits_step awaits resumes⟩
        | true =>
          cases e with
          | resume j worked =>
            obtain rfl : j = i := by simpa [Event.resumes] using resumes
            exact .inl (overloaded ▸ answers_step awaits worked)
          | _ => contradiction
  have final := tidy_run tidy (e :: later) (allAnswer_of_forall any _)
  rcases after later (w.step e) decided with now | ⟨job, awaits⟩
  · exact final.decided_unique there now
  · exact absurd there (final.undecided_of_answering awaits other)

/-! ## What a submission takes -/

theorem submit_claims (v : World) (t u : Nat) (job : Job) (free : d.pool.isSaturated = false)
    (there : i < v.dispatchers.length) (new : .decided t .submitted ∈ (v.submit i d u job).history)
    (before : .decided t .submitted ∉ v.history) : d.pool.isShutDown = false ∧
      ∃ next, (v.submit i d u job).dispatchers[i]? = some next ∧ next.pool = { d.pool with
        tasks := d.pool.tasks ++ [⟨t, job, .granted⟩], free := d.pool.free - 1 } := by
  cases down : d.pool.isShutDown with
  | true =>
    rw [submit_refused down] at new
    cases protocol : job.protocol <;> simp [protocol, record, release, put, before] at new
  | false =>
    rw [submit_taken down free] at new ⊢
    have same : t = u := by simpa [record, put, before] using new
    exact ⟨rfl, _, List.getElem?_set_self there, by rw [same]⟩

structure Claims (w : World) (i : Nat) (d : Dispatcher) (e : Event) (t : Nat) : Prop where
  free : d.pool.free ≠ 0
  running : d.pool.isShutDown = false
  granted : ∃ job next, (w.step e).dispatchers[i]? = some next ∧ next.pool = { d.pool with
    tasks := d.pool.tasks ++ [⟨t, job, .granted⟩], free := d.pool.free - 1 }

theorem claims_of_submit {v : World} {e : Event} {u : Nat} (step : w.step e = v.submit i d u job)
    (free : d.pool.isSaturated = false) (there : i < v.dispatchers.length)
    (new : .decided t .submitted ∈ (w.step e).history)
    (before : .decided t .submitted ∉ v.history) : w.Claims i d e t := by
  obtain ⟨running, next, placed, pool⟩ := submit_claims v t u job free there (step ▸ new) before
  exact ⟨by simpa [Pool.isSaturated] using free, running, job, next, step ▸ placed, pool⟩

theorem receiveAmqp_undecided (w : World) (i : Nat) (d : Dispatcher) (u : Nat) (m : Message)
    {o : Outcome} (before : .decided t o ∉ w.history) :
    .decided t o ∉ (w.receiveAmqp i d u m).history := by
  unfold receiveAmqp
  split
  · exact before
  · split
    · exact before
    · rename_i id _
      cases seen : w.registry.contains id with
      | true =>
        rw [accept_duplicate seen]
        exact before
      | false =>
        rw [accept_new seen]
        simpa [put] using before

theorem step_claims (here : w.dispatchers[i]? = some d) {e : Event} (named : e.dispatcher = i)
    (new : .decided t .submitted ∈ (w.step e).history)
    (before : .decided t .submitted ∉ w.history) : w.Claims i d e t := by
  have there := (List.getElem?_eq_some_iff.mp here).1
  cases e with
  | receive j m =>
    obtain rfl : j = i := named
    have step : w.step (.receive j m) = w.receive j d m := by simp only [step, visit, here]
    rw [receive] at step
    split at step
    · rw [step] at new
      contradiction
    · simp only at step
      split at step
      · simp [step, record, before] at new
      · split at step
        · rw [step] at new
          exact absurd new (receiveAmqp_undecided _ j d _ m (by simpa [record] using before))
        · rename_i topic _
          rw [receiveMqtt] at step
          split at step
          · simp [step, record, before] at new
          · split at step
            · simp [step, record, put, before] at new
            · rename_i full
              exact claims_of_submit step (by simpa using full) there new (by simpa [record])
  | resume j worked =>
    obtain rfl : j = i := named
    have step := step_resume here worked
    rw [resume] at step
    split at step
    · rw [step] at new
      contradiction
    · simp [step, record, put, before] at new
    · simp [step, record, put, hand, before] at new
    · simp only at step
      split at step
      · simp [step, record, put, before] at new
      · rename_i full
        exact claims_of_submit step (by simpa using full) there new (by simpa [record])
    · simp [step, record, put, hand, release, before] at new
  | advance j u =>
    obtain rfl : j = i := named
    simp only [step, visit, here, World.advance] at new
    split at new
    · contradiction
    · split at new
      · split at new <;> simp [record, put, before] at new
      · contradiction
  | finish j u reply =>
    obtain rfl : j = i := named
    simp only [step, visit, here, World.finish] at new
    split at new
    · rename_i job _
      cases answered : job.answer reply <;> cases protocol : job.protocol <;>
        simp [answered, protocol, record, put, hand, release, before] at new
    · contradiction
  | send j u =>
    obtain rfl : j = i := named
    simp only [step, visit, here, World.send] at new
    split at new
    · simp [record, put, hand, before] at new
    · contradiction
  | setState j state | attach j publisher | detach j | shutDown j =>
    obtain rfl : j = i := named
    simp only [step, visit, here, put] at new
    contradiction

/-! ## Backpressure -/

theorem Admits.destination (admits : w.Admits d m id) (amqp : d.route.protocol = .amqp) :
    ∃ dest, d.route.destination? m = some dest := by
  obtain ⟨queue, named, solid⟩ := admits.answerable amqp
  cases route : d.route with
  | amqp exchange =>
    have given : Text.given? queue = some queue := given?_eq_some.mpr ⟨rfl, solid⟩
    exact ⟨_, by simp only [ReplyRoute.destination?, named, Option.bind_some, given]; rfl⟩
  | mqtt topic => simp [route, ReplyRoute.protocol] at amqp

theorem Admits.awaits (admits : w.Admits d m id) (here : w.dispatchers[i]? = some d)
    (amqp : d.route.protocol = .amqp) (idle : d.call = none) : ∃ dest,
      d.route.destination? m = some dest ∧
      (w.step (.receive i m)).Awaits i (.accepting w.issued ⟨.amqp, m.body, id, dest⟩) := by
  obtain ⟨dest, isDest⟩ := admits.destination amqp
  refine ⟨dest, isDest, ?_⟩
  have there := (List.getElem?_eq_some_iff.mp here).1
  cases route : d.route with
  | mqtt topic => simp [route, ReplyRoute.protocol] at amqp
  | amqp exchange =>
    have readable : Protocol.amqp.peekId m.body = .ok id := amqp ▸ admits.readable
    rw [step_receive here idle admits.opened route, receiveAmqp]
    simp only [isDest, readable]
    rw [accept_new (by exact admits.absent amqp)]
    exact awaits_put (by exact there) rfl

theorem Admits.dispatch (admits : w.Admits d m id) (tidy : Tidy fits w)
    (here : w.dispatchers[i]? = some d) (idle : d.call = none) (worked : Bool) :
    .decided w.issued (w.verdict i d) ∈ (w.dispatch i m worked).history := by
  cases route : d.route with
  | mqtt topic =>
    have looks : w.Looks i d (.receive i m) w.issued :=
      .arrival m id (by rw [route]; rfl) idle admits
    rcases looks_step tidy here looks with decided | ⟨overloaded, job, awaits⟩
    · exact history_run _ [.resume i worked, .resume i worked] decided
    · exact history_run _ [.resume i worked] (overloaded ▸ answers_step awaits worked)
  | amqp exchange =>
    have amqp : d.route.protocol = .amqp := by rw [route]; rfl
    obtain ⟨dest, isDest⟩ := admits.destination amqp
    have readable : Protocol.amqp.peekId m.body = .ok id := amqp ▸ admits.readable
    have absent := admits.absent amqp
    obtain ⟨o, news, after, exit, history, _⟩ := dispatch_exit here idle route m worked
    rw [history, tidy.verdict_eq here]
    refine List.mem_append_left _ ?_
    cases exit with
    | closing closing => simp [admits.opened] at closing
    | unanswerable nowhere => simp [isDest] at nowhere
    | unnamed fault unreadable => simp [readable] at unreadable
    | duplicate other readable' seen =>
      obtain rfl : id = other := by simpa [readable] using readable'
      simp [absent] at seen
    | overloaded _ _ full => simp [full]
    | abandoned _ _ free down => simp [free, down]
    | submitted _ _ free running => simp [free, running]

/-- What the workers of a dispatcher let it do, in a world that a run has led to. -/
structure Backpressure (w : World) (i : Nat) (d : Dispatcher) : Prop where
  bounded : (w.atWork i).length ≤ d.pool.capacity
  slots : d.pool.free + (w.atWork i).length = d.pool.capacity
  tasks : (w.atWork i).Perm d.pool.tickets
  nobodyWaits : d.pool.queue = []
  holding : ∀ task ∈ d.pool.tasks, task.stage = .granted ∨ task.stage = .running
  claims : ∀ e t, e.dispatcher = i → .decided t .submitted ∉ w.history →
    .decided t .submitted ∈ (w.step e).history → w.Claims i d e t
  acknowledges : ∀ m id, d.route.protocol = .amqp → d.call = none → w.Admits d m id →
    ∃ dest, d.route.destination? m = some dest ∧
      (w.step (.receive i m)).Awaits i (.accepting w.issued ⟨.amqp, m.body, id, dest⟩)
  patient : ∀ c e, w.Awaits i c → e.resumes i = false → (w.step e).Awaits i c
  looks : ∀ e t, w.Looks i d e t → w.Follows i t e (w.verdict i d)
  answers : ∀ t job worked, w.Awaits i (.answering t job) →
    .decided t .overloaded ∈ (w.step (.resume i worked)).history
  inOneGo : ∀ m id worked, d.call = none → w.Admits d m id → ∀ o,
    .decided w.issued o ∈ (w.dispatch i m worked).history ↔ o = w.verdict i d

/-- However messages, workers and connections interleave, no more tasks are under way than there
are workers, and a message is turned away as one too many exactly when every worker has one. -/
theorem backpressure_exact (registry : Registry) (posts : List Post) (events : List Event) :
    let w := (start registry posts).run events
    ∀ i d, w.dispatchers[i]? = some d → w.Backpressure i d := by
  intro w i d here
  have any : ∀ (request : Request) (reply : Response), (fun _ _ => True : Request → Response → Prop)
      request reply := fun _ _ => trivial
  have tidy : w.Tidy fun _ _ => True :=
    tidy_run (tidy_start registry posts) events (allAnswer_of_forall any _)
  have slots := tidy.slots_atWork here
  exact {
    bounded := by omega
    slots := slots
    tasks := tidy.atWork_perm here
    nobodyWaits := (tidy.prompt i d here).nobodyWaits
    holding := (tidy.prompt i d here).holding
    claims := fun e t named before new => step_claims here named new before
    acknowledges := fun m id amqp idle admits => admits.awaits here amqp idle
    patient := fun c e awaits other => awaits_step awaits other
    looks := fun e t looks => follows_looks tidy any here looks
    answers := fun t job worked awaits => answers_step awaits worked
    inOneGo := by
      intro m id worked idle admits o
      have decided := admits.dispatch tidy here idle worked
      have final : (w.dispatch i m worked).Tidy fun _ _ => True :=
        tidy_run tidy _ (allAnswer_of_forall any _)
      constructor
      · exact fun there => final.decided_unique there decided
      · rintro rfl
        exact decided }

/-- The only worker of one dispatcher is at work, and none of the other. -/
theorem backpressure_exact_for_two :
    let named (id : String) : Message := {
      body := Utf8.encode ("\x7b\"id\":\"" ++ id ++ "\"\x7d"), replyTo := some "q" }
    let posts : List Post := [⟨"a", .amqp "x", 1⟩, ⟨"m", .mqtt "t", 2⟩]
    let w := (start (.ofCapacity 16) posts).run
      [.receive 0 (named "r"), .resume 0 true, .advance 0 0]
    w.atWork 0 = [0] ∧ w.atWork 1 = [] ∧
    .decided 1 .overloaded ∈ (w.dispatch 0 (named "s") true).history ∧
    ∃ a m, w.dispatchers[0]? = some a ∧ w.dispatchers[1]? = some m ∧
      w.verdict 0 a = .overloaded ∧ w.verdict 1 m = .submitted ∧
      w.Backpressure 0 a ∧ w.Backpressure 1 m := by
  intro named posts w
  have first : w.dispatchers[0]?.map (w.verdict 0) = some .overloaded := by decide +kernel
  have second : w.dispatchers[1]?.map (w.verdict 1) = some .submitted := by decide +kernel
  obtain ⟨a, here, overloaded⟩ := Option.map_eq_some_iff.mp first
  obtain ⟨m, there, submitted⟩ := Option.map_eq_some_iff.mp second
  exact ⟨by decide +kernel, by decide +kernel, by decide +kernel, a, m, here, there, overloaded,
    submitted, backpressure_exact _ posts _ 0 a here, backpressure_exact _ posts _ 1 m there⟩

end World

end RequestBus
