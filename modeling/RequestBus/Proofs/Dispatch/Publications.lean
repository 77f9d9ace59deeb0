import RequestBus.Proofs.Dispatch.Replies
import RequestBus.Proofs.Wire.RoundTrip

namespace RequestBus

/-- One answer was handed over to the topic and nothing else. It has the id that can be read off
the message, and it reads back if its body is one that memory can hold. -/
structure Echoed (m : Message) (topic : String) (records : List Record) (answer : Response) :
    Prop where
  id : Protocol.mqtt.peekId m.body = .ok answer.id
  only : records.filterMap Record.reply? = [(Protocol.mqtt.writeReply answer, .mqtt topic)]
  reads : answer.body.length < Json.wordLimit → ∃ r,
    Protocol.mqtt.readReply (Protocol.mqtt.writeReply answer) = .ok r ∧ r.id = answer.id ∧
    r.status = answer.status ∧ r.body = answer.body

/-- The publications about a message and the requests that it gives to the handler are those that
its outcome, the place where it is and the end of its worker stand for. -/
structure Published (fits : Request → Response → Prop) (t : Nat) (m : Message) (topic : String)
    (site : Site) (records : List Record) : Prop where
  decided : ∃! outcome, .decided t outcome ∈ records
  notRejected : .decided t .rejected ∉ records
  dropped : .decided t .dropped ∈ records → records.filterMap Record.reply? = []
  malformed : .decided t .malformed ∈ records → records.filterMap Record.reply? = []
  overloaded : .decided t .overloaded ∈ records → ∃ answer,
    answer = Response.overloaded answer.id ∧ answer.status = 429 ∧
    answer.body = Utf8.encode Response.overloadBody ∧ answer.body.length < Json.wordLimit ∧
    Protocol.mqtt.peekId m.body = .ok answer.id ∧
    ((site = .outgoing answer ∧ records.filterMap Record.reply? = []) ∨
      (site = .finished ∧ Echoed m topic records answer))
  pending : .decided t .submitted ∈ records → (∀ crashed, .ended t crashed ∉ records) →
    (∃ job begun, site = .working job begun) ∧ records.filterMap Record.reply? = []
  crashed : .ended t true ∈ records → records.filterMap Record.reply? = []
  returned : .ended t false ∈ records → ∃ answer, Echoed m topic records answer ∧
    (∀ request, Protocol.mqtt.readRequest m.body = .ok request → fits request answer) ∧
    (∀ fault, Protocol.mqtt.readRequest m.body = .error fault →
      answer = fault.response answer.id ∧ answer.status = 400)
  submitted : ∀ crashed, .ended t crashed ∈ records →
    site = .finished ∧ .decided t .submitted ∈ records
  handled : ∀ crashed request, .ended t crashed ∈ records →
    Protocol.mqtt.readRequest m.body = .ok request →
    records.filterMap Record.request? = [request]
  unreadable : ∀ fault, Protocol.mqtt.readRequest m.body = .error fault →
    .ended t true ∉ records ∧ records.filterMap Record.request? = []
  unhandled : .decided t .submitted ∉ records → records.filterMap Record.request? = []
  handledOnce : (records.filterMap Record.request?).length ≤ 1

namespace Course

variable {fits : Request → Response → Prop} {shut : Prop} {topic : String} {i t : Nat}
  {m : Message} {site : Site} {records : List Record}

theorem echoed {answer : Response} (id : Protocol.mqtt.peekId m.body = .ok answer.id)
    (only : records.filterMap Record.reply? =
      [(Protocol.mqtt.writeReply answer, .mqtt topic)]) : Echoed m topic records answer :=
  ⟨id, only, fun short => ⟨_, Protocol.readReply_writeReply .mqtt short, rfl, rfl, rfl⟩⟩

theorem dest_eq {job : Job} (asks : m.Asks (.mqtt topic) job) : job.dest = .mqtt topic :=
  (Option.some.inj asks.dest).symm

theorem decided_mqtt (h : Course fits shut (.mqtt topic) i t m site records) :
    ∃ outcome, .decided t outcome ∈ records ∧ outcome ≠ .rejected := by
  cases h with
  | turnedAway => exact ⟨.dropped, by simp⟩
  | waiting | begun | ended => exact ⟨.submitted, by simp⟩
  | unnamed => exact ⟨.malformed, by simp⟩
  | noting | noted => exact ⟨.overloaded, by simp⟩
  | _ => contradiction

theorem noted_overloaded (h : Course fits shut (.mqtt topic) i t m site records)
    (decided : .decided t .overloaded ∈ records) : ∃ id, Protocol.mqtt.peekId m.body = .ok id ∧
      ((site = .outgoing (Response.overloaded id) ∧ records.filterMap Record.reply? = []) ∨
        (site = .finished ∧ Echoed m topic records (Response.overloaded id))) := by
  cases h with
  | noting mqtt job asks => exact ⟨job.id, asks.id, .inl ⟨rfl, rfl⟩⟩
  | noted mqtt job asks reached =>
    refine ⟨job.id, asks.id, .inr ⟨rfl, echoed asks.id ?_⟩⟩
    rw [dest_eq asks]
    rfl
  | waiting job asks worked | begun job asks worked | ended job asks worked reached reply fit =>
    simp [mem_taking, mem_invocation, mem_handing, mem_releasing] at decided
  | turnedAway | unnamed => simp at decided
  | _ => contradiction

theorem working_pending (h : Course fits shut (.mqtt topic) i t m site records)
    (decided : .decided t .submitted ∈ records) (running : ∀ crashed, .ended t crashed ∉ records) :
    ∃ job begun, site = .working job begun := by
  cases h with
  | waiting job asks worked => exact ⟨job, false, rfl⟩
  | begun job asks worked => exact ⟨job, true, rfl⟩
  | ended job asks worked reached reply fit => exact absurd List.mem_cons_self (running _)
  | turnedAway | unnamed | noting | noted => simp at decided
  | _ => contradiction

theorem published (h : Course fits shut (.mqtt topic) i t m site records)
    (named : ∀ request answer, fits request answer → answer.id = request.id) :
    Published fits t m topic site records where
  decided := by
    obtain ⟨outcome, decided, _⟩ := h.decided_mqtt
    exact ⟨outcome, decided, fun _ other => h.decided_unique other decided⟩
  notRejected := by
    obtain ⟨outcome, decided, other⟩ := h.decided_mqtt
    exact fun rejected => other (h.decided_unique decided rejected)
  dropped := fun decided => h.silent_of_decided decided (by decide)
    fun ended => nomatch h.decided_unique decided (h.ended_unique ended).1
  malformed := by
    intro decided
    cases h with
    | unnamed => rfl
    | waiting job asks worked | begun job asks worked | ended job asks worked reached reply fit =>
      simp [mem_taking, mem_invocation, mem_handing, mem_releasing] at decided
    | turnedAway | noting | noted => simp at decided
    | _ => contradiction
  overloaded := by
    intro decided
    obtain ⟨id, peeked, noted⟩ := h.noted_overloaded decided
    refine ⟨.overloaded id, rfl, rfl, rfl, ?_, peeked, noted⟩
    show (Utf8.encode Response.overloadBody).length < Json.wordLimit
    decide +kernel
  pending := fun decided running => ⟨h.working_pending decided running,
    h.silent_of_decided decided (by decide) (running false)⟩
  crashed := by
    intro ended
    obtain ⟨decided, only⟩ := h.ended_unique ended
    exact h.silent_of_decided decided (by decide) fun returned => nomatch only false returned
  returned := by
    intro ended
    obtain ⟨job, answer, _, asks, readable, unreadable, only, _⟩ := h.returned_one ended
    rw [dest_eq asks] at only
    have id : answer.id = job.id := by
      cases request : Protocol.mqtt.readRequest m.body with
      | ok request' =>
        rw [named _ _ (readable request' request)]
        exact Protocol.id_of_readRequest asks.id request
      | error fault =>
        rw [unreadable fault request]
        rfl
    refine ⟨answer, echoed (id ▸ asks.id) only, readable, fun fault bad => ?_⟩
    have same := unreadable fault bad
    exact ⟨id ▸ same, by rw [same]; rfl⟩
  submitted := fun _ ended => ⟨h.finished_ended ended, (h.ended_unique ended).1⟩
  handled := fun _ _ ended readable => h.handled ended readable
  unreadable := fun _ bad => h.unreadable bad
  unhandled := fun other => h.requests_of.elim id fun submitted => absurd submitted.1 other
  handledOnce := h.handled_once

theorem topic_of_handed (h : Course fits shut (.mqtt topic) i t m site records) {payload : Bytes}
    {dest : Destination} {reached : Bool} (handed : .handed t payload dest reached ∈ records) :
    dest = .mqtt topic := by
  cases h with
  | noted mqtt job asks =>
    obtain ⟨-, rfl, -⟩ : payload = _ ∧ dest = job.dest ∧ reached = _ := by simpa using handed
    exact dest_eq asks
  | ended job asks =>
    obtain ⟨_, _, _, rfl, _⟩ : ∃ answer, _ = some answer ∧ payload = _ ∧ dest = job.dest ∧ _ := by
      simpa [mem_taking, mem_invocation, mem_handing, mem_releasing] using handed
    exact dest_eq asks
  | waiting job asks worked | begun job asks worked =>
    simp [mem_taking, mem_invocation] at handed
  | turnedAway | unnamed | noting => simp at handed
  | _ => contradiction

end Course

namespace World

variable {fits : Request → Response → Prop} {w : World}

theorem trail_hand (w : World) (d : Dispatcher) (t : Nat) (reply : Response)
    (dest : Destination) : (w.hand d t reply dest).trail t =
      .handed t (d.route.protocol.writeReply reply) dest
        (d.replies.publish (d.route.protocol.writeReply reply) dest).isOk :: w.trail t :=
  trail_record rfl

theorem replies_send (tidy : Tidy fits w) {i t : Nat} {d : Dispatcher} {topic : String}
    {answer : Response} (here : w.dispatchers[i]? = some d) (mqtt : d.route = .mqtt topic)
    (noted : (t, answer) ∈ d.outbox) :
    (w.step (.send i t)).replies t = [(Protocol.mqtt.writeReply answer, .mqtt topic)] := by
  have placed := Dispatcher.mem_sites_of_note noted
  obtain ⟨m, course⟩ := tidy.placed i d here t _ placed
  have silent : w.replies t = [] := by
    rw [replies]
    generalize w.trail t = records at course
    cases course
    rfl
  obtain ⟨⟨u, other⟩, found⟩ : ∃ note, (d.outbox.find? fun note => note.1 == t) = some note :=
    Option.isSome_iff_exists.mp (List.find?_isSome.mpr ⟨_, noted, by simp⟩)
  have same : u = t := by simpa using List.find?_some found
  subst same
  have unique := tidy.site_unique here placed
    (Dispatcher.mem_sites_of_note (List.mem_of_find?_eq_some found))
  cases unique
  have step : w.step (.send i u) = w.send i d u := by simp only [World.step, visit, here]
  rw [step, World.send, mqtt, found, replies, trail_hand, List.filterMap_cons, mqtt]
  exact congrArg _ silent

/-- Every message over MQTT is answered for itself and as its outcome says, and nothing else is
published. A handler is whatever `fits` requests and answers, as long as it keeps the id. -/
theorem publications_conserved (registry : Registry) (posts : List Post) (events : List Event)
    (fits : Request → Response → Prop)
    (named : ∀ request answer, fits request answer → answer.id = request.id)
    (answers : (start registry posts).AllAnswer fits events) :
    let w := (start registry posts).run events
    (∀ (t i : Nat) (m : Message) (d : Dispatcher) (topic : String),
      .received t i m ∈ w.history → w.dispatchers[i]? = some d → d.route = .mqtt topic →
      ∃ site, (site = .finished ∨ (t, site) ∈ d.sites) ∧
        Published fits t m topic site (w.trail t)) ∧
    (∀ (t : Nat) (payload : Bytes) (dest : Destination) (reached : Bool),
      .handed t payload dest reached ∈ w.history →
      ∃ i m d, .received t i m ∈ w.history ∧ w.dispatchers[i]? = some d ∧
        ∀ topic, d.route = .mqtt topic → dest = .mqtt topic) ∧
    (∀ (i t : Nat) (d : Dispatcher) (topic : String) (answer : Response),
      w.dispatchers[i]? = some d → d.route = .mqtt topic → (t, answer) ∈ d.outbox →
      (w.step (.send i t)).replies t = [(Protocol.mqtt.writeReply answer, .mqtt topic)]) ∧
    (∀ (i t : Nat) (d : Dispatcher) (topic : String) (before : Task Job)
      (reply : Option Response), w.dispatchers[i]? = some d → d.route = .mqtt topic →
      d.pool.task? t = some before → before.stage = .running →
      (w.step (.finish i t reply)).replies t = (before.job.answer reply).toList.map fun r =>
        (Protocol.mqtt.writeReply r, .mqtt topic)) := by
  intro w
  have tidy : w.Tidy fits := tidy_run (tidy_start registry posts) events answers
  refine ⟨?_, ?_, ?_, ?_⟩
  · intro t i m d topic received here mqtt
    obtain ⟨s, placed, course⟩ := tidy.site_of_received received here
    rw [mqtt] at course
    exact ⟨s, placed, course.published named⟩
  · intro t payload dest reached handed
    have there := mem_trail.mpr ⟨handed, rfl⟩
    obtain ⟨i, m, d, _, received, here, _, course⟩ := tidy.received_of_mem there
    refine ⟨i, m, d, received, here, fun topic mqtt => ?_⟩
    rw [mqtt] at course
    exact course.topic_of_handed there
  · intro i t d topic answer here mqtt noted
    exact replies_send tidy here mqtt noted
  · intro i t d topic before reply here mqtt found stage
    obtain ⟨member, rfl⟩ := Pool.task?_spec found
    have placed := Dispatcher.mem_sites_of_task member
    rw [stage] at placed
    obtain ⟨m, course⟩ := tidy.placed i d here _ _ placed
    have dest : before.job.dest = .mqtt topic := by
      rw [mqtt] at course
      generalize w.trail _ = records at course
      cases course with
      | begun _ asks => exact Course.dest_eq asks
    have replies := replies_finish tidy here found stage reply
    rwa [mqtt, dest] at replies

/-- Two messages with one id; the second is answered first. -/
theorem publications_conserved_for_twins :
    let fits : Request → Response → Prop := fun request answer => answer.id = request.id
    let twin : Message :=
      { body := Wire.Framed.writeRequest ⟨"r", "GET", "/", .empty, [], none⟩ }
    let events : List Event :=
      [.receive 0 twin, .advance 0 0, .receive 0 twin, .advance 0 1,
        .finish 0 1 (some (.plain "r" 404 [])), .finish 0 0 (some (.plain "r" 200 []))]
    let w := (start (.ofCapacity 16) [⟨"a", .mqtt "x", 2⟩]).run events
    (start (.ofCapacity 16) [⟨"a", .mqtt "x", 2⟩]).AllAnswer fits events ∧
    w.replies 0 = [(Protocol.mqtt.writeReply (.plain "r" 200 []), .mqtt "x")] ∧
    w.replies 1 = [(Protocol.mqtt.writeReply (.plain "r" 404 []), .mqtt "x")] ∧
    ∃ first second, Published fits 0 twin "x" first (w.trail 0) ∧
      Published fits 1 twin "x" second (w.trail 1) := by
  intro fits twin events w
  obtain ⟨answers, one, two, first, second, route⟩ :
      (start (.ofCapacity 16) [⟨"a", .mqtt "x", 2⟩]).AllAnswer fits events ∧
      w.replies 0 = [(Protocol.mqtt.writeReply (.plain "r" 200 []), .mqtt "x")] ∧
      w.replies 1 = [(Protocol.mqtt.writeReply (.plain "r" 404 []), .mqtt "x")] ∧
      .received 0 0 twin ∈ w.history ∧ .received 1 0 twin ∈ w.history ∧
      w.dispatchers[0]?.map Dispatcher.route = some (.mqtt "x") := by
    decide +kernel
  obtain ⟨d, here, mqtt⟩ := Option.map_eq_some_iff.mp route
  have published := (publications_conserved _ _ events fits (fun _ _ same => same) answers).1
  obtain ⟨site, _, answered⟩ := published 0 0 twin d "x" first here mqtt
  obtain ⟨other, _, noted⟩ := published 1 0 twin d "x" second here mqtt
  exact ⟨answers, one, two, site, other, answered, noted⟩

end World

end RequestBus
