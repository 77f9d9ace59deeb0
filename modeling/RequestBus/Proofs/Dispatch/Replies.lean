import RequestBus.Proofs.Dispatch.Runs
import RequestBus.Proofs.Wire.Peek
import RequestBus.Proofs.Wire.Reply

namespace RequestBus

def Record.reply? : Record → Option (Bytes × Destination)
  | .handed _ payload dest _ => some (payload, dest)
  | _ => none

def Record.request? : Record → Option Request
  | .invoked _ request => some request
  | _ => none

theorem replies_invocation (job : Job) (t : Nat) :
    (job.invocation t).filterMap Record.reply? = [] :=
  filterMap_invocation (fun _ => rfl) job

theorem replies_releasing (protocol : Protocol) (t : Nat) (id : String) :
    (protocol.releasing t id).filterMap Record.reply? = [] :=
  filterMap_releasing (fun _ => rfl) protocol id

theorem replies_handing (job : Job) (t : Nat) (reply : Option Response) (reached : Bool) :
    (job.handing t reply reached).filterMap Record.reply? =
      reply.toList.map fun r => (job.protocol.writeReply r, job.dest) := by
  cases reply <;> rfl

theorem replies_taking (protocol : Protocol) (t : Nat) (id : String) (worked : Bool) :
    (protocol.taking t id worked).filterMap Record.reply? = [] := by
  cases protocol <;> rfl

theorem requests_invocation (job : Job) (t : Nat) :
    (job.invocation t).filterMap Record.request? = job.request.toOption.toList := by
  unfold Job.invocation
  split <;> simp [*, Record.request?, Except.toOption]

theorem requests_releasing (protocol : Protocol) (t : Nat) (id : String) :
    (protocol.releasing t id).filterMap Record.request? = [] :=
  filterMap_releasing (fun _ => rfl) protocol id

theorem requests_handing (job : Job) (t : Nat) (reply : Option Response) (reached : Bool) :
    (job.handing t reply reached).filterMap Record.request? = [] :=
  filterMap_handing (fun _ _ _ => rfl) job reply reached

theorem requests_taking (protocol : Protocol) (t : Nat) (id : String) (worked : Bool) :
    (protocol.taking t id worked).filterMap Record.request? = [] := by
  cases protocol <;> rfl

/-- The sender of a message reads replies there: in the queue that it names, through the exchange
that it names or else through the given one. -/
def Message.Wants (m : Message) (exchange : String) (dest : Destination) : Prop :=
  ∃ named queue, dest = .amqp named queue m.correlation ∧
    m.replyTo = some queue ∧ Text.allBlank queue = false ∧
    ((m.replyExchange = some named ∧ Text.allBlank named = false) ∨
      (named = exchange ∧ ∀ blank ∈ m.replyExchange, Text.allBlank blank = true))

theorem given?_eq_some {s text : String} :
    Text.given? s = some text ↔ s = text ∧ Text.allBlank s = false := by
  unfold Text.given?
  split <;> simp [*]

theorem given?_eq_none {s : String} : Text.given? s = none ↔ Text.allBlank s = true := by
  unfold Text.given?
  split <;> simp [*]

theorem wants_of_destination {m : Message} {exchange : String} {dest : Destination}
    (isDest : (ReplyRoute.amqp exchange).destination? m = some dest) : m.Wants exchange dest := by
  obtain ⟨queue, sent, rfl⟩ := Option.map_eq_some_iff.mp isDest
  obtain ⟨text, replyTo, given⟩ := Option.bind_eq_some_iff.mp sent
  obtain ⟨rfl, solid⟩ := given?_eq_some.mp given
  refine ⟨_, text, rfl, replyTo, solid, ?_⟩
  cases named : m.replyExchange with
  | none => exact .inr ⟨rfl, by simp⟩
  | some name =>
    cases given : Text.given? name with
    | none => exact .inr ⟨by simp [given], by simpa using given?_eq_none.mp given⟩
    | some same =>
      obtain ⟨rfl, solid⟩ := given?_eq_some.mp given
      exact .inl ⟨by simp [given], by simpa [given] using solid⟩

/-- A payload can be read, and says what the answer says. -/
def Tells (payload : Bytes) (answer : Response) : Prop :=
  ∃ r, Protocol.amqp.readReply payload = .ok r ∧ r.id = answer.id ∧ r.status = answer.status ∧
    r.body = answer.body

theorem tells_writeReply {answer : Response} (short : answer.body.length < Json.wordLimit) :
    Tells (Protocol.amqp.writeReply answer) answer :=
  ⟨_, Wire.Flat.readReply_writeReply short, rfl, rfl, rfl⟩

theorem tells_overloaded (id : String) :
    Tells (Protocol.amqp.writeReply (Response.overloaded id)) (Response.overloaded id) :=
  tells_writeReply (by
    show (Utf8.encode Response.overloadBody).length < Json.wordLimit
    decide +kernel)

/-- One answer and no other was handed over about the delivery `t`, before the record `last` and
to where the sender reads replies. It can be read if its body is one that memory can hold: the
length stands in a header, as a machine word. -/
def Answered (t : Nat) (m : Message) (exchange : String) (records : List Record) (last : Record)
    (answer : Response) : Prop :=
  ∃ dest reached, m.Wants exchange dest ∧
    records.filterMap Record.reply? = [(Protocol.amqp.writeReply answer, dest)] ∧
    [last, .handed t (Protocol.amqp.writeReply answer) dest reached].Sublist records ∧
    (answer.body.length < Json.wordLimit → Tells (Protocol.amqp.writeReply answer) answer)

theorem Message.Asks.request_eq {m : Message} {route : ReplyRoute} {job : Job}
    (asks : m.Asks route job) : job.request =
      (route.protocol.readRequest m.body).mapError fun fault => fault.response job.id := by
  rw [Job.request, asks.protocol, asks.body]

theorem Message.Asks.request_toOption {m : Message} {route : ReplyRoute} {job : Job}
    (asks : m.Asks route job) :
    job.request.toOption = (route.protocol.readRequest m.body).toOption := by
  rw [asks.request_eq]
  cases route.protocol.readRequest m.body <;> rfl

namespace Course

variable {fits : Request → Response → Prop} {shut : Prop} {route : ReplyRoute} {exchange : String}
  {i t : Nat} {m : Message} {site : Site} {records : List Record}

theorem decided_unique (h : Course fits shut route i t m site records) {one other : Outcome}
    (first : .decided t one ∈ records) (second : .decided t other ∈ records) : one = other := by
  cases h <;>
    simp_all [mem_taking, mem_invocation, mem_handing, mem_releasing]

theorem ended_unique (h : Course fits shut route i t m site records) {crashed : Bool}
    (ended : .ended t crashed ∈ records) : .decided t .submitted ∈ records ∧
      ∀ other, .ended t other ∈ records → crashed = other := by
  cases h with
  | ended job asks worked reached reply fit =>
    simp_all [mem_taking, mem_invocation, mem_handing, mem_releasing]
  | waiting job asks worked | begun job asks worked =>
    simp [mem_taking, mem_invocation] at ended
  | _ => simp at ended

theorem finished_ended (h : Course fits shut route i t m site records)
    {crashed : Bool} (ended : .ended t crashed ∈ records) : site = .finished := by
  cases h with
  | ended => rfl
  | waiting job asks worked | begun job asks worked =>
    simp [mem_taking, mem_invocation] at ended
  | _ => simp at ended

theorem silent (h : Course fits shut route i t m site records)
    (malformed : .decided t .malformed ∉ records) (overloaded : .decided t .overloaded ∉ records)
    (returned : .ended t false ∉ records) : records.filterMap Record.reply? = [] := by
  cases h with
  | waiting job asks worked | begun job asks worked =>
    simp [List.filterMap_cons, Record.reply?, replies_taking, replies_invocation]
  | ended job asks worked reached reply fit =>
    have crashed : job.answer reply = none := by
      simpa [mem_taking, mem_invocation, mem_handing, mem_releasing] using returned
    simp [List.filterMap_cons, Record.reply?, replies_taking, replies_invocation,
      replies_releasing, replies_handing, crashed]
  | refused | answered | noted => simp_all
  | _ => rfl

theorem silent_of_decided (h : Course fits shut route i t m site records)
    {outcome : Outcome} (decided : .decided t outcome ∈ records)
    (other : outcome ≠ .malformed ∧ outcome ≠ .overloaded)
    (returned : .ended t false ∉ records) : records.filterMap Record.reply? = [] :=
  h.silent (fun malformed => other.1 (h.decided_unique decided malformed))
    (fun overloaded => other.2 (h.decided_unique decided overloaded)) returned

theorem answered_malformed (h : Course fits shut (.amqp exchange) i t m site records)
    (decided : .decided t .malformed ∈ records) : ∃ fault,
      Protocol.amqp.peekId m.body = .error fault ∧
      Answered t m exchange records (.decided t .malformed) (fault.response "") := by
  cases h with
  | refused amqp fault dest unreadable isDest worked reached =>
    refine ⟨fault, unreadable, dest, reached, wants_of_destination isDest, rfl, ?_,
      tells_writeReply⟩
    exact List.sublist_append_left [_, _] _
  | waiting job asks worked | begun job asks worked | ended job asks worked reached reply fit =>
    simp [mem_taking, mem_invocation, mem_handing, mem_releasing] at decided
  | unnamed mqtt => contradiction
  | _ => simp at decided

theorem answered_overloaded (h : Course fits shut (.amqp exchange) i t m site records)
    (decided : .decided t .overloaded ∈ records) : ∃ id,
      Protocol.amqp.peekId m.body = .ok id ∧
      Answered t m exchange records (.decided t .overloaded) (Response.overloaded id) := by
  cases h with
  | answered amqp job asks worked reached =>
    refine ⟨job.id, asks.id, job.dest, reached, wants_of_destination asks.dest, rfl, ?_,
      tells_writeReply⟩
    exact (List.Sublist.cons _ (List.sublist_append_left [_] _)).cons_cons _
  | waiting job asks worked | begun job asks worked | ended job asks worked reached reply fit =>
    simp [mem_taking, mem_invocation, mem_handing, mem_releasing] at decided
  | noting mqtt | noted mqtt => contradiction
  | _ => simp at decided

theorem returned_one (h : Course fits shut route i t m site records)
    (ended : .ended t false ∈ records) : ∃ job answer reached, m.Asks route job ∧
      (∀ request, route.protocol.readRequest m.body = .ok request → fits request answer) ∧
      (∀ fault, route.protocol.readRequest m.body = .error fault →
        answer = fault.response job.id) ∧
      records.filterMap Record.reply? = [(route.protocol.writeReply answer, job.dest)] ∧
      [.ended t false, .handed t (route.protocol.writeReply answer) job.dest reached].Sublist
        records := by
  cases h with
  | ended job asks worked reached reply fit =>
    have returned : (job.answer reply).isSome = true := by
      simpa [mem_taking, mem_invocation, mem_handing, mem_releasing] using ended
    obtain ⟨answer, answers⟩ := Option.isSome_iff_exists.mp returned
    refine ⟨job, answer, reached, asks, ?_, ?_, ?_, ?_⟩
    · intro request readable
      have same : job.request = .ok request := by
        rw [asks.request_eq, readable]
        rfl
      rw [Job.answer, same] at answers
      exact fit request answer same answers
    · intro fault unreadable
      have same : job.request = .error (fault.response job.id) := by
        rw [asks.request_eq, unreadable]
        rfl
      rw [Job.answer, same] at answers
      exact (Option.some.inj answers).symm
    · simp [List.filterMap_cons, Record.reply?, replies_taking, replies_invocation,
        replies_releasing, replies_handing, answers, asks.protocol]
    · cases protocol : route.protocol <;>
        simp [Protocol.releasing, Job.handing, asks.protocol, protocol, answers]
  | waiting job asks worked | begun job asks worked =>
    simp [mem_taking, mem_invocation] at ended
  | _ => simp at ended

theorem answered_returned (h : Course fits shut (.amqp exchange) i t m site records)
    (ended : .ended t false ∈ records) : ∃ id answer,
      Protocol.amqp.peekId m.body = .ok id ∧
      (∀ request, Protocol.amqp.readRequest m.body = .ok request → fits request answer) ∧
      (∀ fault, Protocol.amqp.readRequest m.body = .error fault → answer = fault.response id) ∧
      Answered t m exchange records (.ended t false) answer := by
  obtain ⟨job, answer, reached, asks, readable, unreadable, only, before⟩ := h.returned_one ended
  exact ⟨job.id, answer, asks.id, readable, unreadable, job.dest, reached,
    wants_of_destination asks.dest, only, before, tells_writeReply⟩

theorem requests_ended (h : Course fits shut route i t m site records) {crashed : Bool}
    (ended : .ended t crashed ∈ records) : records.filterMap Record.request? =
      (route.protocol.readRequest m.body).toOption.toList ∧
      (crashed = true → ∃ request, route.protocol.readRequest m.body = .ok request) := by
  cases h with
  | ended job asks worked reached reply fit =>
    refine ⟨?_, ?_⟩
    · simp [List.filterMap_cons, Record.request?, requests_taking, requests_invocation,
        requests_releasing, requests_handing, asks.request_toOption]
    · rintro rfl
      have crash : job.answer reply = none := by
        simpa [mem_taking, mem_invocation, mem_handing, mem_releasing] using ended
      cases readable : route.protocol.readRequest m.body with
      | ok request => exact ⟨request, rfl⟩
      | error fault =>
        have refused : job.request = .error (fault.response job.id) := by
          rw [asks.request_eq, readable]
          rfl
        rw [Job.answer, refused] at crash
        contradiction
  | waiting job asks worked | begun job asks worked => simp [mem_taking, mem_invocation] at ended
  | _ => simp at ended

theorem requests_of (h : Course fits shut route i t m site records) :
    records.filterMap Record.request? = [] ∨ (.decided t .submitted ∈ records ∧
      records.filterMap Record.request? =
        (route.protocol.readRequest m.body).toOption.toList) := by
  by_cases ended : ∃ crashed, .ended t crashed ∈ records
  · obtain ⟨crashed, ended⟩ := ended
    exact .inr ⟨(h.ended_unique ended).1, (h.requests_ended ended).1⟩
  cases h with
  | ended => exact absurd ⟨_, List.mem_cons_self⟩ ended
  | begun job asks worked =>
    refine .inr ⟨by simp, ?_⟩
    simp [List.filterMap_cons, Record.request?, requests_taking, requests_invocation,
      asks.request_toOption]
  | waiting job asks worked =>
    simp [List.filterMap_cons, Record.request?, requests_taking]
  | _ => exact .inl rfl

theorem handled (h : Course fits shut route i t m site records) {crashed : Bool}
    {request : Request} (ended : .ended t crashed ∈ records)
    (readable : route.protocol.readRequest m.body = .ok request) :
    records.filterMap Record.request? = [request] := by
  rw [(h.requests_ended ended).1, readable]
  rfl

theorem unreadable (h : Course fits shut route i t m site records) {fault : Malformed}
    (bad : route.protocol.readRequest m.body = .error fault) :
    .ended t true ∉ records ∧ records.filterMap Record.request? = [] := by
  refine ⟨fun ended => ?_, ?_⟩
  · obtain ⟨request, readable⟩ := (h.requests_ended ended).2 rfl
    rw [bad] at readable
    contradiction
  · rcases h.requests_of with none | ⟨_, same⟩
    · exact none
    · rw [same, bad]
      rfl

theorem handled_once (h : Course fits shut route i t m site records) :
    (records.filterMap Record.request?).length ≤ 1 := by
  rcases h.requests_of with none | ⟨_, same⟩
  · simp [none]
  · rw [same]
    cases route.protocol.readRequest m.body <;> simp [Except.toOption]

end Course

/-- The replies to a delivery and the requests that it gives to the handler are those that its
outcome and the end of its worker stand for. -/
structure Conserved (fits : Request → Response → Prop) (t : Nat) (m : Message) (exchange : String)
    (records : List Record) : Prop where
  undecided : (∀ outcome, .decided t outcome ∉ records) → records.filterMap Record.reply? = []
  dropped : .decided t .dropped ∈ records → records.filterMap Record.reply? = []
  rejected : .decided t .rejected ∈ records → records.filterMap Record.reply? = []
  malformed : .decided t .malformed ∈ records → ∃ fault answer,
    Protocol.amqp.peekId m.body = .error fault ∧ answer = fault.response "" ∧
    answer.id = "" ∧ answer.status = 400 ∧
    Answered t m exchange records (.decided t .malformed) answer
  overloaded : .decided t .overloaded ∈ records → ∃ id answer,
    Protocol.amqp.peekId m.body = .ok id ∧ answer = Response.overloaded id ∧
    answer.id = id ∧ answer.status = 429 ∧ answer.body = Utf8.encode Response.overloadBody ∧
    Tells (Protocol.amqp.writeReply answer) answer ∧
    Answered t m exchange records (.decided t .overloaded) answer
  pending : .decided t .submitted ∈ records → (∀ crashed, .ended t crashed ∉ records) →
    records.filterMap Record.reply? = []
  crashed : .ended t true ∈ records → records.filterMap Record.reply? = []
  returned : .ended t false ∈ records → ∃ id answer,
    Protocol.amqp.peekId m.body = .ok id ∧ answer.id = id ∧
    (∀ request, Protocol.amqp.readRequest m.body = .ok request → fits request answer) ∧
    (∀ fault, Protocol.amqp.readRequest m.body = .error fault →
      answer = fault.response id ∧ answer.status = 400) ∧
    Answered t m exchange records (.ended t false) answer
  submitted : ∀ crashed, .ended t crashed ∈ records → .decided t .submitted ∈ records
  handled : ∀ crashed request, .ended t crashed ∈ records →
    Protocol.amqp.readRequest m.body = .ok request →
    records.filterMap Record.request? = [request]
  unreadable : ∀ fault, Protocol.amqp.readRequest m.body = .error fault →
    .ended t true ∉ records ∧ records.filterMap Record.request? = []
  unhandled : .decided t .submitted ∉ records → records.filterMap Record.request? = []
  handledOnce : (records.filterMap Record.request?).length ≤ 1

theorem Course.conserved {fits : Request → Response → Prop} {shut : Prop} {exchange : String}
    {i t : Nat} {m : Message} {site : Site} {records : List Record}
    (h : Course fits shut (.amqp exchange) i t m site records)
    (named : ∀ request answer, fits request answer → answer.id = request.id) :
    Conserved fits t m exchange records where
  undecided := fun undecided => h.silent (undecided _) (undecided _) fun ended =>
    undecided _ (h.ended_unique ended).1
  dropped := fun decided => h.silent_of_decided decided (by decide)
    fun ended => nomatch h.decided_unique decided (h.ended_unique ended).1
  rejected := fun decided => h.silent_of_decided decided (by decide)
    fun ended => nomatch h.decided_unique decided (h.ended_unique ended).1
  malformed := by
    intro decided
    obtain ⟨fault, unnamed, answered⟩ := h.answered_malformed decided
    exact ⟨fault, _, unnamed, rfl, rfl, rfl, answered⟩
  overloaded := by
    intro decided
    obtain ⟨id, peeked, answered⟩ := h.answered_overloaded decided
    exact ⟨id, _, peeked, rfl, rfl, rfl, rfl, tells_overloaded id, answered⟩
  pending := fun decided running => h.silent_of_decided decided (by decide) (running false)
  crashed := by
    intro ended
    obtain ⟨decided, only⟩ := h.ended_unique ended
    exact h.silent_of_decided decided (by decide) fun returned => nomatch only false returned
  returned := by
    intro ended
    obtain ⟨id, answer, peeked, readable, unreadable, answered⟩ := h.answered_returned ended
    refine ⟨id, answer, peeked, ?_, readable, fun fault bad => ?_, answered⟩
    · cases request : Protocol.amqp.readRequest m.body with
      | ok request' =>
        rw [named _ _ (readable request' request)]
        exact Protocol.id_of_readRequest peeked request
      | error fault =>
        rw [unreadable fault request]
        rfl
    · have same := unreadable fault bad
      exact ⟨same, by rw [same]; rfl⟩
  submitted := fun crashed ended => (h.ended_unique ended).1
  handled := fun _ _ ended readable => h.handled ended readable
  unreadable := fun _ bad => h.unreadable bad
  unhandled := fun other => h.requests_of.elim id fun submitted => absurd submitted.1 other
  handledOnce := h.handled_once

namespace World

variable {fits : Request → Response → Prop} {w : World}

def replies (w : World) (t : Nat) : List (Bytes × Destination) :=
  (w.trail t).filterMap Record.reply?

theorem replies_finish (tidy : Tidy fits w) {i t : Nat} {d : Dispatcher} {before : Task Job}
    (here : w.dispatchers[i]? = some d) (found : d.pool.task? t = some before)
    (stage : before.stage = .running) (reply : Option Response) :
    (w.step (.finish i t reply)).replies t = (before.job.answer reply).toList.map fun r =>
      (d.route.protocol.writeReply r, before.job.dest) := by
  obtain ⟨member, rfl⟩ := Pool.task?_spec found
  have placed := Dispatcher.mem_sites_of_task member
  rw [stage] at placed
  obtain ⟨m, course⟩ := tidy.placed i d here _ _ placed
  generalize trail : w.trail _ = records at course
  cases course with
  | begun _ asks worked =>
    have silent : (w.trail before.ticket).filterMap Record.reply? = [] := by
      rw [show w.trail before.ticket = _ from trail]
      simp [List.filterMap_cons, Record.reply?, replies_taking, replies_invocation]
    obtain ⟨reached, finished⟩ := finish_running (w := w) (i := i) (tidy.prompt i d here) found
      stage asks.protocol reply
    have concern := concern_ending before.job before.ticket (before.job.answer reply).isNone
      (before.job.answer reply) reached
    have step : w.step (.finish i before.ticket reply) = w.finish i d before.ticket reply := by
      simp only [World.step, visit, here]
    rw [replies, World.trail, step, finished, List.filter_append, filter_of_concern concern,
      ← World.trail, List.filterMap_append, silent]
    simp [List.filterMap_cons, Record.reply?, replies_releasing, replies_handing, asks.protocol]

/-- A delivery over AMQP is answered as its outcome says, and no reply is about anything else. A
handler is whatever `fits` requests and answers, as long as it keeps the id. -/
theorem replies_conserved (registry : Registry) (posts : List Post) (events : List Event)
    (fits : Request → Response → Prop)
    (named : ∀ request answer, fits request answer → answer.id = request.id)
    (answers : (start registry posts).AllAnswer fits events) :
    let w := (start registry posts).run events
    (∀ (t i : Nat) (m : Message) (d : Dispatcher) (exchange : String),
      .received t i m ∈ w.history → w.dispatchers[i]? = some d → d.route = .amqp exchange →
      Conserved fits t m exchange (w.trail t)) ∧
    (∀ (t : Nat) (payload : Bytes) (dest : Destination) (reached : Bool),
      .handed t payload dest reached ∈ w.history →
      ∃ i m d, .received t i m ∈ w.history ∧ w.dispatchers[i]? = some d) ∧
    (∀ (i t : Nat) (d : Dispatcher) (exchange : String) (before : Task Job)
      (reply : Option Response), w.dispatchers[i]? = some d → d.route = .amqp exchange →
      d.pool.task? t = some before → before.stage = .running →
      (w.step (.finish i t reply)).replies t = (before.job.answer reply).toList.map fun r =>
        (Protocol.amqp.writeReply r, before.job.dest)) := by
  intro w
  have tidy : w.Tidy fits := tidy_run (tidy_start registry posts) events answers
  refine ⟨?_, ?_, ?_⟩
  · intro t i m d exchange received here amqp
    obtain ⟨s, course⟩ := tidy.course_of_received received here
    rw [amqp] at course
    exact course.conserved named
  · intro t payload dest reached handed
    obtain ⟨i, m, d, _, received, here, _⟩ :=
      tidy.received_of_mem (mem_trail.mpr ⟨handed, rfl⟩)
    exact ⟨i, m, d, received, here⟩
  · intro i t d exchange before reply here amqp found stage
    have replies := replies_finish tidy here found stage reply
    rwa [amqp] at replies

/-- One request that is answered, and one that finds the worker busy. -/
theorem replies_conserved_for_two :
    let fits : Request → Response → Prop := fun request answer => answer.id = request.id
    let one : Message := {
      body := Utf8.encode "\x7b\"id\":\"r\",\"method\":\"GET\",\"path\":\"/\"\x7d"
      replyTo := some "q", correlation := some "c" }
    let two : Message := {
      body := Utf8.encode "\x7b\"id\":\"s\"\x7d", replyTo := some "p", replyExchange := some "y" }
    let events : List Event :=
      [.receive 0 one, .resume 0 true, .advance 0 0, .receive 0 two, .resume 0 true,
        .resume 0 true, .finish 0 0 (some (.plain "r" 200 []))]
    let w := (start (.ofCapacity 16) [⟨"a", .amqp "x", 1⟩]).run events
    (start (.ofCapacity 16) [⟨"a", .amqp "x", 1⟩]).AllAnswer fits events ∧
    w.replies 0 = [(Protocol.amqp.writeReply (.plain "r" 200 []), .amqp "x" "q" (some "c"))] ∧
    w.replies 1 = [(Protocol.amqp.writeReply (.overloaded "s"), .amqp "y" "p" none)] ∧
    Conserved fits 0 one "x" (w.trail 0) ∧ Conserved fits 1 two "x" (w.trail 1) := by
  intro fits one two events w
  have answers : (start (.ofCapacity 16) [⟨"a", .amqp "x", 1⟩]).AllAnswer fits events := by
    decide +kernel
  have route : w.dispatchers[0]?.map Dispatcher.route = some (.amqp "x") := by decide +kernel
  obtain ⟨d, here, amqp⟩ := Option.map_eq_some_iff.mp route
  have conserved := (replies_conserved _ _ events fits (fun _ _ same => same) answers).1
  exact ⟨answers, by decide +kernel, by decide +kernel,
    conserved 0 0 one d "x" (by decide +kernel) here amqp,
    conserved 1 0 two d "x" (by decide +kernel) here amqp⟩

end World

end RequestBus
