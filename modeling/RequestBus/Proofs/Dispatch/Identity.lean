import RequestBus.Proofs.Dispatch.Replies

namespace RequestBus

open Json Wire

/-- The id that is peeked is the id of the request that the bytes stand for, if they stand for
one. -/
def Protocol.Identifies (p : Protocol) (raw : Bytes) (id : String) : Prop :=
  p.peekId raw = .ok id ∧ ∀ q, p.readRequest raw = .ok q → q.id = id

theorem Protocol.identifies {p : Protocol} {raw : Bytes} {id : String}
    (peeked : p.peekId raw = .ok id) : p.Identifies raw id :=
  ⟨peeked, fun _ read => Protocol.id_of_readRequest peeked read⟩

/-- Wherever an id is used for a message, it is the one that the handler sees. -/
structure Identified (p : Protocol) (t : Nat) (m : Message) (records : List Record) : Prop where
  accepted : ∀ id, .accepted t id ∈ records → p.Identifies m.body id
  released : ∀ id, .released t id ∈ records → p.Identifies m.body id
  overloaded : .decided t .overloaded ∈ records → ∀ payload dest reached,
    .handed t payload dest reached ∈ records → ∃ id, p.Identifies m.body id ∧
      payload = p.writeReply (Response.overloaded id)
  refused : ∀ fault, p.readRequest m.body = .error fault → .decided t .submitted ∈ records →
    ∀ payload dest reached, .handed t payload dest reached ∈ records →
      ∃ id, p.Identifies m.body id ∧ payload = p.writeReply (fault.response id)
  malformed : .decided t .malformed ∈ records → ∀ q, .invoked t q ∉ records
  handled : ∀ q, .invoked t q ∈ records →
    p.readRequest m.body = .ok q ∧ p.Identifies m.body q.id

theorem Message.Asks.identifies {m : Message} {route : ReplyRoute} {job : Job}
    (asks : m.Asks route job) : route.protocol.Identifies m.body job.id :=
  Protocol.identifies asks.id

theorem Message.Asks.handled {m : Message} {route : ReplyRoute} {job : Job} {q : Request}
    (asks : m.Asks route job) (request : job.request = .ok q) :
    route.protocol.readRequest m.body = .ok q ∧ route.protocol.Identifies m.body q.id := by
  rw [asks.request_eq] at request
  have read := ok_of_mapError request
  have named := asks.identifies
  exact ⟨read, (named.2 q read).symm ▸ named⟩

namespace Course

variable {fits : Request → Response → Prop} {shut : Prop} {route : ReplyRoute} {i t : Nat}
  {m : Message} {site : Site} {records : List Record}

theorem asks_of_accepted (h : Course fits shut route i t m site records) {id : String}
    (accepted : .accepted t id ∈ records) : ∃ job, m.Asks route job ∧ job.id = id := by
  cases h with
  | accepting amqp job asks | answering amqp job asks | answered amqp job asks
  | abandoned amqp job asks =>
    simp only [List.mem_cons, reduceCtorEq, Record.accepted.injEq, true_and, List.not_mem_nil,
      or_false, false_or] at accepted
    exact ⟨job, asks, accepted.symm⟩
  | waiting job asks | begun job asks | ended job asks =>
    simp only [List.mem_append, List.mem_cons, List.cons_append, mem_taking, mem_invocation,
      mem_handing, mem_releasing, reduceCtorEq, Record.accepted.injEq, true_and, and_false,
      exists_false, List.not_mem_nil, or_false, false_or] at accepted
    exact ⟨job, asks, accepted.2.symm⟩
  | _ => simp at accepted

theorem asks_of_released (h : Course fits shut route i t m site records) {id : String}
    (released : .released t id ∈ records) : ∃ job, m.Asks route job ∧ job.id = id := by
  cases h with
  | answered amqp job asks | abandoned amqp job asks =>
    simp only [List.mem_cons, reduceCtorEq, Record.released.injEq, true_and, List.not_mem_nil,
      or_false, false_or] at released
    exact ⟨job, asks, released.symm⟩
  | ended job asks =>
    simp only [List.mem_append, List.mem_cons, List.cons_append, mem_taking, mem_invocation,
      mem_handing, mem_releasing, reduceCtorEq, Record.released.injEq, true_and, and_false,
      exists_false, List.not_mem_nil, or_false, false_or] at released
    exact ⟨job, asks, released.2.symm⟩
  | waiting job asks | begun job asks => simp [mem_taking, mem_invocation] at released
  | _ => simp at released

theorem asks_of_overloaded (h : Course fits shut route i t m site records)
    (decided : .decided t .overloaded ∈ records) {payload : Bytes} {dest : Destination}
    {reached : Bool} (handed : .handed t payload dest reached ∈ records) :
    ∃ job, m.Asks route job ∧
      payload = route.protocol.writeReply (Response.overloaded job.id) := by
  cases h with
  | answered amqp job asks | noted mqtt job asks =>
    simp only [List.mem_cons, reduceCtorEq, Record.handed.injEq, true_and, List.not_mem_nil,
      or_false, false_or] at handed
    exact ⟨job, asks, handed.1⟩
  | noting mqtt job asks => simp at handed
  | waiting job asks | begun job asks | ended job asks =>
    simp [mem_taking, mem_invocation, mem_handing, mem_releasing] at decided
  | _ => simp at decided

theorem asks_of_invoked (h : Course fits shut route i t m site records) {q : Request}
    (invoked : .invoked t q ∈ records) : ∃ job, m.Asks route job ∧ job.request = .ok q := by
  cases h with
  | begun job asks | ended job asks =>
    simp only [List.mem_append, List.mem_cons, List.cons_append, mem_taking, mem_invocation,
      mem_handing, mem_releasing, reduceCtorEq, Record.invoked.injEq, true_and, and_false,
      exists_false, List.not_mem_nil, or_false, false_or,
      exists_eq_right'] at invoked
    exact ⟨job, asks, invoked⟩
  | waiting job asks => simp [mem_taking] at invoked
  | _ => simp at invoked

theorem refused_under_id (h : Course fits shut route i t m site records) {fault : Malformed}
    (bad : route.protocol.readRequest m.body = .error fault)
    (decided : .decided t .submitted ∈ records) {payload : Bytes} {dest : Destination}
    {reached : Bool} (handed : .handed t payload dest reached ∈ records) :
    ∃ job, m.Asks route job ∧
      payload = route.protocol.writeReply (fault.response job.id) := by
  cases h with
  | ended job asks worked reached' reply fit =>
    have refusal : job.answer reply = some (fault.response job.id) := by
      rw [Job.answer, asks.request_eq, bad]
      rfl
    simp only [List.mem_append, List.mem_cons, List.cons_append, mem_taking, mem_invocation,
      mem_handing, mem_releasing, reduceCtorEq, Record.handed.injEq, true_and, and_false,
      exists_false, List.not_mem_nil, or_false, false_or, refusal, Option.some.injEq,
      exists_eq_left'] at handed
    exact ⟨job, asks, asks.protocol ▸ handed.1⟩
  | waiting job asks | begun job asks => simp [mem_taking, mem_invocation] at handed
  | _ => simp at decided

theorem identified (h : Course fits shut route i t m site records) :
    Identified route.protocol t m records where
  accepted := by
    intro id accepted
    obtain ⟨job, asks, rfl⟩ := h.asks_of_accepted accepted
    exact asks.identifies
  released := by
    intro id released
    obtain ⟨job, asks, rfl⟩ := h.asks_of_released released
    exact asks.identifies
  overloaded := by
    intro decided payload dest reached handed
    obtain ⟨job, asks, same⟩ := h.asks_of_overloaded decided handed
    exact ⟨job.id, asks.identifies, same⟩
  refused := by
    intro fault bad decided payload dest reached handed
    obtain ⟨job, asks, same⟩ := h.refused_under_id bad decided handed
    exact ⟨job.id, asks.identifies, same⟩
  malformed := by
    intro decided q invoked
    have request : q ∈ records.filterMap Record.request? :=
      List.mem_filterMap.mpr ⟨_, invoked, rfl⟩
    rcases h.requests_of with none | ⟨submitted, _⟩
    · rw [none] at request
      contradiction
    · exact nomatch h.decided_unique decided submitted
  handled := by
    intro q invoked
    obtain ⟨job, asks, request⟩ := h.asks_of_invoked invoked
    exact asks.handled request

end Course

namespace World

/-- The id of a request that is read from an object is peeked, and that of one read from a list is
not. So in every run, whatever is done under an id for the sake of a message is done under the id of
the request that the handler is given. -/
theorem ids_agree :
    (∀ (p : Protocol) (raw : Bytes) (q : Request), p.readRequest raw = .ok q →
      (Opens openObject raw ∧ p.peekId raw = .ok q.id) ∨
      (Opens openList raw ∧ ∃ fault, p.peekId raw = .error fault)) ∧
    (∀ (registry : Registry) (posts : List Post) (events : List Event),
      let w := (start registry posts).run events
      ∀ (t i : Nat) (m : Message) (d : Dispatcher), .received t i m ∈ w.history →
        w.dispatchers[i]? = some d → Identified d.route.protocol t m (w.trail t)) := by
  refine ⟨fun p raw q => Protocol.peekId_of_readRequest, ?_⟩
  intro registry posts events w t i m d received here
  have tidy : w.Tidy fun _ _ => True := tidy_run (tidy_start registry posts) events
    (allAnswer_of_forall (fun _ _ => trivial) events)
  obtain ⟨_, course⟩ := tidy.course_of_received received here
  exact course.identified

end World

end RequestBus
