import RequestBus.Proofs.Dispatch.Sites

/-! The course of a delivery. What has happened to a delivery so far depends on where it is now
and on nothing else: there is one list of records for every place that it can be at, and a few
for the ways in which it can have come to its end. -/
namespace RequestBus

def Record.ticket? : Record → Option Nat
  | .received t _ _ => some t
  | .accepted t _ => some t
  | .evicted _ => none
  | .acknowledged t _ => some t
  | .rejected t _ => some t
  | .decided t _ => some t
  | .invoked t _ => some t
  | .handed t _ _ _ => some t
  | .released t _ => some t
  | .ended t _ => some t

def World.trail (w : World) (ticket : Nat) : List Record :=
  w.history.filter fun r => r.ticket? == some ticket

theorem World.mem_trail {w : World} {ticket : Nat} {r : Record} :
    r ∈ w.trail ticket ↔ r ∈ w.history ∧ r.ticket? = some ticket := by
  simp [trail]

theorem World.trail_record {w : World} {ticket : Nat} {r : Record}
    (about : r.ticket? = some ticket) : (w.record r).trail ticket = r :: w.trail ticket :=
  List.filter_cons_of_pos (by simp [about])

structure Message.Asks (m : Message) (route : ReplyRoute) (job : Job) : Prop where
  protocol : job.protocol = route.protocol
  body : job.body = m.body
  id : route.protocol.peekId m.body = .ok job.id
  dest : route.destination? m = some job.dest

/-- What the settlement of a message leaves behind that a worker gets. -/
def Protocol.taking : Protocol → Nat → String → Bool → List Record
  | .amqp, t, id, worked => [.acknowledged t worked, .accepted t id]
  | .mqtt, _, _, _ => []

def Protocol.releasing : Protocol → Nat → String → List Record
  | .amqp, t, id => [.released t id]
  | .mqtt, _, _ => []

def Job.invocation (job : Job) (t : Nat) : List Record :=
  match job.request with
  | .ok request => [.invoked t request]
  | .error _ => []

def Job.handing (job : Job) (t : Nat) (reply : Option Response) (reached : Bool) : List Record :=
  match reply with
  | some reply => [.handed t (job.protocol.writeReply reply) job.dest reached]
  | none => []

theorem mem_taking {protocol : Protocol} {t : Nat} {id : String} {worked : Bool} {r : Record} :
    r ∈ protocol.taking t id worked ↔
      protocol = .amqp ∧ (r = .acknowledged t worked ∨ r = .accepted t id) := by
  cases protocol <;> simp [Protocol.taking]

theorem mem_releasing {protocol : Protocol} {t : Nat} {id : String} {r : Record} :
    r ∈ protocol.releasing t id ↔ protocol = .amqp ∧ r = .released t id := by
  cases protocol <;> simp [Protocol.releasing]

theorem mem_invocation {job : Job} {t : Nat} {r : Record} :
    r ∈ job.invocation t ↔ ∃ request, job.request = .ok request ∧ r = .invoked t request := by
  unfold Job.invocation
  split <;> simp [*]

theorem mem_handing {job : Job} {t : Nat} {reply : Option Response} {reached : Bool}
    {r : Record} : r ∈ job.handing t reply reached ↔ ∃ answer, reply = some answer ∧
      r = .handed t (job.protocol.writeReply answer) job.dest reached := by
  unfold Job.handing
  split <;> simp

theorem filterMap_invocation {f : Record → Option α} {t : Nat}
    (silent : ∀ request, f (.invoked t request) = none) (job : Job) :
    (job.invocation t).filterMap f = [] := by
  refine List.filterMap_eq_nil_iff.mpr fun r hr => ?_
  obtain ⟨request, _, rfl⟩ := mem_invocation.mp hr
  exact silent request

theorem filterMap_handing {f : Record → Option α} {t : Nat}
    (silent : ∀ payload dest reached, f (.handed t payload dest reached) = none) (job : Job)
    (reply : Option Response) (reached : Bool) :
    (job.handing t reply reached).filterMap f = [] := by
  refine List.filterMap_eq_nil_iff.mpr fun r hr => ?_
  obtain ⟨answer, _, rfl⟩ := mem_handing.mp hr
  exact silent _ _ _

theorem filterMap_releasing {f : Record → Option α} {t : Nat}
    (silent : ∀ id, f (.released t id) = none) (protocol : Protocol) (id : String) :
    (protocol.releasing t id).filterMap f = [] := by
  refine List.filterMap_eq_nil_iff.mpr fun r hr => ?_
  obtain ⟨_, rfl⟩ := mem_releasing.mp hr
  exact silent id

def Concern (t : Nat) (records : List Record) : Prop := ∀ r ∈ records, r.ticket? = some t

theorem concern_append {t : Nat} {first second : List Record} (one : Concern t first)
    (two : Concern t second) : Concern t (first ++ second) := fun r hr =>
  (List.mem_append.mp hr).elim (one r) (two r)

theorem concern_invocation (job : Job) (t : Nat) : Concern t (job.invocation t) := by
  intro r hr
  obtain ⟨request, _, rfl⟩ := mem_invocation.mp hr
  rfl

theorem concern_handing (job : Job) (t : Nat) (reply : Option Response) (reached : Bool) :
    Concern t (job.handing t reply reached) := by
  intro r hr
  obtain ⟨answer, _, rfl⟩ := mem_handing.mp hr
  rfl

theorem concern_releasing (protocol : Protocol) (t : Nat) (id : String) :
    Concern t (protocol.releasing t id) := by
  intro r hr
  obtain ⟨_, rfl⟩ := mem_releasing.mp hr
  rfl

theorem concern_ending (job : Job) (t : Nat) (crashed : Bool) (reply : Option Response)
    (reached : Bool) : Concern t (.ended t crashed ::
      job.protocol.releasing t job.id ++ job.handing t reply reached) := by
  refine concern_append (fun r hr => ?_) (concern_handing _ _ _ _)
  rcases List.mem_cons.mp hr with rfl | hr
  · rfl
  · exact concern_releasing _ _ _ r hr

theorem filter_of_concern {t : Nat} {records : List Record} (h : Concern t records) :
    (records.filter fun r => r.ticket? == some t) = records :=
  List.filter_eq_self.mpr fun r hr => by simp [h r hr]

/-- The records of a delivery `t` of the message `m` to the dispatcher `i`, the latest first, for
each place where it can be. A handler's reply is one that `fits` its request; a pool refuses a
job only if it is `shut`. -/
inductive Course (fits : Request → Response → Prop) (shut : Prop) (route : ReplyRoute) (i t : Nat)
    (m : Message) : Site → List Record → Prop
  | turnedAway : Course fits shut route i t m .finished [.decided t .dropped, .received t i m]
  | rejecting (amqp : route.protocol = .amqp) :
      Course fits shut route i t m (.settling (.rejecting t)) [.received t i m]
  | rejected (amqp : route.protocol = .amqp) (worked : Bool) :
      Course fits shut route i t m .finished
        [.decided t .rejected, .rejected t worked, .received t i m]
  | refusing (amqp : route.protocol = .amqp) (fault : Malformed) (dest : Destination)
      (unreadable : route.protocol.peekId m.body = .error fault)
      (isDest : route.destination? m = some dest) :
      Course fits shut route i t m (.settling (.refusing t (fault.response "") dest))
        [.received t i m]
  | refused (amqp : route.protocol = .amqp) (fault : Malformed) (dest : Destination)
      (unreadable : route.protocol.peekId m.body = .error fault)
      (isDest : route.destination? m = some dest) (worked reached : Bool) :
      Course fits shut route i t m .finished
        [.decided t .malformed,
          .handed t (route.protocol.writeReply (fault.response "")) dest reached,
          .acknowledged t worked, .received t i m]
  | accepting (amqp : route.protocol = .amqp) (job : Job) (asks : m.Asks route job) :
      Course fits shut route i t m (.settling (.accepting t job))
        [.accepted t job.id, .received t i m]
  | answering (amqp : route.protocol = .amqp) (job : Job) (asks : m.Asks route job)
      (worked : Bool) :
      Course fits shut route i t m (.settling (.answering t job))
        [.acknowledged t worked, .accepted t job.id, .received t i m]
  | answered (amqp : route.protocol = .amqp) (job : Job) (asks : m.Asks route job)
      (worked reached : Bool) :
      Course fits shut route i t m .finished
        [.decided t .overloaded, .released t job.id,
          .handed t (route.protocol.writeReply (Response.overloaded job.id)) job.dest reached,
          .acknowledged t worked, .accepted t job.id, .received t i m]
  | abandoned (amqp : route.protocol = .amqp) (job : Job) (asks : m.Asks route job)
      (worked : Bool) (down : shut) :
      Course fits shut route i t m .finished
        [.decided t .dropped, .released t job.id, .acknowledged t worked, .accepted t job.id,
          .received t i m]
  | waiting (job : Job) (asks : m.Asks route job) (worked : Bool) :
      Course fits shut route i t m (.working job false)
        (.decided t .submitted :: job.protocol.taking t job.id worked ++ [.received t i m])
  | begun (job : Job) (asks : m.Asks route job) (worked : Bool) :
      Course fits shut route i t m (.working job true)
        (job.invocation t ++ .decided t .submitted :: job.protocol.taking t job.id worked ++
          [.received t i m])
  | ended (job : Job) (asks : m.Asks route job) (worked reached : Bool) (reply : Option Response)
      (fit : ∀ request r, job.request = .ok request → reply = some r → fits request r) :
      Course fits shut route i t m .finished
        (.ended t (job.answer reply).isNone :: job.protocol.releasing t job.id ++
          job.handing t (job.answer reply) reached ++ job.invocation t ++
          .decided t .submitted :: job.protocol.taking t job.id worked ++ [.received t i m])
  | unnamed (mqtt : route.protocol = .mqtt) :
      Course fits shut route i t m .finished [.decided t .malformed, .received t i m]
  | noting (mqtt : route.protocol = .mqtt) (job : Job) (asks : m.Asks route job) :
      Course fits shut route i t m (.outgoing (Response.overloaded job.id))
        [.decided t .overloaded, .received t i m]
  | noted (mqtt : route.protocol = .mqtt) (job : Job) (asks : m.Asks route job) (reached : Bool) :
      Course fits shut route i t m .finished
        [.handed t (route.protocol.writeReply (Response.overloaded job.id)) job.dest reached,
          .decided t .overloaded, .received t i m]

namespace Course

variable {fits : Request → Response → Prop} {shut : Prop} {route : ReplyRoute} {i t : Nat}
  {m : Message} {site : Site} {records : List Record}

theorem mono {later : Prop} (stays : shut → later) (h : Course fits shut route i t m site records) :
    Course fits later route i t m site records := by
  cases h with
  | turnedAway => exact .turnedAway
  | rejecting amqp => exact .rejecting amqp
  | rejected amqp worked => exact .rejected amqp worked
  | refusing amqp fault dest unreadable isDest => exact .refusing amqp fault dest unreadable isDest
  | refused amqp fault dest unreadable isDest worked reached =>
    exact .refused amqp fault dest unreadable isDest worked reached
  | accepting amqp job asks => exact .accepting amqp job asks
  | answering amqp job asks worked => exact .answering amqp job asks worked
  | answered amqp job asks worked reached => exact .answered amqp job asks worked reached
  | abandoned amqp job asks worked down => exact .abandoned amqp job asks worked (stays down)
  | waiting job asks worked => exact .waiting job asks worked
  | begun job asks worked => exact .begun job asks worked
  | ended job asks worked reached reply fit => exact .ended job asks worked reached reply fit
  | unnamed mqtt => exact .unnamed mqtt
  | noting mqtt job asks => exact .noting mqtt job asks
  | noted mqtt job asks reached => exact .noted mqtt job asks reached

theorem getLast? (h : Course fits shut route i t m site records) :
    records.getLast? = some (.received t i m) := by
  cases h <;> simp [List.getLast?_append, List.getLast?_cons]

theorem received_unique (h : Course fits shut route i t m site records) {j : Nat} {n : Message}
    (received : .received t j n ∈ records) : i = j ∧ m = n := by
  cases h <;>
    simp_all [mem_taking, mem_invocation, mem_handing, mem_releasing]

theorem ne_nil (h : Course fits shut route i t m site records) : records ≠ [] := by
  intro empty
  have last := h.getLast?
  simp [empty] at last

end Course

end RequestBus
