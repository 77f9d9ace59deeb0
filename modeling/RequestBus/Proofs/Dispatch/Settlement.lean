import RequestBus.Proofs.Dispatch.Exits
import RequestBus.Proofs.Dispatch.Runs

/-! How deliveries are settled with the broker. Every delivery is settled once at most, and in the
way that its outcome stands for, but for one exception: a dispatcher whose workers are shut down
drops a delivery that it has already acknowledged. -/
namespace RequestBus

inductive Settlement where
  | acknowledged
  | rejected
  deriving DecidableEq

/-- The settlement that a record says was tried, whether it worked or not. -/
def Record.settlement? : Record → Option Settlement
  | .acknowledged _ _ => some .acknowledged
  | .rejected _ _ => some .rejected
  | _ => none

def Outcome.settlements : Outcome → List Settlement
  | .dropped => []
  | .rejected => [.rejected]
  | .malformed | .overloaded | .submitted => [.acknowledged]

def World.settlements (w : World) (t : Nat) : List Settlement :=
  (w.trail t).filterMap Record.settlement?

theorem settlements_invocation (job : Job) (t : Nat) :
    (job.invocation t).filterMap Record.settlement? = [] :=
  filterMap_invocation (fun _ => rfl) job

theorem settlements_handing (job : Job) (t : Nat) (reply : Option Response) (reached : Bool) :
    (job.handing t reply reached).filterMap Record.settlement? = [] :=
  filterMap_handing (fun _ _ _ => rfl) job reply reached

theorem settlements_releasing (protocol : Protocol) (t : Nat) (id : String) :
    (protocol.releasing t id).filterMap Record.settlement? = [] :=
  filterMap_releasing (fun _ => rfl) protocol id

section Courses
variable {fits : Request → Response → Prop} {shut : Prop} {route : ReplyRoute} {i t : Nat}
  {m : Message} {site : Site} {records : List Record}

theorem Course.settlements_le_one (h : Course fits shut route i t m site records) :
    (records.filterMap Record.settlement?).length ≤ 1 := by
  cases h with
  | waiting job asks worked | begun job asks worked | ended job asks worked reached reply fit =>
    cases protocol : job.protocol <;>
      simp [List.filterMap_cons, Record.settlement?, Protocol.taking, settlements_invocation,
        settlements_handing, settlements_releasing]
  | _ => simp [List.filterMap_cons, Record.settlement?]

theorem Course.settlements_decided (h : Course fits shut route i t m site records)
    (amqp : route.protocol = .amqp) {outcome : Outcome} (decided : .decided t outcome ∈ records) :
    (outcome = .dropped ∧ (∃ id, .accepted t id ∈ records) ∧ shut ∧
      records.filterMap Record.settlement? = [.acknowledged]) ∨
    (¬ (outcome = .dropped ∧ ∃ id, .accepted t id ∈ records) ∧
      records.filterMap Record.settlement? = outcome.settlements) := by
  cases h with
  | waiting job asks worked | begun job asks worked | ended job asks worked reached reply fit =>
    have protocol := asks.protocol.trans amqp
    have same : outcome = .submitted := by
      simpa [mem_taking, mem_invocation, mem_handing, mem_releasing] using decided
    subst same
    simp [List.filterMap_cons, Record.settlement?, Protocol.taking, settlements_invocation,
      settlements_handing, settlements_releasing, protocol, Outcome.settlements]
  | abandoned amqp job asks worked down =>
    have same : outcome = .dropped := by simpa using decided
    subst same
    exact .inl ⟨rfl, ⟨job.id, by simp⟩, down, rfl⟩
  | unnamed mqtt | noting mqtt | noted mqtt => simp [amqp] at mqtt
  | rejecting | refusing | accepting | answering => simp at decided
  | turnedAway | rejected | refused | answered =>
    simp only [List.mem_cons, Record.decided.injEq, true_and, reduceCtorEq, List.not_mem_nil,
      or_false] at decided
    subst decided
    simp [List.filterMap_cons, Record.settlement?, Outcome.settlements]

end Courses

namespace World

variable {w : World} {i t : Nat} {d : Dispatcher} {m : Message}

/-- The dispatcher accepts a message that its workers then do not take. -/
structure Abandons (w : World) (d : Dispatcher) (m : Message) : Prop where
  accepted : ∃ id, w.Accepts d m id
  free : d.pool.isSaturated = false
  down : d.pool.isShutDown = true

/-- Some records decide about a delivery, and settle it as the outcome says unless it was
abandoned. -/
structure Settles (t : Nat) (abandoned : Prop) (outcome : Outcome) (news : List Record) : Prop where
  decided : ∀ o, .decided t o ∈ news ↔ o = outcome
  kept : ¬ abandoned → news.filterMap Record.settlement? = outcome.settlements
  lost : abandoned → outcome = .dropped ∧ news.filterMap Record.settlement? = [.acknowledged]

theorem Settles.of_kept {t : Nat} {abandoned : Prop} {outcome : Outcome} {news : List Record}
    (decided : ∀ o, .decided t o ∈ news ↔ o = outcome)
    (settled : news.filterMap Record.settlement? = outcome.settlements) (not : ¬ abandoned) :
    Settles t abandoned outcome news :=
  ⟨decided, fun _ => settled, fun lost => absurd lost not⟩

theorem evictions_silent (victim : Option String) (t : Nat) :
    (∀ o, Record.decided t o ∉ victim.toList.map Record.evicted) ∧
      (victim.toList.map Record.evicted).filterMap Record.settlement? = [] := by
  cases victim <;> simp [Record.settlement?]

theorem settles_exit {worked : Bool} {outcome : Outcome} {news : List Record} {after : Registry}
    (exit : w.Exit i d m worked outcome news after) :
    Settles w.issued (w.Abandons d m) outcome news := by
  cases exit with
  | closing closing =>
    refine .of_kept (by simp) rfl fun lost => ?_
    obtain ⟨id, accepts⟩ := lost.accepted
    simp [accepts.opened] at closing
  | unanswerable nowhere =>
    refine .of_kept (by simp) rfl fun lost => ?_
    obtain ⟨id, accepts⟩ := lost.accepted
    have answerable := accepts.answerable
    simp [nowhere] at answerable
  | unnamed fault unreadable payload dest reached =>
    refine .of_kept (by simp) rfl fun lost => ?_
    obtain ⟨id, accepts⟩ := lost.accepted
    have readable := accepts.readable
    simp [unreadable] at readable
  | duplicate id readable seen =>
    refine .of_kept (by simp) rfl fun lost => ?_
    obtain ⟨other, accepts⟩ := lost.accepted
    have same := accepts.readable
    rw [readable] at same
    cases same
    simp [accepts.absent] at seen
  | overloaded id accepts full payload dest reached =>
    obtain ⟨silent, unsettled⟩ := evictions_silent (w.registry.evicted? id) w.issued
    refine .of_kept (by simp [silent]) ?_ fun lost => ?_
    · simp [List.filterMap_cons, Record.settlement?, unsettled, Outcome.settlements]
    · simp [lost.free] at full
  | abandoned id accepts free down =>
    obtain ⟨silent, unsettled⟩ := evictions_silent (w.registry.evicted? id) w.issued
    refine ⟨by simp [silent], fun kept => ?_, fun _ => ⟨rfl, ?_⟩⟩
    · exact absurd ⟨⟨id, accepts⟩, free, down⟩ kept
    · simp [List.filterMap_cons, Record.settlement?, unsettled]
  | submitted id accepts free running =>
    obtain ⟨silent, unsettled⟩ := evictions_silent (w.registry.evicted? id) w.issued
    refine .of_kept (by simp [silent]) ?_ fun lost => ?_
    · simp [List.filterMap_cons, Record.settlement?, unsettled, Outcome.settlements]
    · simp [lost.down] at running

theorem settles_dispatch (here : w.dispatchers[i]? = some d) (idle : d.call = none)
    {exchange : String} (route : d.route = .amqp exchange) (m : Message) (worked : Bool) :
    ∃ outcome news, (w.dispatch i m worked).history = news ++ w.history ∧
      Settles w.issued (w.Abandons d m) outcome news := by
  obtain ⟨outcome, news, _, exit, history, _⟩ := dispatch_exit here idle route m worked
  exact ⟨outcome, news, history, settles_exit exit⟩

theorem dropped_iff {fits : Request → Response → Prop} (tidy : Tidy fits w)
    (here : w.dispatchers[i]? = some d) {job : Job} (busy : d.call = some (.accepting t job))
    (worked : Bool) : .decided t .dropped ∈ (w.step (.resume i worked)).history ↔
      d.pool.isSaturated = false ∧ d.pool.isShutDown = true := by
  obtain ⟨m, course⟩ := tidy.placed i d here _ _ (Dispatcher.mem_sites_of_call busy)
  have undecided : .decided t .dropped ∉ w.history ∧ job.protocol = .amqp := by
    generalize trail : w.trail _ = records at course
    cases course with
    | accepting amqp _ asks =>
      refine ⟨fun member => ?_, asks.protocol.trans amqp⟩
      have there : Record.decided t .dropped ∈ w.trail t := mem_trail.mpr ⟨member, rfl⟩
      rw [show w.trail t = _ from trail] at there
      simp at there
  obtain ⟨undecided, amqp⟩ := undecided
  simp only [step_resume here, resume, busy]
  cases full : d.pool.isSaturated with
  | true => simp [record, put, undecided]
  | false =>
    cases down : d.pool.isShutDown with
    | true => simp [submit_refused down, amqp, record]
    | false => simp [submit_taken down full, record, put, undecided]

/-- Every delivery is settled once at most, and as its outcome says, whether the settlement worked
or not. The exception is a delivery that a dispatcher acknowledges and then drops, because its
workers are shut down. -/
theorem settled_by_outcome (registry : Registry) (posts : List Post) (events : List Event) :
    let w := (start registry posts).run events
    (∀ t, (w.settlements t).length ≤ 1) ∧
    (∀ (t i : Nat) (m : Message) (d : Dispatcher) (outcome : Outcome),
      .received t i m ∈ w.history → w.dispatchers[i]? = some d → d.route.protocol = .amqp →
      .decided t outcome ∈ w.history →
      (outcome = .dropped ∧ (∃ id, .accepted t id ∈ w.history) ∧ d.pool.isShutDown = true ∧
        w.settlements t = [.acknowledged]) ∨
      (¬ (outcome = .dropped ∧ ∃ id, .accepted t id ∈ w.history) ∧
        w.settlements t = outcome.settlements)) ∧
    (∀ (i t : Nat) (d : Dispatcher) (job : Job) (worked : Bool),
      w.dispatchers[i]? = some d → d.call = some (.accepting t job) →
      (.decided t .dropped ∈ (w.step (.resume i worked)).history ↔
        d.pool.isSaturated = false ∧ d.pool.isShutDown = true)) ∧
    (∀ (i : Nat) (d : Dispatcher) (exchange : String) (m : Message) (worked : Bool),
      w.dispatchers[i]? = some d → d.call = none → d.route = .amqp exchange →
      ∃ outcome news, (w.dispatch i m worked).history = news ++ w.history ∧
        Settles w.issued (w.Abandons d m) outcome news) := by
  intro w
  have tidy : w.Tidy fun _ _ => True := tidy_run (tidy_start registry posts) events
    (allAnswer_of_forall (fun _ _ => trivial) events)
  refine ⟨fun t => ?_, ?_, ?_, ?_⟩
  · by_cases early : t < w.issued
    · obtain ⟨i, d, s, m, _, _, course⟩ := tidy.located t early
      exact course.settlements_le_one
    · simp [settlements, tidy.fresh t (by omega)]
  · intro t i m d outcome received here amqp decided
    obtain ⟨s, course⟩ := tidy.course_of_received received here
    have there : .decided t outcome ∈ w.trail t := mem_trail.mpr ⟨decided, rfl⟩
    have accepted : (∃ id, .accepted t id ∈ w.trail t) ↔ ∃ id, .accepted t id ∈ w.history := by
      simp [mem_trail, Record.ticket?]
    have settled := course.settlements_decided amqp there
    rwa [accepted] at settled
  · intro i t d job worked here busy
    exact dropped_iff tidy here busy worked
  · intro i d exchange m worked here idle route
    exact settles_dispatch here idle route m worked

/-- Such a delivery is one that workers get once they are shut down. -/
theorem acknowledged_and_dropped :
    let m : Message := { body := Utf8.encode "\x7b\"id\":\"r\"\x7d", replyTo := some "q" }
    let w := (start (.ofCapacity 16) [⟨"a", .amqp "x", 1⟩]).run
      [.shutDown 0, .receive 0 m, .resume 0 true]
    .decided 0 .dropped ∈ w.history ∧ w.settlements 0 = [.acknowledged] := by
  decide +kernel

end World

end RequestBus
