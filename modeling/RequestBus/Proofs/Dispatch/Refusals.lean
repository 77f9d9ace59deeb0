import RequestBus.Proofs.Dispatch.Acceptance
import RequestBus.Proofs.Dispatch.Settlement

namespace RequestBus

theorem Registry.contains_release_accept {r : Registry} {id : String}
    (absent : r.contains id = false) (other : String) :
    ((r.accept id).2.release id).contains other = true ↔
      r.contains other = true ∧ r.evicted? id ≠ some other := by
  rw [contains_iff, contains_iff, ids_release, ids_accept_new absent, ids_makeRoom, List.mem_filter,
    List.mem_append, List.mem_filter]
  rw [contains_eq_false_iff] at absent
  by_cases same : other = id
  · subst same
    simp [absent]
  · simp [same]

theorem Registry.contains_accept_again {r : Registry} {id : String} (seen : r.contains id = true)
    (other : String) : (r.accept id).2.contains other = true ↔ r.contains other = true := by
  rw [contains_iff, contains_iff, ids_accept_again seen]

theorem Course.holds_of_decided {fits : Request → Response → Prop} {shut : Prop}
    {route : ReplyRoute} {i t : Nat} {m : Message} {site : Site} {records : List Record}
    (h : Course fits shut route i t m site records) {outcome : Outcome}
    (decided : .decided t outcome ∈ records) (refused : outcome ≠ .submitted) :
    site.holds? = none := by
  cases h with
  | waiting | begun =>
    simp [mem_taking, mem_invocation] at decided
    exact absurd decided refused
  | rejecting | refusing | accepting | answering => simp at decided
  | _ => rfl

namespace World

variable {w : World} {i : Nat} {d : Dispatcher} {m : Message}

/-- The id that gives way to the one of a message, in a registry that is full. -/
def givesWay? (w : World) (d : Dispatcher) (m : Message) : Option String :=
  if d.state.isShuttingDown ∨ (d.route.destination? m).isNone then none
  else
    match Protocol.amqp.peekId m.body with
    | .ok id => w.registry.evicted? id
    | .error _ => none

theorem givesWay?_of_accepts {id : String} (accepts : w.Accepts d m id) :
    w.givesWay? d m = w.registry.evicted? id := by
  have answerable := Option.isSome_iff_ne_none.mp accepts.answerable
  simp [givesWay?, accepts.opened, accepts.readable, answerable]

theorem full_of_givesWay? {victim : String} (h : w.givesWay? d m = some victim) :
    w.registry.capacity ≤ w.registry.size ∧
      (InFlight.oldest? w.registry.entries).map InFlight.id = some victim ∧
      w.registry.contains victim = true := by
  unfold givesWay? Registry.evicted? at h
  split at h
  · contradiction
  · split at h
    · split at h
      · contradiction
      · rename_i full
        obtain ⟨e, oldest, rfl⟩ := Option.map_eq_some_iff.mp h
        have member : e.id ∈ w.registry.ids := List.mem_map_of_mem (mem_of_oldest? oldest)
        exact ⟨Nat.not_lt.mp fun room => full (.inr room), h, (Registry.contains_iff _ _).mpr member⟩
    · contradiction

/-- What a decision about a message leaves of the ids in flight. -/
structure Leaves (w : World) (d : Dispatcher) (m : Message) (outcome : Outcome)
    (after : Registry) : Prop where
  kept : outcome = .rejected ∨ outcome = .malformed ∨ d.state.isShuttingDown = true →
    ∀ id, after.contains id = w.registry.contains id
  roomy : outcome ≠ .submitted → w.registry.size < w.registry.capacity →
    ∀ id, after.contains id = w.registry.contains id
  full : outcome = .overloaded ∨ (outcome = .dropped ∧ d.state.isShuttingDown = false) →
    w.registry.capacity ≤ w.registry.size → ∀ id, after.contains id = true ↔
      w.registry.contains id = true ∧
        (InFlight.oldest? w.registry.entries).map InFlight.id ≠ some id
  rest : outcome ≠ .submitted → ∀ id, after.contains id = true ↔
    w.registry.contains id = true ∧ w.givesWay? d m ≠ some id

theorem leaves_same {outcome : Outcome} {after : Registry}
    (same : ∀ id, after.contains id = w.registry.contains id) (none : w.givesWay? d m = none)
    (other : ¬ (outcome = .overloaded ∨ (outcome = .dropped ∧ d.state.isShuttingDown = false))) :
    w.Leaves d m outcome after where
  kept := fun _ => same
  roomy := fun _ _ => same
  full := fun accepted => absurd accepted other
  rest := fun _ id => by simp [same, none]

theorem leaves_accepted {id : String} {outcome : Outcome} (accepts : w.Accepts d m id)
    (either : outcome = .overloaded ∨ outcome = .dropped) :
    w.Leaves d m outcome ((w.registry.accept id).2.release id) := by
  have gives := givesWay?_of_accepts accepts
  have rest : ∀ other, ((w.registry.accept id).2.release id).contains other = true ↔
      w.registry.contains other = true ∧ w.givesWay? d m ≠ some other := by
    rw [gives]
    exact Registry.contains_release_accept accepts.absent
  constructor
  case kept =>
    intro unlike
    rcases either with rfl | rfl <;> simp [accepts.opened] at unlike
  case roomy =>
    intro _ room other
    rw [Bool.eq_iff_iff, rest, gives, Registry.evicted?_of_room id room]
    simp
  case full =>
    intro _ full other
    rw [rest, gives, Registry.evicted?_of_full accepts.absent full]
  case rest => exact fun _ => rest

theorem leaves_exit {worked : Bool} {outcome : Outcome} {news : List Record} {after : Registry}
    (exit : w.Exit i d m worked outcome news after) : w.Leaves d m outcome after := by
  cases exit with
  | closing closing =>
    exact leaves_same (fun _ => rfl) (by simp [givesWay?, closing]) (by simp [closing])
  | unanswerable nowhere =>
    exact leaves_same (fun _ => rfl) (by simp [givesWay?, nowhere]) (by simp)
  | unnamed fault unreadable payload dest reached =>
    exact leaves_same (fun _ => rfl) (by simp [givesWay?, unreadable]) (by simp)
  | duplicate id readable seen =>
    refine leaves_same (fun other => ?_) ?_ (by simp)
    · rw [Bool.eq_iff_iff, Registry.contains_accept_again seen]
    · simp [givesWay?, readable, Registry.evicted?, seen]
  | overloaded id accepts => exact leaves_accepted accepts (.inl rfl)
  | abandoned id accepts => exact leaves_accepted accepts (.inr rfl)
  | submitted id accepts free running =>
    constructor
    case kept =>
      intro unlike
      simp [accepts.opened] at unlike
    case full =>
      intro unlike
      simp at unlike
    case roomy | rest => exact fun taken => absurd rfl taken

/-- A delivery that no worker gets keeps no id in flight, whatever happens meanwhile. If nothing
does, the ids in flight are those of before, less the one with the least stamp if the delivery's own
id was accepted and the registry was full. -/
theorem in_flight_after_refusal (registry : Registry) (posts : List Post) (events : List Event) :
    let w := (start registry posts).run events
    (∀ (t : Nat) (outcome : Outcome) (id : String), .decided t outcome ∈ w.history →
      outcome ≠ .submitted → t ∉ w.unended id) ∧
    (∀ (i : Nat) (d : Dispatcher) (exchange : String) (m : Message) (worked : Bool),
      w.dispatchers[i]? = some d → d.call = none → d.route = .amqp exchange →
      ∃ outcome news, (w.dispatch i m worked).history = news ++ w.history ∧
        (∀ o, .decided w.issued o ∈ news ↔ o = outcome) ∧
        w.Leaves d m outcome (w.dispatch i m worked).registry) ∧
    (∀ (d : Dispatcher) (m : Message) (victim : String), w.givesWay? d m = some victim →
      w.registry.capacity ≤ w.registry.size ∧
        (InFlight.oldest? w.registry.entries).map InFlight.id = some victim ∧
        w.registry.contains victim = true) := by
  intro w
  have tidy : w.Tidy fun _ _ => True := tidy_run (tidy_start registry posts) events
    (allAnswer_of_forall (fun _ _ => trivial) events)
  refine ⟨?_, ?_, fun d m victim => full_of_givesWay?⟩
  · intro t outcome id decided refused unended
    have there : .decided t outcome ∈ w.trail t := mem_trail.mpr ⟨decided, rfl⟩
    obtain ⟨i, d, s, here, placed, holds⟩ := tidy.mem_unended_iff.mp unended
    obtain ⟨m, course⟩ := tidy.placed i d here t s placed
    rw [course.holds_of_decided there refused] at holds
    contradiction
  · intro i d exchange m worked here idle route
    obtain ⟨outcome, news, after, exit, history, rfl⟩ := dispatch_exit here idle route m worked
    exact ⟨outcome, news, history, (settles_exit exit).decided, leaves_exit exit⟩

/-- The first request is being handled when the second one makes the registry forget it. -/
theorem forgotten_for_refused :
    let message (id : String) : Message :=
      { body := Utf8.encode ("\x7b\"id\":\"" ++ id ++ "\"\x7d"), replyTo := some "q" }
    let w := (start (.ofCapacity 1) [⟨"a", .amqp "x", 1⟩]).run
      [.receive 0 (message "r"), .resume 0 true, .advance 0 0]
    let after := w.dispatch 0 (message "s") true
    .decided 1 .overloaded ∈ after.history ∧ w.registry.contains "r" = true ∧
      after.registry.contains "r" = false ∧ 0 ∈ after.unended "r" := by
  decide +kernel

end World

end RequestBus
