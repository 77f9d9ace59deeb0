import RequestBus.Proofs.Dispatch.Backpressure
import RequestBus.Proofs.Dispatch.Entries

namespace RequestBus

variable {id : String} {records : List Record}

def Standing (id : String) (records : List Record) : Prop :=
  ∃ newer t older, records = newer ++ .accepted t id :: older ∧
    .evicted id ∉ newer ∧ ∀ u, .released u id ∉ newer

def Cleared (id : String) (records : List Record) : Prop :=
  ∃ newer r older, records = newer ++ r :: older ∧
    (r = .evicted id ∨ ∃ u, r = .released u id) ∧ ∀ t, .accepted t id ∉ newer

theorem entry?_eq_some {r : Record} : r.entry? = some id ↔
    (∃ t, r = .accepted t id) ∨ r = .evicted id ∨ ∃ t, r = .released t id := by
  cases r <;> simp [Record.entry?]

theorem Standing.onward (standing : Standing id records) {more : List Record}
    (about : ∀ r ∈ more, r.entry? ≠ some id) : Standing id (more ++ records) := by
  obtain ⟨newer, t, older, rfl, present, held⟩ := standing
  refine ⟨more ++ newer, t, older, (List.append_assoc _ _ _).symm, ?_, fun u => ?_⟩
  · exact List.not_mem_append (fun member => about _ member rfl) present
  · exact List.not_mem_append (fun member => about _ member rfl) (held u)

theorem Standing.holder? (standing : Standing id records) (past : List Record) :
    ∃ t, RequestBus.holder? id (records ++ past) = some t := by
  obtain ⟨newer, t, older, rfl, present, held⟩ := standing
  rw [List.append_assoc, List.cons_append]
  induction newer with
  | nil => exact ⟨t, holder?_accepted t id _⟩
  | cons r newer ih =>
    rw [List.cons_append, holder?_cons]
    split
    · rename_i about
      rcases entry?_eq_some.mp about with ⟨u, rfl⟩ | rfl | ⟨u, rfl⟩
      · exact ⟨u, rfl⟩
      · exact absurd List.mem_cons_self present
      · exact absurd List.mem_cons_self (held u)
    · exact ih (fun h => present (List.mem_cons_of_mem _ h))
        fun u h => held u (List.mem_cons_of_mem _ h)

theorem Cleared.holder? (cleared : Cleared id records) (past : List Record) :
    RequestBus.holder? id (records ++ past) = none := by
  obtain ⟨newer, r, older, rfl, gone, absent⟩ := cleared
  rw [List.append_assoc, List.cons_append]
  induction newer with
  | nil =>
    rw [List.nil_append, holder?_cons, if_pos (entry?_eq_some.mpr (.inr gone))]
    rcases gone with rfl | ⟨u, rfl⟩ <;> rfl
  | cons s newer ih =>
    rw [List.cons_append, holder?_cons]
    split
    · rename_i about
      rcases entry?_eq_some.mp about with ⟨u, rfl⟩ | rfl | ⟨u, rfl⟩
      · exact absurd List.mem_cons_self (absent u)
      · rfl
      · rfl
    · exact ih fun t h => absent t (List.mem_cons_of_mem _ h)

/-- Records that would have led to what a registry remembers. -/
def Registry.past (r : Registry) : List Record := r.ids.map (.accepted 0)

theorem ledger_past (r : Registry) : ledger r.past = r.past := by
  refine List.filter_eq_self.mpr fun record member => ?_
  obtain ⟨id, _, rfl⟩ := List.mem_map.mp member
  rfl

theorem booked_past (r : Registry) : Booked (r, r.past) := by
  intro id
  unfold Registry.past
  induction r.ids with
  | nil => exact iff_of_false List.not_mem_nil (nofun : ¬ ∃ t, none = some t)
  | cons other ids ih =>
    rw [List.mem_cons, List.map_cons, holder?_cons, ih]
    by_cases same : id = other
    · subst same
      simp [Record.entry?, Record.accepts?]
    · simp [Record.entry?, same, Ne.symm same]

theorem Upkeep.onto {before after : Registry × List Record} (step : Upkeep before after)
    (past : List Record) : Upkeep (before.1, before.2 ++ past) (after.1, after.2 ++ past) := by
  cases step with
  | still => exact .still _
  | seen r l id present => exact .seen r _ id present
  | accepted r l t id absent =>
    have step := Upkeep.accepted r (l ++ past) t id absent
    rwa [← List.append_assoc] at step
  | released r l t id => exact .released r _ t id

namespace World

variable {w : World} {past : List Record}

theorem booked_run (booked : Booked (w.registry, ledger w.history ++ past))
    (events : List Event) :
    Booked ((w.run events).registry, ledger (w.run events).history ++ past) := by
  induction events generalizing w with
  | nil => exact booked
  | cons e events ih => exact ih (booked_upkeep booked ((upkeep_step w e).onto past))

theorem contains_of_history (registry : Registry) (dispatchers : List Dispatcher)
    (events : List Event) :
    let w := (ofDispatchers registry dispatchers).run events
    (Standing id w.history → w.registry.contains id = true) ∧
      (Cleared id w.history → w.registry.contains id = false) := by
  intro w
  have booked : Booked (w.registry, ledger w.history ++ registry.past) :=
    booked_run (booked_past registry) events
  have known := booked id
  simp only at known
  rw [← ledger_past, ← ledger_append, holder?_ledger] at known
  rw [Registry.contains_iff, Registry.contains_eq_false_iff, known]
  refine ⟨fun standing => standing.holder? _, fun cleared => ?_⟩
  rw [cleared.holder?]
  exact nofun

end World

structure Dispatcher.Takes (d : Dispatcher) (m : Message) (id : String) : Prop where
  idle : d.call = none
  opened : d.state.isShuttingDown = false
  answerable : (d.route.destination? m).isSome = true
  readable : Protocol.amqp.peekId m.body = .ok id

namespace World

variable {w : World} {i : Nat} {d : Dispatcher} {m : Message}

theorem dispatch_taken (here : w.dispatchers[i]? = some d) (amqp : d.route.protocol = .amqp)
    (takes : d.Takes m id) (worked : Bool) : ∃ outcome news after,
      w.Exit i d m worked outcome news after ∧
      (w.dispatch i m worked).history = news ++ w.history ∧
      (w.dispatch i m worked).registry = after := by
  obtain ⟨exchange, route⟩ : ∃ exchange, d.route = .amqp exchange := by
    cases route : d.route with
    | amqp exchange => exact ⟨exchange, rfl⟩
    | mqtt topic => simp [route, ReplyRoute.protocol] at amqp
  exact dispatch_exit here takes.idle route m worked

theorem dispatch_duplicate (here : w.dispatchers[i]? = some d)
    (amqp : d.route.protocol = .amqp) (takes : d.Takes m id)
    (known : w.registry.contains id = true) (worked : Bool) :
    (w.dispatch i m worked).history = [.decided w.issued .rejected,
        .rejected w.issued worked, .received w.issued i m] ++ w.history ∧
      (w.dispatch i m worked).registry.ids = w.registry.ids := by
  obtain ⟨_, _, _, exit, history, registry⟩ := dispatch_taken here amqp takes worked
  rw [history, registry]
  have readable := takes.readable
  cases exit with
  | closing closing => simp [takes.opened] at closing
  | unanswerable nowhere => exact absurd takes.answerable (by simp [nowhere])
  | unnamed fault unreadable => simp [readable] at unreadable
  | duplicate other read seen => exact ⟨rfl, Registry.ids_accept_again seen⟩
  | overloaded other accepts | abandoned other accepts | submitted other accepts =>
    obtain rfl : other = id := Except.ok.inj (accepts.readable.symm.trans readable)
    simp [accepts.absent] at known

theorem dispatch_new (here : w.dispatchers[i]? = some d) (amqp : d.route.protocol = .amqp)
    (takes : d.Takes m id) (unknown : w.registry.contains id = false) (worked : Bool) :
    .accepted w.issued id ∈ (w.dispatch i m worked).history := by
  obtain ⟨_, _, _, exit, history, _⟩ := dispatch_taken here amqp takes worked
  rw [history]
  have readable := takes.readable
  cases exit with
  | closing closing => simp [takes.opened] at closing
  | unanswerable nowhere => exact absurd takes.answerable (by simp [nowhere])
  | unnamed fault unreadable => simp [readable] at unreadable
  | duplicate other read seen =>
    obtain rfl : other = id := Except.ok.inj (read.symm.trans readable)
    simp [unknown] at seen
  | overloaded other accepts | abandoned other accepts | submitted other accepts =>
    obtain rfl : other = id := Except.ok.inj (accepts.readable.symm.trans readable)
    simp

end World

end RequestBus
