import RequestBus.Proofs.Dispatch.Runs

/-! Acceptances that have not ended. A delivery keeps its id in flight from its acceptance to its
release, and the registry remembers the id all the while, unless it evicts it. So an id is in
flight more than once only after an eviction, and a registry that has room for every delivery that
can be in flight evicts nothing. -/
namespace RequestBus

theorem Course.holds_iff {fits : Request → Response → Prop} {shut : Prop} {route : ReplyRoute}
    {i t : Nat} {m : Message} {site : Site} {records : List Record}
    (h : Course fits shut route i t m site records) (id : String) :
    site.holds? = some id ↔ .accepted t id ∈ records ∧ .released t id ∉ records := by
  cases h with
  | waiting job asks worked | begun job asks worked | ended job asks worked reached reply fit =>
    simp [Site.holds?, mem_taking, mem_invocation, mem_handing, mem_releasing, eq_comm]
  | _ => simp [Site.holds?, eq_comm]

theorem Course.amqp_of_holds {fits : Request → Response → Prop} {shut : Prop} {route : ReplyRoute}
    {i t : Nat} {m : Message} {site : Site} {records : List Record}
    (h : Course fits shut route i t m site records) {id : String} (holds : site.holds? = some id) :
    route.protocol = .amqp := by
  cases h with
  | accepting amqp | answering amqp => exact amqp
  | waiting job asks worked | begun job asks worked =>
    simp only [Site.holds?, Option.ite_none_right_eq_some] at holds
    exact asks.protocol.symm.trans holds.1
  | _ => contradiction

theorem count_evictedIds (records : List Record) (id : String) :
    (evictedIds records).count id = records.count (.evicted id) := by
  induction records with
  | nil => rfl
  | cons r records ih =>
    cases r <;> simp [evictedIds, List.count_cons] <;> exact ih

namespace World

def evictions (w : World) (id : String) : Nat := w.history.count (.evicted id)

/-- The deliveries for which an id was accepted and has not been released. -/
def unended (w : World) (id : String) : List Nat :=
  (List.range w.issued).filter fun t =>
    .accepted t id ∈ w.history ∧ .released t id ∉ w.history

section Unended
variable {fits : Request → Response → Prop} {w after : World} {i t u : Nat} {d next : Dispatcher}
  {site : Site} {news : List Record} {id : String}

theorem mem_unended : t ∈ w.unended id ↔
    t < w.issued ∧ .accepted t id ∈ w.trail t ∧ .released t id ∉ w.trail t := by
  simp [unended, mem_trail, Record.ticket?]

theorem nodup_unended (w : World) (id : String) : (w.unended id).Nodup :=
  List.nodup_range.filter _

theorem Tidy.mem_unended_iff (tidy : Tidy fits w) : t ∈ w.unended id ↔
    ∃ (i : Nat) (d : Dispatcher) (s : Site), w.dispatchers[i]? = some d ∧ (t, s) ∈ d.sites ∧
      s.holds? = some id := by
  rw [mem_unended]
  constructor
  · rintro ⟨early, accepted⟩
    obtain ⟨i, d, s, m, here, placed, course⟩ := tidy.located t early
    have holds := (course.holds_iff id).mpr accepted
    rcases placed with rfl | placed
    · contradiction
    · exact ⟨i, d, s, here, placed, holds⟩
  · rintro ⟨i, d, s, here, placed, holds⟩
    obtain ⟨m, course⟩ := tidy.placed i d here t s placed
    exact ⟨tidy.lt_issued here placed, (course.holds_iff id).mp holds⟩

theorem Moved.mem_unended (h : Moved fits w after i d next t site news) : u ∈ after.unended id ↔
    (u = t ∧ site.holds? = some id) ∨ (u ≠ t ∧ u ∈ w.unended id) := by
  have issued := h.issued
  by_cases same : u = t
  · subst same
    obtain ⟨m, course⟩ := h.course
    rw [World.mem_unended, h.trail_here, ← course.holds_iff id]
    have early : u < after.issued := by omega
    simp [early]
  · have early : u < after.issued ↔ u < w.issued := by omega
    simp [World.mem_unended, h.trail_other same, early, same]

theorem Moved.mem_unended_before (h : Moved fits w after i d next t site news)
    (tidy : Tidy fits w) :
    t ∈ w.unended id ↔ ∃ s, (t, s) ∈ d.sites ∧ s.holds? = some id := by
  rw [tidy.mem_unended_iff]
  constructor
  · rintro ⟨j, e, s, he, placed, holds⟩
    by_cases same : j = i
    · subst same
      cases h.here.symm.trans he
      exact ⟨s, placed, holds⟩
    · exact absurd placed (h.not_elsewhere tidy same he s)
  · rintro ⟨s, placed, holds⟩
    exact ⟨i, d, s, h.here, placed, holds⟩

theorem length_unended_same (same : ∀ u, u ∈ after.unended id ↔ u ∈ w.unended id) :
    (after.unended id).length = (w.unended id).length :=
  ((List.perm_ext_iff_of_nodup (nodup_unended _ _) (nodup_unended _ _)).mpr same).length_eq

theorem length_unended_more (fresh : t ∉ w.unended id)
    (more : ∀ u, u ∈ after.unended id ↔ u = t ∨ u ∈ w.unended id) :
    (after.unended id).length = (w.unended id).length + 1 := by
  have perm : (after.unended id).Perm (t :: w.unended id) :=
    (List.perm_ext_iff_of_nodup (nodup_unended _ _)
      (List.nodup_cons.mpr ⟨fresh, nodup_unended _ _⟩)).mpr (by simpa using more)
  simpa using perm.length_eq

structure Linked (w : World) : Prop where
  nodup : w.registry.ids.Nodup
  held : ∀ id ∈ w.registry.ids, ∃ t, t ∈ w.unended id
  bound : ∀ id, (w.unended id).length ≤ w.registry.ids.count id + w.evictions id

theorem linked_start (capacity : Nat) (posts : List Post) :
    (start (.ofCapacity capacity) posts).Linked :=
  ⟨List.nodup_nil, by simp [start, ofDispatchers, Registry.ofCapacity, Registry.ids],
    fun _ => Nat.zero_le _⟩

theorem evictions_moved (h : Moved fits w after i d next t site news) (id : String) :
    after.evictions id = (evictedIds news).count id + w.evictions id := by
  rw [evictions, evictions, h.history, List.count_append, count_evictedIds]

theorem count_makeRoom {r : Registry} (nodup : r.ids.Nodup) (id other : String) :
    r.ids.count other ≤ (r.makeRoom id).ids.count other + (r.evicted? id).toList.count other := by
  rw [Registry.ids_makeRoom]
  by_cases evicted : r.evicted? id = some other
  · have once := List.nodup_iff_count_le_one.mp nodup other
    simp only [evicted, Option.toList_some, List.count_singleton_self]
    omega
  · rw [List.count_filter (by simpa using evicted)]
    omega

theorem linked_onward (tidy : Tidy fits w) (linked : w.Linked)
    (h : Moved fits w after i d next t site news) (ids : after.registry.ids = w.registry.ids)
    (holds : ∀ id, site.holds? = some id ↔ ∃ s, (t, s) ∈ d.sites ∧ s.holds? = some id)
    (evictions : evictedIds news = []) : after.Linked := by
  have same : ∀ id u, u ∈ after.unended id ↔ u ∈ w.unended id := by
    intro id u
    rw [h.mem_unended, holds id, ← h.mem_unended_before tidy]
    by_cases same : u = t <;> simp [same]
  refine ⟨ids ▸ linked.nodup, fun id member => ?_, fun id => ?_⟩
  · obtain ⟨u, hu⟩ := linked.held id (ids ▸ member)
    exact ⟨u, (same id u).mpr hu⟩
  · rw [length_unended_same (same id), ids, evictions_moved h, evictions]
    have bound := linked.bound id
    simpa using bound

theorem linked_accepted (tidy : Tidy fits w) (linked : w.Linked)
    (h : Moved fits w after i d next t site news) (absent : w.registry.contains id = false)
    (registry : after.registry = (w.registry.accept id).2) (fresh : t ∉ d.sites.map Prod.fst)
    (holds : site.holds? = some id)
    (evictions : evictedIds news = (w.registry.evicted? id).toList) : after.Linked := by
  have before : ∀ other, t ∉ w.unended other := by
    intro other member
    obtain ⟨s, placed, _⟩ := (h.mem_unended_before tidy).mp member
    exact fresh (List.mem_map_of_mem placed)
  have here : ∀ u, u ∈ after.unended id ↔ u = t ∨ u ∈ w.unended id := by
    intro u
    rw [h.mem_unended]
    by_cases same : u = t <;> simp [same, holds]
  have others : ∀ other, other ≠ id → ∀ u, u ∈ after.unended other ↔ u ∈ w.unended other := by
    intro other different u
    rw [h.mem_unended]
    by_cases same : u = t
    · simp [same, holds, before, Ne.symm different]
    · simp [same]
  have ids := Registry.ids_accept_new absent
  rw [← registry] at ids
  refine ⟨registry ▸ Registry.nodup_accept linked.nodup id, fun other member => ?_,
    fun other => ?_⟩
  · by_cases different : other = id
    · subst different
      exact ⟨t, (here t).mpr (.inl rfl)⟩
    · rw [ids, Registry.ids_makeRoom, List.mem_append, List.mem_filter] at member
      rcases member with ⟨member, _⟩ | member
      · obtain ⟨u, hu⟩ := linked.held other member
        exact ⟨u, (others other different u).mpr hu⟩
      · exact absurd (List.mem_singleton.mp member) different
  -- one acceptance more of `id` is made up for by its place in the registry; what another id
  -- loses there it gains among the evictions
  · have bound := linked.bound other
    have room := count_makeRoom linked.nodup id other
    rw [evictions_moved h, evictions, ids, List.count_append]
    by_cases different : other = id
    · subst different
      have length := length_unended_more (before other) here
      have none := List.count_eq_zero.mpr ((Registry.contains_eq_false_iff _ _).mp absent)
      simp only [List.count_singleton_self]
      omega
    · rw [length_unended_same (others other different)]
      omega

theorem linked_released (tidy : Tidy fits w) (linked : w.Linked)
    (h : Moved fits w after i d next t site news)
    (held : ∃ s, (t, s) ∈ d.sites ∧ s.holds? = some id)
    (registry : after.registry = w.registry.release id) (rest : site.holds? = none)
    (evictions : evictedIds news = []) : after.Linked := by
  have left : ∀ other u, u ∈ after.unended other ↔ u ≠ t ∧ u ∈ w.unended other := by
    intro other u
    simp [h.mem_unended, rest]
  have others : ∀ other, other ≠ id → ∀ u, u ∈ after.unended other ↔ u ∈ w.unended other := by
    intro other different u
    rw [left]
    refine and_iff_right_of_imp fun hu same => different ?_
    subst same
    obtain ⟨s, hs, one⟩ := (h.mem_unended_before tidy).mp hu
    obtain ⟨s', hs', two⟩ := held
    rw [tidy.site_unique h.here hs hs'] at one
    exact Option.some.inj (one.symm.trans two)
  have ids : after.registry.ids = w.registry.ids.filter fun other => other != id := by
    rw [registry, Registry.ids_release]
  refine ⟨ids ▸ linked.nodup.filter _, fun other member => ?_, fun other => ?_⟩
  · rw [ids, List.mem_filter, bne_iff_ne] at member
    obtain ⟨u, hu⟩ := linked.held other member.1
    exact ⟨u, (others other member.2 u).mpr hu⟩
  · have bound := linked.bound other
    rw [evictions_moved h, evictions, ids, List.count_nil, Nat.zero_add]
    by_cases different : other = id
    · subst different
      have before : t ∈ w.unended other := (h.mem_unended_before tidy).mpr held
      have length : (w.unended other).length = (after.unended other).length + 1 := by
        refine length_unended_more (fun hu => ((left other t).mp hu).1 rfl) fun u => ?_
        rw [left]
        by_cases same : u = t <;> simp [same, before]
      have once := List.nodup_iff_count_le_one.mp linked.nodup other
      omega
    · rwa [length_unended_same (others other different),
        List.count_filter (by simpa using different)]

theorem linked_change (tidy : Tidy fits w) (linked : w.Linked) (change : Change fits w after) :
    after.Linked := by
  cases change with
  | still => exact linked
  | tuned => exact ⟨linked.nodup, linked.held, linked.bound⟩
  | moved _ i d next t site news moved effect =>
    cases effect with
    | none ids _ holds evictions => exact linked_onward tidy linked moved ids holds evictions
    | accepted id absent registry idle fresh holds evictions =>
      exact linked_accepted tidy linked moved absent registry fresh holds evictions
    | released id held registry rest evictions =>
      exact linked_released tidy linked moved held registry rest evictions

end Unended

def InHand (w : World) (t : Nat) (id : String) : Prop :=
  ∃ d ∈ w.dispatchers,
    (∃ task ∈ d.pool.tasks, task.ticket = t ∧ task.job.protocol = .amqp ∧ task.job.id = id) ∨
    ∃ job, job.id = id ∧ (d.call = some (.accepting t job) ∨ d.call = some (.answering t job))

theorem holds_of_mem_sites {d : Dispatcher} {t : Nat} {id : String} :
    (∃ s, (t, s) ∈ d.sites ∧ s.holds? = some id) ↔
      (∃ task ∈ d.pool.tasks, task.ticket = t ∧ task.job.protocol = .amqp ∧ task.job.id = id) ∨
      ∃ job, job.id = id ∧
        (d.call = some (.accepting t job) ∨ d.call = some (.answering t job)) := by
  constructor
  · rintro ⟨s, placed, holds⟩
    rw [Dispatcher.sites, List.mem_append, List.mem_append] at placed
    rcases placed with (placed | placed) | placed
    · obtain ⟨c, busy, same⟩ := List.mem_map.mp placed
      rw [Option.mem_toList] at busy
      cases same
      cases c <;> first | contradiction | skip
      · exact .inr ⟨_, Option.some.inj holds, .inl busy⟩
      · exact .inr ⟨_, Option.some.inj holds, .inr busy⟩
    · obtain ⟨task, member, same⟩ := List.mem_map.mp placed
      cases same
      simp only [Site.holds?, Option.ite_none_right_eq_some] at holds
      exact .inl ⟨task, member, rfl, holds.1, Option.some.inj holds.2⟩
    · obtain ⟨note, _, same⟩ := List.mem_map.mp placed
      cases same
      contradiction
  · rintro (⟨task, member, rfl, amqp, rfl⟩ | ⟨job, rfl, busy | busy⟩)
    · exact ⟨_, Dispatcher.mem_sites_of_task member, by simp [Site.holds?, amqp]⟩
    · exact ⟨_, Dispatcher.mem_sites_of_call busy, rfl⟩
    · exact ⟨_, Dispatcher.mem_sites_of_call busy, rfl⟩

theorem Tidy.mem_unended_iff_inHand {fits : Request → Response → Prop} {w : World}
    (tidy : w.Tidy fits) {t : Nat} {id : String} : t ∈ w.unended id ↔ w.InHand t id := by
  rw [tidy.mem_unended_iff]
  constructor
  · rintro ⟨i, d, s, here, placed, holds⟩
    exact ⟨d, List.mem_of_getElem? here, holds_of_mem_sites.mp ⟨s, placed, holds⟩⟩
  · rintro ⟨d, member, held⟩
    obtain ⟨i, here⟩ := List.mem_iff_getElem?.mp member
    obtain ⟨s, placed, holds⟩ := holds_of_mem_sites.mpr held
    exact ⟨i, d, s, here, placed, holds⟩

theorem linked_run (capacity : Nat) (posts : List Post) (events : List Event) :
    ((start (.ofCapacity capacity) posts).run events).Tidy (fun _ _ => True) ∧
      ((start (.ofCapacity capacity) posts).run events).Linked :=
  run_induction Linked (fun _ _ tidy linked change => linked_change tidy linked change)
    (tidy_start _ posts) (linked_start capacity posts) events
    (allAnswer_of_forall (fun _ _ => trivial) events)

/-- The registry never leaks. An id that it remembers is in flight with a delivery that a worker
or a dispatcher has in hand, and where the id was never evicted it is remembered exactly as long
as there is one. Once no delivery is in hand the registry is empty. -/
theorem registry_never_leaks (capacity : Nat) (posts : List Post) (events : List Event) :
    let w := (start (.ofCapacity capacity) posts).run events
    (∀ t id, t ∈ w.unended id ↔ w.InHand t id) ∧
    (∀ id, w.registry.contains id = true → ∃ t, t ∈ w.unended id) ∧
    (∀ id, w.evictions id = 0 → (w.registry.contains id = true ↔ ∃ t, t ∈ w.unended id)) ∧
    ((∀ d ∈ w.dispatchers, d.route.protocol = .amqp → d.pool.tasks = [] ∧ d.call = none) →
      w.registry.isEmpty = true) := by
  intro w
  obtain ⟨tidy, linked⟩ : w.Tidy _ ∧ w.Linked := linked_run capacity posts events
  have held : ∀ id, w.registry.contains id = true → ∃ t, t ∈ w.unended id :=
    fun id seen => linked.held id ((Registry.contains_iff _ id).mp seen)
  refine ⟨fun t id => tidy.mem_unended_iff_inHand, held, ?_, ?_⟩
  · refine fun id never => ⟨held id, ?_⟩
    rintro ⟨t, member⟩
    have bound := linked.bound id
    have some := List.length_pos_of_mem member
    rw [Registry.contains_iff, ← List.one_le_count_iff]
    omega
  · intro quiet
    rw [Registry.isEmpty, List.isEmpty_iff]
    by_contra remembered
    obtain ⟨e, member⟩ := List.exists_mem_of_ne_nil _ remembered
    obtain ⟨t, unended⟩ := linked.held e.id (List.mem_map_of_mem member)
    obtain ⟨i, d, s, here, placed, holds⟩ := tidy.mem_unended_iff.mp unended
    obtain ⟨m, course⟩ := tidy.placed i d here t s placed
    obtain ⟨noTask, idle⟩ := quiet d (List.mem_of_getElem? here) (course.amqp_of_holds holds)
    have inHand := holds_of_mem_sites.mp ⟨s, placed, holds⟩
    simp [noTask, idle] at inHand

end World

end RequestBus
