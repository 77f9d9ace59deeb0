import Mathlib.Algebra.Order.BigOperators.Group.List
import Mathlib.Algebra.Order.Ring.Nat
import RequestBus.Proofs.Dispatch.Acceptance

/-! Room in the registry. A dispatcher has as many ids in flight as it has workers at most, and one
more while it is busy with a delivery. A registry with room for all of them never has to evict an
id, and then no two workers have requests of one id. -/
namespace RequestBus

def Dispatcher.heldIds (d : Dispatcher) : List String := d.sites.filterMap fun e => e.2.holds?

def Dispatcher.room (d : Dispatcher) : Nat :=
  if d.route.protocol = .amqp then d.pool.capacity + 1 else 0

theorem Dispatcher.length_heldIds_le (d : Dispatcher) :
    d.heldIds.length ≤ d.pool.tasks.length + d.call.toList.length := by
  have outbox : d.outboxSites.filterMap (fun e => e.2.holds?) = [] := by
    refine List.filterMap_eq_nil_iff.mpr fun e he => ?_
    obtain ⟨note, _, rfl⟩ := List.mem_map.mp he
    rfl
  have calls := List.length_filterMap_le (fun e : Nat × Site => e.2.holds?) d.callSites
  have tasks := List.length_filterMap_le (fun e : Nat × Site => e.2.holds?)
    (taskSites d.pool.tasks)
  simp only [callSites, taskSites, List.length_map] at calls tasks
  rw [heldIds, sites, List.filterMap_append, List.filterMap_append, outbox, List.append_nil,
    List.length_append, callSites, taskSites]
  omega

namespace World

def demand (w : World) : Nat := (w.dispatchers.map Dispatcher.room).sum

section Room
variable {fits : Request → Response → Prop} {w after : World} {i t : Nat} {d next : Dispatcher}

theorem demand_set (here : w.dispatchers[i]? = some d)
    (dispatchers : after.dispatchers = w.dispatchers.set i next) (route : next.route = d.route)
    (capacity : next.pool.capacity = d.pool.capacity) : after.demand = w.demand := by
  have same : next.room = d.room := by rw [Dispatcher.room, Dispatcher.room, route, capacity]
  have room : (w.dispatchers.map Dispatcher.room)[i]? = some next.room := by
    rw [List.getElem?_map, here, same]
    rfl
  rw [demand, demand, dispatchers, List.map_set, set_same room]

theorem demand_change (change : Change fits w after) :
    after.demand = w.demand ∧ after.registry.capacity = w.registry.capacity := by
  cases change with
  | still => exact ⟨rfl, rfl⟩
  | tuned i d next here route capacity => exact ⟨demand_set here rfl route capacity, rfl⟩
  | moved _ i d next t site news moved effect =>
    refine ⟨demand_set moved.here moved.dispatchers moved.moves.route moved.moves.capacity, ?_⟩
    cases effect with
    | none _ capacity => exact capacity
    | accepted id _ registry => rw [registry, Registry.capacity_accept]
    | released id _ registry => rw [registry, Registry.capacity_release]

theorem heldIds_of_not_amqp (tidy : w.Tidy fits) (here : w.dispatchers[i]? = some d)
    (other : d.route.protocol ≠ .amqp) : d.heldIds = [] := by
  refine List.filterMap_eq_nil_iff.mpr fun e placed => ?_
  obtain ⟨m, course⟩ := tidy.placed i d here e.1 e.2 placed
  cases holds : e.2.holds? with
  | none => rfl
  | some id => exact absurd (course.amqp_of_holds holds) other

theorem heldIds_le_room (tidy : w.Tidy fits) (here : w.dispatchers[i]? = some d) :
    d.heldIds.length ≤ d.room := by
  rw [Dispatcher.room]
  split
  · have held := d.length_heldIds_le
    have workers := Pool.length_le_capacity (tidy.prompt i d here)
    have one : d.call.toList.length ≤ 1 := by cases d.call <;> simp
    omega
  · rename_i other
    simp [heldIds_of_not_amqp tidy here other]

theorem heldIds_lt_room (tidy : w.Tidy fits) (here : w.dispatchers[i]? = some d)
    (amqp : d.route.protocol = .amqp) (idle : d.call = none) : d.heldIds.length < d.room := by
  have held := d.length_heldIds_le
  have workers := Pool.length_le_capacity (tidy.prompt i d here)
  simp only [idle, Option.toList_none, List.length_nil] at held
  rw [Dispatcher.room, if_pos amqp]
  omega

theorem size_lt_demand (tidy : w.Tidy fits) (linked : w.Linked)
    (here : w.dispatchers[i]? = some d) (amqp : d.route.protocol = .amqp) (idle : d.call = none) :
    w.registry.size < w.demand := by
  -- every remembered id is held by a dispatcher, and the idle one holds fewer than it could
  have held : w.registry.ids ⊆ w.dispatchers.flatMap Dispatcher.heldIds := by
    intro id member
    obtain ⟨t, unended⟩ := linked.held id member
    obtain ⟨j, e, s, there, placed, holds⟩ := tidy.mem_unended_iff.mp unended
    exact List.mem_flatMap.mpr ⟨e, List.mem_of_getElem? there,
      List.mem_filterMap.mpr ⟨(t, s), placed, holds⟩⟩
  calc w.registry.size
      = w.registry.ids.length := Registry.size_eq_length_ids _
    _ ≤ (w.dispatchers.flatMap Dispatcher.heldIds).length :=
        (List.subperm_of_subset linked.nodup held).length_le
    _ = (w.dispatchers.map fun d => d.heldIds.length).sum := by
        rw [List.length_flatMap]
    _ < w.demand := by
        refine List.sum_lt_sum _ _ (fun e member => ?_) ⟨d, List.mem_of_getElem? here, ?_⟩
        · obtain ⟨j, there⟩ := List.mem_iff_getElem?.mp member
          exact heldIds_le_room tidy there
        · exact heldIds_lt_room tidy here amqp idle

def Roomy (w : World) : Prop := w.demand ≤ w.registry.capacity → evictedIds w.history = []

theorem roomy_change (tidy : w.Tidy fits) (linked : w.Linked) (roomy : w.Roomy)
    (change : Change fits w after) : after.Roomy := by
  have stable := demand_change change
  intro room
  rw [stable.1, stable.2] at room
  have before := roomy room
  cases change with
  | still | tuned => exact before
  | moved _ i d next t site news moved effect =>
    rw [moved.history, evictedIds, List.filterMap_append]
    refine List.append_eq_nil_iff.mpr ⟨?_, before⟩
    cases effect with
    | none _ _ _ evictions => exact evictions
    | released _ _ _ _ evictions => exact evictions
    | accepted id absent registry idle fresh holds evictions =>
      obtain ⟨m, course⟩ := moved.course
      have size := size_lt_demand tidy linked moved.here (course.amqp_of_holds holds) idle
      have none := Registry.evicted?_of_room id (Nat.lt_of_lt_of_le size room)
      rw [none] at evictions
      exact evictions

theorem Tidy.task_unique (tidy : w.Tidy fits) {j : Nat} {e : Dispatcher}
    (here : w.dispatchers[i]? = some d) (there : w.dispatchers[j]? = some e) {s t : Task Job}
    (hs : s ∈ d.pool.tasks) (ht : t ∈ e.pool.tasks) (same : s.ticket = t.ticket) :
    i = j ∧ s = t := by
  obtain ⟨m, one⟩ := tidy.placed i d here _ _ (Dispatcher.mem_sites_of_task hs)
  obtain ⟨n, two⟩ := tidy.placed j e there _ _ (Dispatcher.mem_sites_of_task ht)
  have last := one.getLast?
  rw [same, two.getLast?] at last
  cases last
  cases here.symm.trans there
  exact ⟨rfl, List.inj_on_of_nodup_map (tickets_nodup (tidy.distinct _ _ here)) hs ht same⟩

end Room

/-- No id is in flight more than once but for its evictions. A registry that has room for one id
for every worker, and for one more of every dispatcher, evicts none, so no two workers of AMQP
dispatchers ever have requests of one id. -/
theorem in_flight_once (capacity : Nat) (posts : List Post) (events : List Event) :
    let w := (start (.ofCapacity capacity) posts).run events
    (∀ id, (w.unended id).length ≤ 1 + w.evictions id) ∧
    ((start (.ofCapacity capacity) posts).demand ≤ max capacity 1 →
      (∀ id, w.evictions id = 0) ∧
      (∀ id, (w.unended id).length ≤ 1) ∧
      ∀ (i j : Nat) (d e : Dispatcher) (s t : Task Job),
        w.dispatchers[i]? = some d → w.dispatchers[j]? = some e →
        s ∈ d.pool.tasks → t ∈ e.pool.tasks → s.job.protocol = .amqp → t.job.protocol = .amqp →
        s.job.id = t.job.id → i = j ∧ s = t) := by
  intro w
  obtain ⟨tidy, linked, roomy, demand, size⟩ : w.Tidy (fun _ _ => True) ∧ w.Linked ∧ w.Roomy ∧
      w.demand = (start (.ofCapacity capacity) posts).demand ∧
      w.registry.capacity = max capacity 1 := by
    refine run_induction (fun w => w.Linked ∧ w.Roomy ∧
        w.demand = (start (.ofCapacity capacity) posts).demand ∧
        w.registry.capacity = max capacity 1)
      (fun before after tidy inv change => ?_) (tidy_start _ posts)
      ⟨linked_start capacity posts, fun _ => rfl, rfl, rfl⟩ events
      (allAnswer_of_forall (fun _ _ => trivial) events)
    obtain ⟨linked, roomy, demand, size⟩ := inv
    have stable := demand_change change
    exact ⟨linked_change tidy linked change, roomy_change tidy linked roomy change,
      stable.1.trans demand, stable.2.trans size⟩
  have bounded : ∀ id, (w.unended id).length ≤ 1 + w.evictions id := by
    intro id
    have bound := linked.bound id
    have once := List.nodup_iff_count_le_one.mp linked.nodup id
    omega
  refine ⟨bounded, fun room => ?_⟩
  have never : ∀ id, w.evictions id = 0 := by
    intro id
    rw [evictions, ← count_evictedIds, roomy (by omega), List.count_nil]
  have single : ∀ id, (w.unended id).length ≤ 1 := fun id => by
    have bound := bounded id
    rwa [never id] at bound
  refine ⟨never, single, fun i j d e s t here there hs ht amqp amqp' same => ?_⟩
  have one : s.ticket ∈ w.unended s.job.id := tidy.mem_unended_iff_inHand.mpr
    ⟨d, List.mem_of_getElem? here, .inl ⟨s, hs, rfl, amqp, rfl⟩⟩
  have two : t.ticket ∈ w.unended s.job.id := tidy.mem_unended_iff_inHand.mpr
    ⟨e, List.mem_of_getElem? there, .inl ⟨t, ht, rfl, amqp', same.symm⟩⟩
  refine tidy.task_unique here there hs ht ?_
  obtain ⟨u, all⟩ := List.length_eq_one_iff.mp
    (Nat.le_antisymm (single s.job.id) (List.length_pos_of_mem one))
  rw [all, List.mem_singleton] at one two
  rw [one, two]

end World

end RequestBus
