import RequestBus.Proofs.Dispatch.Course
import RequestBus.Proofs.Dispatch.InFlight

/-! What a step does to a world. A step leaves everything as it is, tunes a dispatcher, or moves
one delivery; a delivery that moves may begin to keep its id in flight, or cease to. From this
follows that every delivery keeps to its course. -/
namespace RequestBus

theorem getElem?_set_eq_some {l : List α} {i j : Nat} {x e : α}
    (h : (l.set i x)[j]? = some e) : (j = i ∧ e = x) ∨ (j ≠ i ∧ l[j]? = some e) := by
  by_cases same : i = j
  · subst same
    rw [List.getElem?_set] at h
    simp only [if_true] at h
    split at h
    · exact .inl ⟨rfl, (Option.some.inj h).symm⟩
    · contradiction
  · rw [List.getElem?_set_ne same] at h
    exact .inr ⟨Ne.symm same, h⟩

def evictedIds (records : List Record) : List String :=
  records.filterMap fun
    | .evicted id => some id
    | _ => none

theorem evictedIds_of_concern {t : Nat} {records : List Record} (h : Concern t records) :
    evictedIds records = [] := by
  refine List.filterMap_eq_nil_iff.mpr fun r hr => ?_
  have about := h r hr
  cases r <;> first | rfl | contradiction

namespace World

/-- What a handler gives back is a reply that `fits` the request that it was given. -/
def Answers (fits : Request → Response → Prop) (w : World) : Event → Prop
  | .finish i ticket (some reply) => ∀ d t, w.dispatchers[i]? = some d →
      d.pool.task? ticket = some t → ∀ request, t.job.request = .ok request → fits request reply
  | _ => True

/-- The course of every delivery so far is the one of the place where it is. -/
structure Tidy (fits : Request → Response → Prop) (w : World) : Prop where
  fresh : ∀ t, w.issued ≤ t → w.trail t = []
  placed : ∀ (i : Nat) (d : Dispatcher), w.dispatchers[i]? = some d → ∀ t s, (t, s) ∈ d.sites →
    ∃ m, Course fits (d.pool.isShutDown = true) d.route i t m s (w.trail t)
  distinct : ∀ (i : Nat) (d : Dispatcher), w.dispatchers[i]? = some d → d.Distinct
  prompt : ∀ (i : Nat) (d : Dispatcher), w.dispatchers[i]? = some d → d.pool.Prompt
  located : ∀ t, t < w.issued → ∃ i d s m, w.dispatchers[i]? = some d ∧
    (s = .finished ∨ (t, s) ∈ d.sites) ∧
    Course fits (d.pool.isShutDown = true) d.route i t m s (w.trail t)

/-- The delivery `t` of the dispatcher `i` moves to a site, which leaves some records. -/
structure Moved (fits : Request → Response → Prop) (w after : World) (i : Nat)
    (d next : Dispatcher) (t : Nat) (site : Site) (news : List Record) : Prop where
  here : w.dispatchers[i]? = some d
  dispatchers : after.dispatchers = w.dispatchers.set i next
  moves : d.Moves next t site
  prompt : next.pool.Prompt
  stays : d.pool.isShutDown = true → next.pool.isShutDown = true
  issued : (t < w.issued ∧ after.issued = w.issued) ∨ (t = w.issued ∧ after.issued = w.issued + 1)
  history : after.history = news ++ w.history
  about : ∀ r ∈ news, ∀ u, r.ticket? = some u → u = t
  course : ∃ m, Course fits (next.pool.isShutDown = true) d.route i t m site
    (news.filter (fun r => r.ticket? == some t) ++ w.trail t)

/-- What a move means for the ids in flight. -/
inductive Effect (w after : World) (d : Dispatcher) (t : Nat) (site : Site) (news : List Record) :
    Prop
  | none (ids : after.registry.ids = w.registry.ids)
      (capacity : after.registry.capacity = w.registry.capacity)
      (holds : ∀ id, site.holds? = some id ↔ ∃ s, (t, s) ∈ d.sites ∧ s.holds? = some id)
      (evictions : evictedIds news = [])
  | accepted (id : String) (absent : w.registry.contains id = false)
      (registry : after.registry = (w.registry.accept id).2)
      (idle : d.call = Option.none)
      (fresh : t ∉ d.sites.map Prod.fst) (holds : site.holds? = some id)
      (evictions : evictedIds news = (w.registry.evicted? id).toList)
  | released (id : String) (held : ∃ s, (t, s) ∈ d.sites ∧ s.holds? = some id)
      (registry : after.registry = w.registry.release id) (rest : site.holds? = Option.none)
      (evictions : evictedIds news = [])

inductive Change (fits : Request → Response → Prop) (w : World) : World → Prop
  | still : Change fits w w
  | tuned (i : Nat) (d next : Dispatcher) (here : w.dispatchers[i]? = some d)
      (route : next.route = d.route) (capacity : next.pool.capacity = d.pool.capacity)
      (sites : next.sites = d.sites) (prompt : next.pool.Prompt)
      (stays : d.pool.isShutDown = true → next.pool.isShutDown = true) :
      Change fits w (w.put i next)
  | moved (after : World) (i : Nat) (d next : Dispatcher) (t : Nat) (site : Site)
      (news : List Record) (moved : Moved fits w after i d next t site news)
      (effect : Effect w after d t site news) : Change fits w after

section Keeping
variable {fits : Request → Response → Prop} {w after : World} {i t : Nat} {d next : Dispatcher}
  {site : Site} {news : List Record}

theorem Moved.trail_here (h : Moved fits w after i d next t site news) :
    after.trail t = news.filter (fun r => r.ticket? == some t) ++ w.trail t := by
  simp [trail, h.history]

theorem Moved.trail_other (h : Moved fits w after i d next t site news) {u : Nat} (other : u ≠ t) :
    after.trail u = w.trail u := by
  have nothing : (news.filter fun r => r.ticket? == some u) = [] := by
    refine List.filter_eq_nil_iff.mpr fun r hr about => other ?_
    exact h.about r hr u (by simpa using about)
  simp [trail, h.history, nothing]

theorem Moved.dispatcher (h : Moved fits w after i d next t site news) (j : Nat) (e : Dispatcher)
    (he : after.dispatchers[j]? = some e) :
    (j = i ∧ e = next) ∨ (j ≠ i ∧ w.dispatchers[j]? = some e) :=
  getElem?_set_eq_some (h.dispatchers ▸ he)

theorem Moved.dispatcher_here (h : Moved fits w after i d next t site news) :
    after.dispatchers[i]? = some next := by
  rw [h.dispatchers, List.getElem?_set_self (List.getElem?_eq_some_iff.mp h.here).1]

theorem Moved.dispatcher_other (h : Moved fits w after i d next t site news) {j : Nat}
    (other : j ≠ i) : after.dispatchers[j]? = w.dispatchers[j]? := by
  rw [h.dispatchers, List.getElem?_set_ne (Ne.symm other)]

theorem Moved.not_elsewhere (h : Moved fits w after i d next t site news) (tidy : Tidy fits w)
    {j : Nat} (other : j ≠ i) {e : Dispatcher} (he : w.dispatchers[j]? = some e) (s : Site) :
    (t, s) ∉ e.sites := by
  intro placed
  obtain ⟨m, course⟩ := h.course
  obtain ⟨m', course'⟩ := tidy.placed j e he t s placed
  have last := course.getLast?
  rw [List.getLast?_append, course'.getLast?] at last
  cases last
  exact other rfl

theorem tidy_moved (tidy : Tidy fits w) (h : Moved fits w after i d next t site news) :
    Tidy fits after := by
  constructor
  case fresh =>
    intro u hu
    have issued := h.issued
    rw [h.trail_other (by omega)]
    exact tidy.fresh u (by omega)
  case placed =>
    intro j e he u s placed
    rcases h.dispatcher j e he with ⟨rfl, rfl⟩ | ⟨other, he⟩
    -- only at the dispatcher that moves the delivery can it be, so the trails elsewhere stay
    · rw [h.moves.route]
      rcases h.moves.mem_sites.mp placed with ⟨rfl, rfl, _⟩ | ⟨different, placed⟩
      · rw [h.trail_here]
        exact h.course
      · obtain ⟨m, course⟩ := tidy.placed j d h.here u s placed
        rw [h.trail_other different]
        exact ⟨m, course.mono h.stays⟩
    · have different : u ≠ t := fun same => h.not_elsewhere tidy other he s (same ▸ placed)
      rw [h.trail_other different]
      exact tidy.placed j e he u s placed
  case distinct =>
    intro j e he
    rcases h.dispatcher j e he with ⟨rfl, rfl⟩ | ⟨_, he⟩
    · exact h.moves.distinct (tidy.distinct j d h.here)
    · exact tidy.distinct j e he
  case prompt =>
    intro j e he
    rcases h.dispatcher j e he with ⟨rfl, rfl⟩ | ⟨_, he⟩
    · exact h.prompt
    · exact tidy.prompt j e he
  case located =>
    intro u hu
    by_cases same : u = t
    · subst same
      obtain ⟨m, course⟩ := h.course
      refine ⟨i, next, site, m, h.dispatcher_here, ?_, ?_⟩
      · by_cases last : site = .finished
        · exact .inl last
        · exact .inr (h.moves.mem_sites.mpr (.inl ⟨rfl, rfl, last⟩))
      · rw [h.moves.route, h.trail_here]
        exact course
    · have issued := h.issued
      obtain ⟨j, e, s, m, he, placed, course⟩ := tidy.located u (by omega)
      rw [h.trail_other same]
      by_cases there : j = i
      · subst there
        cases (h.here.symm.trans he)
        refine ⟨j, next, s, m, h.dispatcher_here, ?_, h.moves.route ▸ course.mono h.stays⟩
        exact placed.imp id fun placed => h.moves.mem_sites.mpr (.inr ⟨same, placed⟩)
      · exact ⟨j, e, s, m, (h.dispatcher_other there).trans he, placed, course⟩

theorem tidy_tuned (tidy : Tidy fits w) (here : w.dispatchers[i]? = some d)
    (route : next.route = d.route) (sites : next.sites = d.sites) (prompt : next.pool.Prompt)
    (stays : d.pool.isShutDown = true → next.pool.isShutDown = true) :
    Tidy fits (w.put i next) := by
  have there := (List.getElem?_eq_some_iff.mp here).1
  constructor
  case fresh =>
    exact tidy.fresh
  case placed =>
    intro j e he u s placed
    rcases getElem?_set_eq_some he with ⟨rfl, rfl⟩ | ⟨_, he⟩
    · obtain ⟨m, course⟩ := tidy.placed j d here u s (sites ▸ placed)
      exact ⟨m, route ▸ course.mono stays⟩
    · exact tidy.placed j e he u s placed
  case distinct =>
    intro j e he
    rcases getElem?_set_eq_some he with ⟨rfl, rfl⟩ | ⟨_, he⟩
    · rw [Dispatcher.Distinct, sites]
      exact tidy.distinct j d here
    · exact tidy.distinct j e he
  case prompt =>
    intro j e he
    rcases getElem?_set_eq_some he with ⟨rfl, rfl⟩ | ⟨_, he⟩
    · exact prompt
    · exact tidy.prompt j e he
  case located =>
    intro u hu
    obtain ⟨j, e, s, m, he, placed, course⟩ := tidy.located u hu
    by_cases same : j = i
    · subst same
      cases here.symm.trans he
      exact ⟨j, next, s, m, List.getElem?_set_self there, sites ▸ placed,
        route ▸ course.mono stays⟩
    · exact ⟨j, e, s, m, (List.getElem?_set_ne (Ne.symm same)).trans he, placed, course⟩

theorem tidy_change (tidy : Tidy fits w) (change : Change fits w after) : Tidy fits after := by
  cases change with
  | still => exact tidy
  | tuned i d next here route _ sites prompt stays =>
    exact tidy_tuned tidy here route sites prompt stays
  | moved _ i d next t site news moved effect => exact tidy_moved tidy moved

theorem Tidy.lt_issued_of_mem (tidy : Tidy fits w) {r : Record} (happened : r ∈ w.trail t) :
    t < w.issued := by
  by_contra late
  rw [tidy.fresh t (by omega)] at happened
  contradiction

theorem Tidy.lt_issued (tidy : Tidy fits w) (here : w.dispatchers[i]? = some d) {s : Site}
    (placed : (t, s) ∈ d.sites) : t < w.issued := by
  obtain ⟨m, course⟩ := tidy.placed i d here t s placed
  by_contra late
  exact course.ne_nil (tidy.fresh t (by omega))

theorem Tidy.issued_notMem (tidy : Tidy fits w) (here : w.dispatchers[i]? = some d) :
    w.issued ∉ d.sites.map Prod.fst := by
  intro placed
  obtain ⟨⟨t, s⟩, placed, same⟩ := List.mem_map.mp placed
  have early := tidy.lt_issued here placed
  simp only at same
  omega

end Keeping

end World

end RequestBus
