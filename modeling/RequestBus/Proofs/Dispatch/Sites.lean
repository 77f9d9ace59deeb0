import RequestBus.Dispatch.World
import RequestBus.Proofs.Dispatch.Slots

/-! Where the deliveries of a dispatcher are. A delivery that has not come to its end is being
settled, is with a worker, or has its answer under way; every step moves at most one of them. -/
namespace RequestBus

def Call.ticket : Call → Nat
  | .rejecting ticket => ticket
  | .refusing ticket _ _ => ticket
  | .accepting ticket _ => ticket
  | .answering ticket _ => ticket

inductive Site where
  | settling (call : Call)
  | working (job : Job) (begun : Bool)
  | outgoing (reply : Response)
  | finished

def Site.entry (ticket : Nat) : Site → List (Nat × Site)
  | .finished => []
  | site => [(ticket, site)]

/-- The request id that a delivery at this site keeps in flight. -/
def Site.holds? : Site → Option String
  | .settling (.accepting _ job) => some job.id
  | .settling (.answering _ job) => some job.id
  | .working job _ => if job.protocol = .amqp then some job.id else none
  | _ => none

def Task.site (t : Task Job) : Nat × Site := (t.ticket, .working t.job (t.stage == .running))

def taskSites (tasks : List (Task Job)) : List (Nat × Site) := tasks.map Task.site

namespace Dispatcher

def callSites (d : Dispatcher) : List (Nat × Site) :=
  d.call.toList.map fun c => (c.ticket, .settling c)

def outboxSites (d : Dispatcher) : List (Nat × Site) :=
  d.outbox.map fun note => (note.1, .outgoing note.2)

/-- Every delivery that has not come to its end, and where it is. -/
def sites (d : Dispatcher) : List (Nat × Site) :=
  d.callSites ++ taskSites d.pool.tasks ++ d.outboxSites

def Distinct (d : Dispatcher) : Prop := (d.sites.map Prod.fst).Nodup

/-- The dispatcher becomes `after`, where one delivery is at the given site and every other one
where it was. -/
structure Moves (d after : Dispatcher) (ticket : Nat) (site : Site) : Prop where
  route : after.route = d.route
  capacity : after.pool.capacity = d.pool.capacity
  sites : after.sites.Perm (site.entry ticket ++ d.sites.filter fun e => e.1 != ticket)

end Dispatcher

theorem filter_ne_of_notMem {l : List (Nat × Site)} {ticket : Nat}
    (h : ticket ∉ l.map Prod.fst) : (l.filter fun e => e.1 != ticket) = l :=
  List.filter_eq_self.mpr fun _ he => bne_iff_ne.mpr fun same =>
    h (same ▸ List.mem_map_of_mem he)

theorem mem_entry {ticket t : Nat} {site s : Site} :
    (t, s) ∈ site.entry ticket ↔ t = ticket ∧ s = site ∧ site ≠ .finished := by
  cases site <;> simp [Site.entry]

theorem taskSites_fst (tasks : List (Task Job)) :
    (taskSites tasks).map Prod.fst = tasks.map Task.ticket := by
  simp [taskSites, Task.site, Function.comp_def]

theorem tickets_nodup {d : Dispatcher} (h : d.Distinct) : d.pool.tickets.Nodup := by
  rw [Dispatcher.Distinct, Dispatcher.sites, List.map_append, List.map_append] at h
  rw [Pool.tickets, ← taskSites_fst]
  exact (List.nodup_append.mp (List.nodup_append.mp h).1).2.1

namespace Dispatcher.Moves

variable {d after : Dispatcher} {ticket : Nat} {site : Site}

theorem mem_sites (h : d.Moves after ticket site) {t : Nat} {s : Site} :
    (t, s) ∈ after.sites ↔
      (t = ticket ∧ s = site ∧ site ≠ .finished) ∨ (t ≠ ticket ∧ (t, s) ∈ d.sites) := by
  rw [h.sites.mem_iff, List.mem_append, mem_entry, List.mem_filter, bne_iff_ne]
  exact or_congr Iff.rfl and_comm

theorem distinct (h : d.Moves after ticket site) (distinct : d.Distinct) : after.Distinct := by
  rw [Dispatcher.Distinct, (h.sites.map Prod.fst).nodup_iff, List.map_append, List.nodup_append]
  refine ⟨?_, distinct.sublist (List.filter_sublist.map _), ?_⟩
  · cases site <;> simp [Site.entry]
  · intro t ht u hu same
    obtain ⟨e, he, rfl⟩ := List.mem_map.mp ht
    obtain ⟨f, hf, rfl⟩ := List.mem_map.mp hu
    have at_ticket := (mem_entry.mp (show (e.1, e.2) ∈ site.entry ticket from he)).1
    have elsewhere : f.1 ≠ ticket := bne_iff_ne.mp (List.mem_filter.mp hf).2
    exact elsewhere (same ▸ at_ticket)

end Dispatcher.Moves

theorem filter_taskSites (tasks : List (Task Job)) (ticket : Nat) :
    ((taskSites tasks).filter fun e => e.1 != ticket) =
      taskSites (tasks.filter fun t => t.ticket != ticket) := by
  simp [taskSites, Task.site, List.filter_map, Function.comp_def]

namespace Dispatcher

variable {d : Dispatcher} {ticket : Nat}

def Attends (d : Dispatcher) (ticket : Nat) : Prop :=
  (d.sites.filter fun e => e.1 != ticket) = taskSites d.pool.tasks ++ d.outboxSites

theorem attends_fresh (idle : d.call = none) (fresh : ticket ∉ d.sites.map Prod.fst) :
    d.Attends ticket := by
  rw [Attends, filter_ne_of_notMem fresh]
  simp [sites, callSites, idle]

theorem attends_call {c : Call} (busy : d.call = some c) (distinct : d.Distinct) :
    d.Attends c.ticket := by
  have split : d.sites = (c.ticket, .settling c) :: (taskSites d.pool.tasks ++ d.outboxSites) := by
    simp [sites, callSites, busy]
  rw [Distinct, split, List.map_cons, List.nodup_cons] at distinct
  rw [Attends, split, List.filter_cons, if_neg (by simp), filter_ne_of_notMem distinct.1]

theorem mem_sites_of_call {c : Call} (busy : d.call = some c) :
    (c.ticket, .settling c) ∈ d.sites := by
  simp [sites, callSites, busy]

theorem mem_sites_of_task {t : Task Job} (member : t ∈ d.pool.tasks) :
    (t.ticket, .working t.job (t.stage == .running)) ∈ d.sites := by
  refine List.mem_append_left _ (List.mem_append_right _ ?_)
  exact List.mem_map_of_mem (f := Task.site) member

theorem mem_sites_of_note {reply : Response} (member : (ticket, reply) ∈ d.outbox) :
    (ticket, .outgoing reply) ∈ d.sites :=
  List.mem_append_right _ (List.mem_map_of_mem (f := fun note => (note.1, Site.outgoing note.2))
    member)

theorem moves_turnAway (fresh : ticket ∉ d.sites.map Prod.fst) : d.Moves d ticket .finished := by
  refine ⟨rfl, rfl, ?_⟩
  rw [filter_ne_of_notMem fresh]
  exact List.Perm.refl _

theorem moves_hangUp (attends : d.Attends ticket) :
    d.Moves { d with call := none } ticket .finished := by
  refine ⟨rfl, rfl, ?_⟩
  rw [attends]
  exact List.Perm.refl _

theorem moves_call (attends : d.Attends ticket) (c : Call) (same : c.ticket = ticket) :
    d.Moves { d with call := some c } ticket (.settling c) := by
  subst same
  refine ⟨rfl, rfl, ?_⟩
  rw [attends]
  exact List.Perm.refl _

theorem moves_submit (attends : d.Attends ticket) (job : Job) (free : Nat) :
    d.Moves { d with
      pool := { d.pool with tasks := d.pool.tasks ++ [⟨ticket, job, .granted⟩], free }
      call := none } ticket (.working job false) := by
  refine ⟨rfl, rfl, ?_⟩
  rw [attends]
  have tasks : taskSites (d.pool.tasks ++ [⟨ticket, job, .granted⟩]) =
      taskSites d.pool.tasks ++ [(ticket, .working job false)] := by
    simp [taskSites, Task.site]
  simp only [sites, callSites, outboxSites, tasks, Option.toList_none, List.map_nil,
    List.nil_append, Site.entry]
  exact (List.perm_append_comm).append_right _

theorem moves_note (attends : d.Attends ticket) (idle : d.call = none) (reply : Response) :
    d.Moves { d with outbox := d.outbox ++ [(ticket, reply)] } ticket (.outgoing reply) := by
  refine ⟨rfl, rfl, ?_⟩
  rw [attends]
  simp only [sites, callSites, outboxSites, idle, Option.toList_none, List.map_nil,
    List.nil_append, List.map_append, List.map_singleton, Site.entry, ← List.append_assoc]
  exact List.perm_append_comm

theorem filter_sites_of_task (distinct : d.Distinct) {t : Task Job} (member : t ∈ d.pool.tasks) :
    (d.sites.filter fun e => e.1 != t.ticket) =
      d.callSites ++ taskSites (d.pool.tasks.filter fun u => u.ticket != t.ticket) ++
        d.outboxSites := by
  rw [Distinct, sites, List.map_append, List.map_append, taskSites_fst] at distinct
  have here : t.ticket ∈ d.pool.tasks.map Task.ticket := List.mem_map_of_mem member
  obtain ⟨left, _, right⟩ := List.nodup_append.mp distinct
  have call : t.ticket ∉ d.callSites.map Prod.fst := fun there =>
    (List.nodup_append.mp left).2.2 _ there _ here rfl
  have outbox : t.ticket ∉ d.outboxSites.map Prod.fst := fun there =>
    right _ (List.mem_append_right _ here) _ there rfl
  rw [sites, List.filter_append, List.filter_append, filter_ne_of_notMem call,
    filter_ne_of_notMem outbox, filter_taskSites]

theorem moves_begin (distinct : d.Distinct) {t : Task Job} (member : t ∈ d.pool.tasks) :
    d.Moves { d with pool := d.pool.move t.ticket .running } t.ticket (.working t.job true) := by
  refine ⟨rfl, rfl, ?_⟩
  rw [filter_sites_of_task distinct member]
  have tasks : (taskSites (d.pool.move t.ticket .running).tasks).Perm
      ((t.ticket, .working t.job true) ::
        taskSites (d.pool.tasks.filter fun u => u.ticket != t.ticket)) := by
    exact (Pool.perm_move (tickets_nodup distinct) member .running).map Task.site
  simp only [sites, callSites, outboxSites, Site.entry, List.singleton_append]
  refine (((tasks.append_left _).append_right _).trans ?_)
  simp [List.append_assoc, List.perm_middle]

theorem moves_finish (distinct : d.Distinct) {t : Task Job} (member : t ∈ d.pool.tasks)
    (free : Nat) :
    d.Moves { d with pool := { d.pool with
      tasks := d.pool.tasks.filter fun u => u.ticket != t.ticket, free } } t.ticket .finished := by
  refine ⟨rfl, rfl, ?_⟩
  rw [filter_sites_of_task distinct member]
  exact List.Perm.refl _

theorem moves_send (distinct : d.Distinct) {reply : Response}
    (member : (ticket, reply) ∈ d.outbox) :
    d.Moves { d with outbox := d.outbox.filter fun note => note.1 != ticket } ticket .finished := by
  refine ⟨rfl, rfl, ?_⟩
  rw [Distinct, sites, List.map_append] at distinct
  have here : ticket ∈ d.outboxSites.map Prod.fst := by
    simp only [outboxSites, List.map_map]
    exact List.mem_map_of_mem (f := Prod.fst ∘ _) member
  have elsewhere : ticket ∉ (d.callSites ++ taskSites d.pool.tasks).map Prod.fst := fun there =>
    (List.nodup_append.mp distinct).2.2 _ there _ here rfl
  have others : (d.sites.filter fun e => e.1 != ticket) =
      d.callSites ++ taskSites d.pool.tasks ++ d.outboxSites.filter fun e => e.1 != ticket := by
    rw [sites, List.filter_append, filter_ne_of_notMem elsewhere]
  rw [others]
  simp [sites, callSites, outboxSites, Site.entry, List.filter_map, Function.comp_def]

end Dispatcher

end RequestBus
