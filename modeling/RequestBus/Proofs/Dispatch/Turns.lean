import RequestBus.Dispatch.Turns
import RequestBus.Proofs.Dispatch.Balance
import RequestBus.Proofs.Dispatch.Runs

namespace RequestBus

section

variable (turn : τ → σ → σ × List τ)

theorem takeTurns_keeps (Holds : List τ → σ → Prop)
    (keeps : ∀ t more s, Holds (t :: more) s → Holds (more ++ (turn t s).2) (turn t s).1)
    (fuel : Nat) (ready : List τ) (s : σ) (holds : Holds ready s) :
    Holds (takeTurns turn fuel ready s).2 (takeTurns turn fuel ready s).1 := by
  induction fuel generalizing ready s with
  | zero => exact holds
  | succ fuel ih =>
    cases ready with
    | nil => exact holds
    | cons t more => exact ih _ _ (keeps t more s holds)

/-- Nobody stays ready if a turn makes others ready only as something is used up of which `left`
tells how much there is. -/
theorem takeTurns_ready (left : σ → Nat)
    (falls : ∀ t s, (turn t s).2.length + left (turn t s).1 ≤ left s) (fuel : Nat)
    {ready : List τ} {s : σ} (enough : ready.length + left s ≤ fuel) :
    (takeTurns turn fuel ready s).2 = [] := by
  induction fuel generalizing ready s with
  | zero =>
    simp only [takeTurns]
    exact List.length_eq_zero_iff.mp (by omega)
  | succ fuel ih =>
    cases ready with
    | nil => rfl
    | cons t more =>
      -- the turn takes one off the fuel, and those it wakes come off what is left
      have falls := falls t s
      rw [List.length_cons] at enough
      refine ih ?_
      rw [List.length_append]
      omega

end

theorem foldl_add_add (f : α → Nat) (l : List α) (n k : Nat) :
    l.foldl (fun n a => n + f a) (n + k) = l.foldl (fun n a => n + f a) n + k := by
  induction l generalizing n with
  | nil => rfl
  | cons a l ih => rw [List.foldl_cons, List.foldl_cons, Nat.add_right_comm, ih]

theorem foldl_add_set (f : α → Nat) {l : List α} {i : Nat} {a : α} (here : l[i]? = some a) (b : α)
    (n : Nat) : (l.set i b).foldl (fun n a => n + f a) n + f a =
      l.foldl (fun n a => n + f a) n + f b := by
  induction l generalizing i n with
  | nil => contradiction
  | cons c l ih =>
    cases i with
    | zero =>
      cases here
      rw [List.set_cons_zero, List.foldl_cons, List.foldl_cons, foldl_add_add, foldl_add_add,
        Nat.add_right_comm]
    | succ i => exact ih here (n + f c)

namespace Pool

variable {p : Pool α} {ticket : Nat}

theorem length_tickets (p : Pool α) : p.tickets.length = p.tasks.length := List.length_map _

theorem length_advance (p : Pool α) (ticket : Nat) :
    (p.advance ticket).tasks.length = p.tasks.length := by
  rw [← length_tickets, tickets_advance, length_tickets]

theorem length_finish (runs : (p.task? ticket).map Task.stage = some .running) :
    (p.finish ticket).tasks.length < p.tasks.length := by
  obtain ⟨t, found, -⟩ := Option.map_eq_some_iff.mp runs
  obtain ⟨member, here⟩ := task?_spec found
  rw [finish, runs, ← length_tickets, tickets_giveBack, length_tickets]
  exact List.length_filter_lt_length_iff_exists.mpr ⟨t, member, by simp [here]⟩

end Pool

namespace World

variable {w : World} {i ticket : Nat} {d : Dispatcher}

theorem run_append (w : World) (first second : List Event) :
    w.run (first ++ second) = (w.run first).run second :=
  List.foldl_append

def workers (w : World) : Nat := w.dispatchers.foldl (fun n d => n + d.pool.tasks.length) 0

theorem workers_put (here : w.dispatchers[i]? = some d) (next : Dispatcher) :
    (w.put i next).workers + d.pool.tasks.length = w.workers + next.pool.tasks.length :=
  foldl_add_set (fun d => d.pool.tasks.length) here next 0

theorem workers_advance (w : World) (i ticket : Nat) :
    (w.step (.advance i ticket)).workers = w.workers := by
  refine visit_induction (motive := fun v => v.workers = w.workers) rfl fun d here => ?_
  have put : (w.put i { d with pool := d.pool.advance ticket }).workers = w.workers := by
    have put := workers_put here { d with pool := d.pool.advance ticket }
    rw [Pool.length_advance] at put
    omega
  unfold advance
  split
  · rfl
  · simp only
    split
    · split <;> exact put
    · exact put

theorem workers_send (w : World) (i ticket : Nat) :
    (w.step (.send i ticket)).workers = w.workers := by
  refine visit_induction (motive := fun v => v.workers = w.workers) rfl fun d here => ?_
  unfold send
  split
  · have put := workers_put here { d with
      outbox := d.outbox.filter fun note => note.1 != ticket }
    exact Nat.add_right_cancel put
  · rfl

theorem workers_finish (here : w.dispatchers[i]? = some d)
    (runs : (d.pool.task? ticket).map Task.stage = some .running) (reply : Option Response) :
    (w.step (.finish i ticket reply)).workers < w.workers := by
  have fewer := Pool.length_finish runs
  obtain ⟨⟨_, job, _⟩, found, rfl⟩ := Option.map_eq_some_iff.mp runs
  have put : (w.put i { d with pool := d.pool.finish ticket }).workers < w.workers := by
    have put := workers_put here { d with pool := d.pool.finish ticket }
    simp only at put
    omega
  simp only [step, visit, here, finish, found]
  cases job.answer reply <;> cases job.protocol <;> exact put

end World

namespace Workshop

variable {s next last : Workshop} {i ticket : Nat}

/-- The replies that a handler gives to a request, at once or after a call. -/
def Replies (handler : Request → Handling) (request : Request) (reply : Response) : Prop :=
  handler request = .answers reply ∨ handler request = .waits reply

/-- A workshop becomes another one by events in its world in which its handler is the one that
answers. -/
structure Leads (s next : Workshop) : Prop where
  handler : next.handler = s.handler
  run : ∃ events, s.world.AllAnswer (Replies s.handler) events ∧ next.world = s.world.run events

namespace Leads

theorem still (handler : next.handler = s.handler) (world : next.world = s.world) :
    s.Leads next := ⟨handler, [], trivial, world⟩

theorem step (e : Event) (answers : s.world.Answers (Replies s.handler) e) :
    s.Leads (s.step e) := ⟨rfl, [e], ⟨answers, trivial⟩, rfl⟩

theorem trans (first : s.Leads next) (second : next.Leads last) : s.Leads last := by
  obtain ⟨handler, events, answer, run⟩ := first
  obtain ⟨handler', later, answer', run'⟩ := second
  rw [handler, run] at answer'
  refine ⟨handler'.trans handler, events ++ later, World.allAnswer_append.mpr ⟨answer, answer'⟩, ?_⟩
  rw [run', run, World.run_append]

end Leads

structure Works (s : Workshop) (turned : Workshop × List Turn) : Prop where
  leads : s.Leads turned.1
  falls : turned.2.length + turned.1.world.workers ≤ s.world.workers

theorem works_still (leads : s.Leads next) (same : next.world.workers = s.world.workers) :
    s.Works (next, []) := ⟨leads, by simp [same]⟩

theorem Works.after {turned : Workshop × List Turn} (h : next.Works turned)
    (leads : s.Leads next) (same : next.world.workers = s.world.workers) : s.Works turned :=
  ⟨leads.trans h.leads, same ▸ h.falls⟩

def worker? (s : Workshop) (i ticket : Nat) : Option (Task Job) :=
  (s.dispatcher? i).bind fun d => d.pool.task? ticket

theorem works_finish {t : Task Job} (found : s.worker? i ticket = some t)
    (runs : t.stage = .running) {reply : Option Response}
    (answers : ∀ r, reply = some r → ∀ request, t.job.request = .ok request →
      Replies s.handler request r) : s.Works (s.finish i ticket reply) := by
  obtain ⟨d, here, found⟩ := Option.bind_eq_some_iff.mp found
  refine ⟨.step (.finish i ticket reply) ?_, ?_⟩
  · cases reply with
    | none => trivial
    | some r =>
      intro e u there same
      cases here.symm.trans there
      cases found.symm.trans same
      exact answers r rfl
  · have fewer := World.workers_finish here (by rw [found, Option.map_some, runs]) reply
    have woken : (s.finish i ticket reply).2.length ≤ 1 := by
      simp only [finish]
      split <;> simp
    simp only [finish] at woken ⊢
    omega

theorem works_serve {t : Task Job} (found : s.worker? i ticket = some t)
    (runs : t.stage = .running) (called : Bool) :
    s.Works (s.serve i ticket t.job called) := by
  have crashes : s.Works (s.finish i ticket none) := works_finish found runs (by simp)
  unfold serve
  split
  · exact crashes
  · rename_i request readable
    have gives {v : Workshop} {reply : Response} (found : v.worker? i ticket = some t)
        (gives : Replies v.handler request reply) : v.Works (v.finish i ticket (some reply)) := by
      refine works_finish found runs fun r same request' readable' => ?_
      cases same
      cases readable.symm.trans readable'
      exact gives
    split
    · rename_i handling
      exact gives found (.inl handling)
    · exact crashes
    · rename_i handling
      split
      · exact gives found (.inr handling)
      · generalize s.gate.enter request.id (.worker i ticket) = entered
        obtain ⟨passed, gate⟩ := entered
        have still : s.Leads { s with gate } := .still rfl rfl
        cases passed with
        | true => exact (gives (v := { s with gate }) found (.inr handling)).after still rfl
        | false => exact works_still still rfl

theorem works_turn (t : Turn) (s : Workshop) : s.Works (turn t s) := by
  cases t with
  | answer i ticket => exact works_still (.step _ trivial) (World.workers_send s.world i ticket)
  | worker i ticket =>
    simp only [turn]
    split
    · exact works_still (.still rfl rfl) rfl
    · rename_i task found
      split
      · rename_i runs
        exact works_serve found runs true
      · have advances : s.Leads (s.step (.advance i ticket)) := .step _ trivial
        have same := World.workers_advance s.world i ticket
        split
        · rename_i begun
          exact (works_serve begun rfl false).after advances same
        · exact works_still advances same

theorem ready_settle (s : Workshop) : s.settle.ready = [] := by
  refine takeTurns_ready turn (fun s => s.world.workers) (fun t s => (works_turn t s).falls) _ ?_
  rw [World.workers]
  omega

theorem leads_settle (s : Workshop) : s.Leads s.settle :=
  (takeTurns_keeps turn (fun _ next => s.Leads next)
    (fun t _ next leads => leads.trans (works_turn t next).leads) _ s.ready s
    (.still rfl rfl)).trans (.still rfl rfl)

inductive Errand where
  | deliver (dispatcher : Nat) (message : Message) (worked : Bool)
  | call (id : String)
  | setState (dispatcher : Nat) (state : ConnectionState)
  | attach (dispatcher : Nat) (publisher : Publisher)
  | detach (dispatcher : Nat)
  | shutDown (dispatcher : Nat)
  | settle

def attend (s : Workshop) : Errand → Workshop
  | .deliver i m worked => s.deliver i m worked
  | .call id => s.call id
  | .setState i state => s.step (.setState i state)
  | .attach i p => s.step (.attach i p)
  | .detach i => s.step (.detach i)
  | .shutDown i => s.step (.shutDown i)
  | .settle => s.settle

theorem leads_attend (s : Workshop) (errand : Errand) : s.Leads (s.attend errand) := by
  cases errand with
  | deliver i m worked =>
    exact ⟨rfl, [.receive i m, .resume i worked, .resume i worked],
      ⟨trivial, trivial, trivial, trivial⟩, rfl⟩
  | call id => exact .still rfl rfl
  | setState | attach | detach | shutDown => exact .step _ trivial
  | settle => exact leads_settle s

/-- Whatever a workshop is told, its world goes through events that are possible in any world
whose workers answer as its handler does. -/
theorem leads_errands (s : Workshop) (errands : List Errand) :
    s.Leads (errands.foldl attend s) := by
  induction errands generalizing s with
  | nil => exact .still rfl rfl
  | cons errand errands ih => exact (leads_attend s errand).trans (ih (s.attend errand))

theorem tidy_errands (tidy : s.world.Tidy (Replies s.handler)) (errands : List Errand) :
    (errands.foldl attend s).world.Tidy (Replies s.handler) := by
  obtain ⟨-, events, answer, run⟩ := leads_errands s errands
  exact run ▸ World.tidy_run tidy events answer

end Workshop

end RequestBus
