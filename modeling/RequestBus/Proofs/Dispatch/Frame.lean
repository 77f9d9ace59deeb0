import RequestBus.Proofs.Dispatch.Balance
import RequestBus.Proofs.Dispatch.Runs

/-! What a step changes about a dispatcher. Its state and its reply channel change only as its
connection says; a message or a worker changes what waits and what is under way; and a pool that
is shut down takes nothing more. -/
namespace RequestBus

def Event.dispatcher : Event → Nat
  | .receive i _ => i
  | .resume i _ => i
  | .advance i _ => i
  | .finish i _ _ => i
  | .send i _ => i
  | .setState i _ => i
  | .attach i _ => i
  | .detach i => i
  | .shutDown i => i

inductive Dispatcher.Becomes (i : Nat) (d : Dispatcher) : Event → Dispatcher → Prop
  | stays (e : Event) : Becomes i d e d
  | calls (e : Event) (call : Option Call) : Becomes i d e { d with call }
  | notes (e : Event) (outbox : List (Nat × Response)) : Becomes i d e { d with outbox }
  | submits (e : Event) (ticket : Nat) (job : Job) :
      Becomes i d e { d with pool := (d.pool.submit ticket job).2, call := none }
  | advances (ticket : Nat) :
      Becomes i d (.advance i ticket) { d with pool := d.pool.advance ticket }
  | finishes (ticket : Nat) (reply : Option Response) :
      Becomes i d (.finish i ticket reply) { d with pool := d.pool.finish ticket }
  | shows (state : ConnectionState) : Becomes i d (.setState i state) { d with state }
  | attaches (p : Publisher) :
      Becomes i d (.attach i p) { d with replies := d.replies.attach p }
  | detaches : Becomes i d (.detach i) { d with replies := d.replies.detach }
  | shutsDown : Becomes i d (.shutDown i) { d with pool := d.pool.shutDown }

/-- The step is one that the connection of the dispatcher takes, and nobody else. -/
def Event.steers (i : Nat) : Event → Bool
  | .setState j _ => j == i
  | .attach j _ => j == i
  | .detach j => j == i
  | .shutDown j => j == i
  | _ => false

namespace Dispatcher

variable {i : Nat} {d next : Dispatcher} {e : Event}

/-- What stays as it is, or stays so once it is so, whatever messages and workers do. -/
structure Keeps (d next : Dispatcher) : Prop where
  route : next.route = d.route
  state : next.state = d.state
  replies : next.replies = d.replies
  down : d.pool.isShutDown = true → next.pool.isShutDown = true
  drained : d.pool.isDrained = true → next.pool.isDrained = true

theorem drained_iff {p : Pool α} : p.isDrained = true ↔ p.isShutDown = true ∧ p.tasks = [] := by
  simp [Pool.isDrained]

theorem Becomes.keeps (h : d.Becomes i e next) (other : e.steers i = false) : d.Keeps next := by
  cases h with
  | stays | calls | notes => exact ⟨rfl, rfl, rfl, id, id⟩
  | submits _ t job =>
    have refused (down : d.pool.isShutDown = true) : (d.pool.submit t job).2 = d.pool := by
      rw [Pool.submit_of_shutDown down]
    exact ⟨rfl, rfl, rfl, fun down => by simpa [refused down] using down, fun drained => by
      simpa [refused (drained_iff.mp drained).1] using drained⟩
  | advances t =>
    refine ⟨rfl, rfl, rfl, fun down => (d.pool.frame_advance t).2.trans down, fun drained => ?_⟩
    simpa [Pool.advance, Pool.task?, (drained_iff.mp drained).2] using drained
  | finishes t reply =>
    refine ⟨rfl, rfl, rfl, fun down => (d.pool.frame_finish t).2.trans down, fun drained => ?_⟩
    simpa [Pool.finish, Pool.task?, (drained_iff.mp drained).2] using drained
  | shows | attaches | detaches | shutsDown => simp [Event.steers] at other

theorem Becomes.route (h : d.Becomes i e next) : next.route = d.route := by
  cases h <;> rfl

theorem Becomes.mem_tickets (h : d.Becomes i e next) {t : Nat} (there : t ∈ d.pool.tickets) :
    t ∈ next.pool.tickets ∨ ∃ reply, e = .finish i t reply := by
  cases h with
  | submits _ u job =>
    rw [Pool.tickets_submit]
    exact .inl (List.mem_append_left _ there)
  | advances u => exact .inl (by rwa [Pool.tickets_advance])
  | finishes u reply =>
    by_cases same : t = u
    · exact .inr ⟨reply, by rw [same]⟩
    · exact .inl (Pool.mem_tickets_finish there same)
  | _ => exact .inl there

end Dispatcher

theorem Course.nothing_more {fits : Request → Response → Prop} {shut : Prop} {route : ReplyRoute}
    {i j t : Nat} {m n : Message} {site : Site} {news : List Record}
    (h : Course fits shut route i t m site
      (news ++ [.decided t .dropped, .received t j n])) : news = [] := by
  have dropped : .decided t .dropped ∈ news ++ [.decided t .dropped, .received t j n] := by simp
  generalize eq : news ++ [.decided t .dropped, .received t j n] = records at h dropped
  have reversed := congrArg List.reverse eq
  cases h with
  | turnedAway => exact (by simpa using reversed : (j = i ∧ n = m) ∧ news = []).2
  | waiting job asks worked | begun job asks worked | ended job asks worked reached reply fit =>
    simp [mem_taking, mem_invocation, mem_handing, mem_releasing] at dropped
  | _ => simp at reversed dropped

namespace World

variable {w v after : World} {j t : Nat} {d next : Dispatcher} {e : Event}

/-- The world becomes `after` by something that the dispatcher `d` at the position `j` does. -/
structure Acts (w : World) (j : Nat) (d : Dispatcher) (e : Event) (after : World) : Prop where
  dispatchers : after.dispatchers = w.dispatchers ∨
    ∃ next, d.Becomes j e next ∧ after.dispatchers = w.dispatchers.set j next
  issued : after.issued = w.issued
  history : w.history ⊆ after.history

namespace Acts

theorem still (w : World) : Acts w j d e w := ⟨.inl rfl, rfl, List.Subset.refl _⟩

theorem put (w : World) (becomes : d.Becomes j e next) : Acts w j d e (w.put j next) :=
  ⟨.inr ⟨next, becomes, rfl⟩, rfl, List.Subset.refl _⟩

theorem record (h : Acts w j d e v) (r : Record) : Acts w j d e (v.record r) :=
  ⟨h.dispatchers, h.issued, List.subset_cons_of_subset r h.history⟩

theorem hand (h : Acts w j d e v) (ticket : Nat) (reply : Response) (dest : Destination) :
    Acts w j d e (v.hand d ticket reply dest) := h.record _

theorem release (h : Acts w j d e v) (ticket : Nat) (id : String) :
    Acts w j d e (v.release ticket id) :=
  ⟨h.dispatchers, h.issued, List.subset_cons_of_subset _ h.history⟩

theorem of_same (h : Acts v j d e after) (dispatchers : v.dispatchers = w.dispatchers)
    (issued : v.issued = w.issued) (history : w.history ⊆ v.history) : Acts w j d e after :=
  ⟨dispatchers ▸ h.dispatchers, issued ▸ h.issued, List.Subset.trans history h.history⟩

end Acts

theorem accept_same (w : World) (ticket : Nat) (id : String) :
    (w.accept ticket id).2.dispatchers = w.dispatchers ∧
    (w.accept ticket id).2.issued = w.issued ∧ w.history ⊆ (w.accept ticket id).2.history := by
  cases seen : w.registry.contains id with
  | true =>
    rw [accept_duplicate seen]
    exact ⟨rfl, rfl, List.Subset.refl _⟩
  | false =>
    rw [accept_new seen]
    exact ⟨rfl, rfl, List.subset_cons_of_subset _ (List.subset_append_right _ _)⟩

theorem acts_submit (w : World) (j : Nat) (d : Dispatcher) (e : Event) (ticket : Nat) (job : Job) :
    Acts w j d e (w.submit j d ticket job) := by
  have acts := Acts.put w (.submits e ticket job : d.Becomes j e _)
  unfold submit
  generalize d.pool.submit ticket job = q at acts ⊢
  obtain ⟨taken, pool⟩ := q
  cases taken with
  | true => exact acts.record _
  | false =>
    cases job.protocol with
    | amqp => exact (acts.release ticket job.id).record _
    | mqtt => exact acts.record _

theorem acts_receiveAmqp (w : World) (j : Nat) (d : Dispatcher) (e : Event) (ticket : Nat)
    (m : Message) : Acts w j d e (w.receiveAmqp j d ticket m) := by
  unfold receiveAmqp
  split
  · exact .put w (.calls e _)
  · split
    · exact .put w (.calls e _)
    · rename_i id _
      obtain ⟨dispatchers, issued, history⟩ := w.accept_same ticket id
      exact (Acts.put _ (.calls e _)).of_same dispatchers issued history

theorem acts_receiveMqtt (w : World) (j : Nat) (d : Dispatcher) (e : Event) (ticket : Nat)
    (topic : String) (m : Message) : Acts w j d e (w.receiveMqtt j d ticket topic m) := by
  unfold receiveMqtt
  split
  · exact (Acts.still w).record _
  · split
    · exact (Acts.put w (.notes e _)).record _
    · exact acts_submit w j d e ticket _

theorem acts_resume (w : World) (j : Nat) (d : Dispatcher) (worked : Bool) (e : Event) :
    Acts w j d e (w.resume j d worked) := by
  have idle := Acts.put w (.calls e none : d.Becomes j e _)
  unfold resume
  split
  · exact .still w
  · exact (idle.record _).record _
  · exact ((idle.record _).hand _ _ _).record _
  · rename_i ticket job _
    have submits := acts_submit (w.record (.acknowledged ticket worked)) j d e ticket job
    have recorded : w.history ⊆ (w.record (.acknowledged ticket worked)).history :=
      List.subset_cons_self _ _
    split
    · exact (Acts.put (w.record _) (.calls e _)).of_same rfl rfl recorded
    · exact submits.of_same rfl rfl recorded
  · exact ((idle.hand _ _ _).release _ _).record _

theorem acts_advance (w : World) (j : Nat) (d : Dispatcher) (ticket : Nat) :
    Acts w j d (.advance j ticket) (w.advance j d ticket) := by
  have acts := Acts.put w (.advances ticket : d.Becomes j (.advance j ticket) _)
  unfold World.advance
  split
  · exact .still w
  · simp only
    split
    · split
      · exact acts.record _
      · exact acts
    · exact acts

theorem acts_finish (w : World) (j : Nat) (d : Dispatcher) (ticket : Nat)
    (reply : Option Response) : Acts w j d (.finish j ticket reply) (w.finish j d ticket reply) := by
  have becomes : d.Becomes j (.finish j ticket reply) _ := .finishes ticket reply
  unfold World.finish
  split
  · rename_i job _
    have placed : ∀ v : World, v.dispatchers = w.dispatchers → v.issued = w.issued →
        w.history ⊆ v.history →
        Acts w j d (.finish j ticket reply) (v.put j { d with pool := d.pool.finish ticket }) :=
      fun v dispatchers issued history =>
        (Acts.put v becomes).of_same dispatchers issued history
    cases job.answer reply with
    | none =>
      have acts := placed w rfl rfl (List.Subset.refl _)
      refine Acts.record ?_ _
      split
      · exact acts.release ticket job.id
      · exact acts
    | some answer =>
      have acts := placed (w.hand d ticket answer job.dest) rfl rfl (List.subset_cons_self _ _)
      refine Acts.record ?_ _
      split
      · exact acts.release ticket job.id
      · exact acts
  · exact .still w

theorem acts_send (w : World) (j : Nat) (d : Dispatcher) (ticket : Nat) (e : Event) :
    Acts w j d e (w.send j d ticket) := by
  unfold send
  split
  · exact (Acts.put w (.notes e _)).hand _ _ _
  · exact .still w

theorem acts_receive (w : World) (j : Nat) (d : Dispatcher) (m : Message) (e : Event) :
    w.receive j d m = w ∨
      Acts ({ w with issued := w.issued + 1 }.record (.received w.issued j m)) j d e
        (w.receive j d m) := by
  unfold receive
  split
  · exact .inl rfl
  · refine .inr ?_
    simp only
    split
    · exact (Acts.still _).record _
    · split
      · exact acts_receiveAmqp _ j d e _ m
      · exact acts_receiveMqtt _ j d e _ _ m

/-- A step is one of the dispatcher that it names, or nothing. Only a message that arrives is
given a ticket. -/
theorem step_acts (w : World) (e : Event) : w.step e = w ∨
    ∃ d v, w.dispatchers[e.dispatcher]? = some d ∧ v.dispatchers = w.dispatchers ∧
      (v = w ∨ ∃ m, e = .receive e.dispatcher m ∧ v.issued = w.issued + 1 ∧
        v.history = .received w.issued e.dispatcher m :: w.history) ∧
      Acts v e.dispatcher d e (w.step e) := by
  have visit {j : Nat} {act : Dispatcher → World}
      (acts : ∀ d, w.dispatchers[j]? = some d → Acts w j d e (act d)) : w.visit j act = w ∨
        ∃ d v, w.dispatchers[j]? = some d ∧ v.dispatchers = w.dispatchers ∧
          (v = w ∨ ∃ m, e = .receive j m ∧ v.issued = w.issued + 1 ∧
            v.history = .received w.issued j m :: w.history) ∧ Acts v j d e (w.visit j act) := by
    unfold World.visit
    split
    · rename_i d here
      exact .inr ⟨d, w, here, rfl, .inl rfl, acts d here⟩
    · exact .inl rfl
  cases e with
  | receive j m =>
    simp only [World.step, World.visit, Event.dispatcher]
    split
    · rename_i d here
      refine (w.acts_receive j d m (.receive j m)).imp id fun acts => ?_
      exact ⟨d, { w with issued := w.issued + 1 }.record (.received w.issued j m), here, rfl,
        .inr ⟨m, rfl, rfl, rfl⟩, acts⟩
    · exact .inl rfl
  | resume j worked => exact visit fun d _ => acts_resume w j d worked _
  | advance j t => exact visit fun d _ => acts_advance w j d t
  | finish j t reply => exact visit fun d _ => acts_finish w j d t reply
  | send j t => exact visit fun d _ => acts_send w j d t _
  | setState j state => exact visit fun d _ => .put w (.shows state)
  | attach j p => exact visit fun d _ => .put w (.attaches p)
  | detach j => exact visit fun d _ => .put w .detaches
  | shutDown j => exact visit fun d _ => .put w .shutsDown

theorem dispatcher_step (here : w.dispatchers[j]? = some d) (e : Event) :
    ∃ next, (w.step e).dispatchers[j]? = some next ∧ d.Becomes j e next := by
  rcases w.step_acts e with same | ⟨actor, v, there, dispatchers, _, acts⟩
  · exact ⟨d, by rw [same, here], .stays e⟩
  · rcases acts.dispatchers with same | ⟨next, becomes, same⟩
    · exact ⟨d, by rw [same, dispatchers, here], .stays e⟩
    · rw [same, dispatchers]
      by_cases named : e.dispatcher = j
      · subst named
        cases here.symm.trans there
        exact ⟨next, List.getElem?_set_self (List.getElem?_eq_some_iff.mp here).1, becomes⟩
      · exact ⟨d, by rw [List.getElem?_set_ne named, here], .stays e⟩

theorem history_step (w : World) (e : Event) : w.history ⊆ (w.step e).history := by
  rcases w.step_acts e with same | ⟨d, v, _, _, rfl | ⟨m, _, _, history⟩, acts⟩
  · rw [same]
    exact List.Subset.refl _
  · exact acts.history
  · exact List.Subset.trans (history ▸ List.subset_cons_self _ _) acts.history

theorem issued_step (w : World) (e : Event) : (w.step e).issued = w.issued ∨
    ∃ m, e = .receive e.dispatcher m ∧ (w.step e).issued = w.issued + 1 ∧
      .received w.issued e.dispatcher m ∈ (w.step e).history := by
  rcases w.step_acts e with same | ⟨d, v, _, _, rfl | ⟨m, receives, issued, history⟩, acts⟩
  · exact .inl (by rw [same])
  · exact .inl acts.issued
  · refine .inr ⟨m, receives, acts.issued.trans issued, acts.history ?_⟩
    rw [history]
    exact List.mem_cons_self

theorem finish_hands (here : w.dispatchers[j]? = some d) (t : Nat) (reply : Option Response) :
    w.step (.finish j t reply) = w ∨ ∃ crashed, .ended t crashed ∈
        (w.step (.finish j t reply)).history ∧
      (crashed = false → ∃ payload dest, .handed t payload dest
        (d.replies.publish payload dest).isOk ∈ (w.step (.finish j t reply)).history) := by
  have step : w.step (.finish j t reply) = w.finish j d t reply := by
    simp only [World.step, visit, here]
  rw [step, World.finish]
  split
  · rename_i job _
    refine .inr ⟨(job.answer reply).isNone, List.mem_cons_self, fun returned => ?_⟩
    obtain ⟨answer, answers⟩ := Option.isSome_iff_exists.mp (by simpa using returned)
    refine ⟨d.route.protocol.writeReply answer, job.dest, List.mem_cons_of_mem _ ?_⟩
    simp only [answers]
    cases job.protocol with
    | amqp => exact List.mem_cons_of_mem _ List.mem_cons_self
    | mqtt => exact List.mem_cons_self
  · exact .inl rfl

variable {fits : Request → Response → Prop}

theorem Change.trail_turnedAway (change : Change fits w after) {i : Nat} {m : Message}
    (away : w.trail t = [.decided t .dropped, .received t i m]) :
    after.trail t = [.decided t .dropped, .received t i m] := by
  cases change with
  | still => exact away
  | tuned => exact away
  | moved _ i' d next u site news moved =>
    by_cases same : t = u
    · subst same
      obtain ⟨m', course⟩ := moved.course
      rw [away] at course
      rw [moved.trail_here, away, course.nothing_more, List.nil_append]
    · rw [moved.trail_other same, away]

end World

end RequestBus
