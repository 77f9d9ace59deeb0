import RequestBus.Proofs.Dispatch.InFlight
import RequestBus.Dispatch.World

/-! The ledger of a registry: the acceptances, evictions and releases so far. A step writes into it
what it does to the registry and nothing else. -/
namespace RequestBus

def Record.entry? : Record → Option String
  | .accepted _ id => some id
  | .evicted id => some id
  | .released _ id => some id
  | _ => none

def ledger (records : List Record) : List Record := records.filter fun r => r.entry?.isSome

@[simp] theorem ledger_nil : ledger [] = [] := rfl

theorem ledger_cons (r : Record) (records : List Record) :
    ledger (r :: records) = if r.entry?.isSome then r :: ledger records else ledger records :=
  List.filter_cons

@[simp] theorem ledger_append (first second : List Record) :
    ledger (first ++ second) = ledger first ++ ledger second :=
  List.filter_append _ _

inductive Upkeep : Registry × List Record → Registry × List Record → Prop
  | still (books : Registry × List Record) : Upkeep books books
  | seen (r : Registry) (l : List Record) (id : String) (present : r.contains id = true) :
      Upkeep (r, l) ((r.accept id).2, l)
  | accepted (r : Registry) (l : List Record) (t : Nat) (id : String)
      (absent : r.contains id = false) :
      Upkeep (r, l)
        ((r.accept id).2, .accepted t id :: (r.evicted? id).toList.map .evicted ++ l)
  | released (r : Registry) (l : List Record) (t : Nat) (id : String) :
      Upkeep (r, l) (r.release id, .released t id :: l)

namespace World

variable {w : World} {i : Nat} {d : Dispatcher}

def books (w : World) : Registry × List Record := (w.registry, ledger w.history)

@[simp] theorem books_record {r : Record} (silent : r.entry? = none) :
    (w.record r).books = w.books :=
  Prod.ext rfl (by simp [record, books, ledger_cons, silent])

@[simp] theorem books_put (w : World) (i : Nat) (d : Dispatcher) : (w.put i d).books = w.books :=
  rfl

@[simp] theorem books_hand (w : World) (d : Dispatcher) (t : Nat) (reply : Response)
    (dest : Destination) : (w.hand d t reply dest).books = w.books := by
  unfold hand
  exact books_record rfl

theorem upkeep_release (w : World) (t : Nat) (id : String) :
    Upkeep w.books (w.release t id).books :=
  .released _ _ t id

theorem upkeep_accept (w : World) (t : Nat) (id : String) :
    Upkeep w.books (w.accept t id).2.books := by
  unfold World.accept
  simp only [Registry.accept_fst]
  cases seen : w.registry.contains id with
  | true => exact .seen _ _ id seen
  | false =>
    have step := Upkeep.accepted w.registry (ledger w.history) t id seen
    cases victim : w.registry.evicted? id with
    | none => simpa [books, record, ledger, Record.entry?, victim] using step
    | some v => simpa [books, record, ledger, Record.entry?, victim] using step

theorem upkeep_submit (w : World) (i : Nat) (d : Dispatcher) (t : Nat) (job : Job) :
    Upkeep w.books (w.submit i d t job).books := by
  unfold World.submit
  dsimp only
  split
  · rw [books_record rfl]
    exact .still _
  · rw [books_record rfl]
    cases job.protocol with
    | amqp => exact upkeep_release _ t job.id
    | mqtt => exact .still _

theorem upkeep_receive (w : World) (i : Nat) (d : Dispatcher) (m : Message) :
    Upkeep w.books (w.receive i d m).books := by
  have arrived : ({ w with issued := w.issued + 1 }.record (.received w.issued i m)).books =
      w.books := books_record rfl
  unfold World.receive
  split
  · exact .still _
  · dsimp only
    rw [← arrived]
    split
    · rw [books_record rfl]
      exact .still _
    · split
      · unfold receiveAmqp
        split
        · exact .still _
        · split
          · exact .still _
          · exact upkeep_accept _ _ _
      · unfold receiveMqtt
        split
        · rw [books_record rfl]
          exact .still _
        · split
          · rw [books_record rfl]
            exact .still _
          · exact upkeep_submit _ _ _ _ _

theorem upkeep_resume (w : World) (i : Nat) (d : Dispatcher) (worked : Bool) :
    Upkeep w.books (w.resume i d worked).books := by
  unfold World.resume
  split
  · exact .still _
  · rw [books_record rfl, books_record rfl]
    exact .still _
  · rw [books_record rfl, books_hand, books_record rfl]
    exact .still _
  · rename_i t job _
    have acknowledged : (w.record (.acknowledged t worked)).books = w.books := books_record rfl
    dsimp only
    rw [← acknowledged]
    split
    · exact .still _
    · exact upkeep_submit _ _ _ _ _
  · rename_i t job _
    rw [books_record rfl]
    exact upkeep_release (hand _ d t _ _) t job.id

theorem upkeep_advance (w : World) (i : Nat) (d : Dispatcher) (t : Nat) :
    Upkeep w.books (w.advance i d t).books := by
  unfold World.advance
  split
  · exact .still _
  · dsimp only
    split
    · split
      · rw [books_record rfl]
        exact .still _
      · exact .still _
    · exact .still _

theorem upkeep_finish (w : World) (i : Nat) (d : Dispatcher) (t : Nat)
    (reply : Option Response) : Upkeep w.books (w.finish i d t reply).books := by
  unfold World.finish
  split
  · rename_i job _
    rw [books_record rfl]
    cases job.answer reply with
    | none =>
      cases job.protocol with
      | amqp => exact upkeep_release _ t job.id
      | mqtt => exact .still _
    | some answer =>
      have handed : (w.hand d t answer job.dest).books = w.books := books_hand _ _ _ _ _
      dsimp only
      rw [← handed]
      cases job.protocol with
      | amqp => exact upkeep_release _ t job.id
      | mqtt => exact .still _
  · exact .still _

theorem upkeep_send (w : World) (i : Nat) (d : Dispatcher) (t : Nat) :
    Upkeep w.books (w.send i d t).books := by
  unfold World.send
  split
  · rw [books_hand]
    exact .still _
  · exact .still _

theorem upkeep_step (w : World) (e : Event) : Upkeep w.books (w.step e).books := by
  have visit : ∀ (i : Nat) (act : Dispatcher → World),
      (∀ d, Upkeep w.books (act d).books) → Upkeep w.books (w.visit i act).books :=
    fun _ _ each => visit_induction (motive := fun v => Upkeep w.books v.books) (.still _)
      fun d _ => each d
  cases e with
  | receive i m => exact visit i _ fun d => upkeep_receive w i d m
  | resume i worked => exact visit i _ fun d => upkeep_resume w i d worked
  | advance i t => exact visit i _ fun d => upkeep_advance w i d t
  | finish i t reply => exact visit i _ fun d => upkeep_finish w i d t reply
  | send i t => exact visit i _ fun d => upkeep_send w i d t
  | setState | attach | detach | shutDown => exact visit _ _ fun d => .still _

end World

end RequestBus
