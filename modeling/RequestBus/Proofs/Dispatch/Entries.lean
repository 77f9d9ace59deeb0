import RequestBus.Proofs.Dispatch.Acceptance
import RequestBus.Proofs.Dispatch.Ledger

/-! Whose entry an id has in the registry. The latest record about an id tells: an acceptance
makes the entry, an eviction or a release takes it away. A release goes by the id, so it also takes
away an entry that is not its own: the one of a delivery that was accepted after the eviction of an
earlier one with the same id. -/
namespace RequestBus

def Record.accepts? : Record → Option Nat
  | .accepted t _ => some t
  | _ => none

/-- The delivery whose entry an id has, if it has one. -/
def holder? (id : String) (records : List Record) : Option Nat :=
  (records.find? fun r => r.entry? == some id).bind Record.accepts?

def Untouched (id : String) (records : List Record) : Prop := ∀ r ∈ records, r.entry? ≠ some id

theorem holder?_cons (id : String) (r : Record) (older : List Record) :
    holder? id (r :: older) = if r.entry? = some id then r.accepts? else holder? id older := by
  unfold holder?
  by_cases about : r.entry? = some id
  · simp [about]
  · simp [about]

theorem holder?_accepted (t : Nat) (id : String) (older : List Record) :
    holder? id (.accepted t id :: older) = some t :=
  (holder?_cons _ _ _).trans (if_pos rfl)

theorem holder?_append {id : String} {newer : List Record} (untouched : Untouched id newer)
    (older : List Record) : holder? id (newer ++ older) = holder? id older := by
  have none : (newer.find? fun r => r.entry? == some id) = none := by
    refine List.find?_eq_none.mpr fun r member => ?_
    simpa using untouched r member
  simp [holder?, List.find?_append, none]

theorem holder?_append_touched {id : String} {newer : List Record}
    (touched : ¬ Untouched id newer) (older : List Record) :
    holder? id (newer ++ older) = holder? id newer := by
  have some : (newer.find? fun r => r.entry? == some id).isSome = true := by
    simpa [Untouched] using touched
  obtain ⟨r, found⟩ := Option.isSome_iff_exists.mp some
  simp [holder?, List.find?_append, found]

theorem holder?_ledger (id : String) (records : List Record) :
    holder? id (ledger records) = holder? id records := by
  simp only [holder?, ledger, List.find?_filter]
  congr 2
  funext r
  cases r.entry? <;> simp [Bool.beq_eq_decide_eq]

theorem accepted_of_holder? {id : String} {records : List Record} {t : Nat}
    (h : holder? id records = some t) :
    ∃ newer older, records = newer ++ .accepted t id :: older ∧ Untouched id newer := by
  obtain ⟨r, found, holds⟩ := Option.bind_eq_some_iff.mp h
  obtain ⟨about, newer, older, rfl, untouched⟩ := List.find?_eq_some_iff_append.mp found
  cases r <;> first | contradiction | skip
  cases holds
  simp only [Record.entry?, beq_iff_eq, Option.some.injEq] at about
  subst about
  refine ⟨newer, older, rfl, fun r member => ?_⟩
  simpa using untouched r member

theorem first_of_touched {id : String} {records : List Record} (h : ¬ Untouched id records) :
    ∃ later first earlier, records = later ++ first :: earlier ∧ first.entry? = some id ∧
      Untouched id earlier := by
  induction records with
  | nil => exact absurd (fun r member => nomatch member) h
  | cons r records ih =>
    by_cases before : Untouched id records
    · refine ⟨[], r, records, rfl, ?_, before⟩
      by_contra other
      refine h fun s member => ?_
      rcases List.mem_cons.mp member with rfl | member
      · exact other
      · exact before s member
    · obtain ⟨later, first, earlier, rfl, about, untouched⟩ := ih before
      exact ⟨r :: later, first, earlier, rfl, about, untouched⟩

theorem mem_ledger {r : Record} {records : List Record} {id : String} (about : r.entry? = some id) :
    r ∈ ledger records ↔ r ∈ records := by
  simp [ledger, about]

/-! ## The registry as its ledger has it -/

def Booked (books : Registry × List Record) : Prop :=
  ∀ id, id ∈ books.1.ids ↔ ∃ t, holder? id books.2 = some t

theorem booked_accepted {r : Registry} {l : List Record} (booked : Booked (r, l)) (t : Nat)
    {id : String} (absent : r.contains id = false) :
    Booked ((r.accept id).2, .accepted t id :: (r.evicted? id).toList.map .evicted ++ l) := by
  intro other
  rw [Registry.ids_accept_new absent, Registry.ids_makeRoom, List.mem_append, List.mem_filter,
    List.cons_append, holder?_cons]
  by_cases same : other = id
  · subst same
    simp [Record.entry?, Record.accepts?]
  · have before := booked other
    cases victim : r.evicted? id with
    | none => simpa [Record.entry?, same, Ne.symm same] using before
    | some v =>
      by_cases lost : v = other
      · subst lost
        simp [Record.entry?, same, Ne.symm same, holder?_cons, Record.accepts?]
      · simpa [Record.entry?, same, Ne.symm same, holder?_cons, lost] using before

theorem booked_released {r : Registry} {l : List Record} (booked : Booked (r, l)) (t : Nat)
    (id : String) : Booked (r.release id, .released t id :: l) := by
  intro other
  rw [Registry.ids_release, List.mem_filter, holder?_cons]
  by_cases same : other = id
  · subst same
    simp [Record.entry?, Record.accepts?]
  · simpa [Record.entry?, same, Ne.symm same] using booked other

theorem booked_upkeep {before after : Registry × List Record} (booked : Booked before)
    (step : Upkeep before after) : Booked after := by
  cases step with
  | still => exact booked
  | seen r l id present =>
    intro other
    rw [Registry.ids_accept_again present]
    exact booked other
  | accepted r l t id absent => exact booked_accepted booked t absent
  | released r l t id => exact booked_released booked t id

/-! ## What goes before a record of the ledger -/

/-- The delivery `u` still has its id in flight, but not in the registry any more: the id was
evicted. -/
structure Outlives (u : Nat) (id : String) (older : List Record) : Prop where
  accepted : .accepted u id ∈ older
  unended : .released u id ∉ older
  evicted : .evicted id ∈ older

def Record.Follows (r : Record) (older : List Record) : Prop :=
  match r with
  | .accepted _ id => holder? id older = none
  | .released u id => .accepted u id ∈ older ∧ .released u id ∉ older ∧
      ∀ t, holder? id older = some t → t ≠ u → .evicted id ∈ older
  | _ => True

def Ordered : List Record → Prop
  | [] => True
  | r :: older => r.Follows older ∧ Ordered older

theorem follows_of_ordered {newer older : List Record} {r : Record}
    (h : Ordered (newer ++ r :: older)) : r.Follows older := by
  induction newer with
  | nil => exact h.1
  | cons _ newer ih => exact ih h.2

theorem ledger_invocation (job : Job) (t : Nat) : ledger (job.invocation t) = [] := by
  refine List.filter_eq_nil_iff.mpr fun r member => ?_
  obtain ⟨request, _, rfl⟩ := mem_invocation.mp member
  simp [Record.entry?]

theorem ledger_handing (job : Job) (t : Nat) (reply : Option Response) (reached : Bool) :
    ledger (job.handing t reply reached) = [] := by
  refine List.filter_eq_nil_iff.mpr fun r member => ?_
  obtain ⟨answer, _, rfl⟩ := mem_handing.mp member
  simp [Record.entry?]

theorem Course.ledger_eq {fits : Request → Response → Prop} {shut : Prop} {route : ReplyRoute}
    {i t : Nat} {m : Message} {site : Site} {records : List Record}
    (h : Course fits shut route i t m site records) : ledger records = [] ∨
      ∃ id, ledger records = [.accepted t id] ∨
        ledger records = [.released t id, .accepted t id] := by
  cases h with
  | waiting job asks worked | begun job asks worked | ended job asks worked reached reply fit =>
    cases protocol : job.protocol <;>
      simp [ledger_cons, Record.entry?, Protocol.taking, Protocol.releasing, ledger_invocation,
        ledger_handing]
  | _ => simp [ledger_cons, Record.entry?]

namespace World

variable {fits : Request → Response → Prop} {w : World} {t : Nat} {id : String}

def holder? (w : World) (id : String) : Option Nat := RequestBus.holder? id w.history

theorem ledger_trail (w : World) (t : Nat) :
    ledger (w.trail t) = (ledger w.history).filter fun r => r.ticket? == some t := by
  simp only [ledger, trail, List.filter_filter, Bool.and_comm]

theorem Tidy.ledger_eq (tidy : w.Tidy fits) (t : Nat) : ledger (w.trail t) = [] ∨
    ∃ id, ledger (w.trail t) = [.accepted t id] ∨
      ledger (w.trail t) = [.released t id, .accepted t id] := by
  by_cases early : t < w.issued
  · obtain ⟨i, d, s, m, _, _, course⟩ := tidy.located t early
    exact course.ledger_eq
  · rw [tidy.fresh t (by omega)]
    exact .inl rfl

theorem Tidy.mem_unended_of_accepted (tidy : w.Tidy fits) (accepted : .accepted t id ∈ w.history)
    (unended : .released t id ∉ w.history) : t ∈ w.unended id := by
  have there : .accepted t id ∈ w.trail t := mem_trail.mpr ⟨accepted, rfl⟩
  exact mem_unended.mpr ⟨tidy.lt_issued_of_mem there, there,
    fun released => unended (mem_trail.mp released).1⟩

theorem Tidy.entry?_of_older {newer older : List Record} (tidy : w.Tidy fits)
    (history : w.history = newer ++ .accepted t id :: older) {r : Record} (member : r ∈ older)
    (about : r.ticket? = some t) : r.entry? = none := by
  by_contra entry
  have order : [.accepted t id, r].Sublist w.history := by
    rw [history]
    exact ((List.singleton_sublist.mpr member).cons_cons _).trans (List.sublist_append_right _ _)
  have order : [.accepted t id, r].Sublist (ledger (w.trail t)) := by
    have concern : Concern t [.accepted t id, r] :=
      List.forall_mem_cons.mpr ⟨rfl, List.forall_mem_singleton.mpr about⟩
    have entries : ledger [.accepted t id, r] = [.accepted t id, r] :=
      List.filter_eq_self.mpr (List.forall_mem_cons.mpr
        ⟨rfl, List.forall_mem_singleton.mpr (Option.isSome_iff_ne_none.mpr entry)⟩)
    rw [ledger_trail, ← filter_of_concern concern, ← entries]
    exact (order.filter fun r => r.entry?.isSome).filter fun r => r.ticket? == some t
  rcases tidy.ledger_eq t with trail | ⟨_, trail | trail⟩
  · simp [trail] at order
  · have short := order.length_le
    simp [trail] at short
  · have same := order.eq_of_length (by rw [trail]; rfl)
    simp [trail] at same

theorem Tidy.mem_unended_of_holder? (tidy : w.Tidy fits) (h : w.holder? id = some t) :
    t ∈ w.unended id := by
  obtain ⟨newer, older, history, untouched⟩ := accepted_of_holder? h
  refine tidy.mem_unended_of_accepted (by simp [history]) ?_
  rw [history, List.mem_append, List.mem_cons]
  rintro (member | same | member)
  · exact untouched _ member rfl
  · contradiction
  · exact absurd (tidy.entry?_of_older history member rfl) (by simp [Record.entry?])

structure Kept (w : World) : Prop where
  tidy : w.Tidy fun _ _ => True
  linked : w.Linked
  booked : Booked w.books
  ordered : Ordered (ledger w.history)

theorem evicted_of_two {u : Nat} (linked : w.Linked) (one : t ∈ w.unended id)
    (two : u ∈ w.unended id) (different : t ≠ u) : .evicted id ∈ w.history := by
  have both : [t, u].Subperm (w.unended id) :=
    List.subperm_of_subset (by simpa using different) (by simp [one, two])
  have many := both.length_le
  have bound := linked.bound id
  have once := List.nodup_iff_count_le_one.mp linked.nodup id
  have evicted : 0 < w.evictions id := by
    simp only [List.length_cons, List.length_nil] at many
    omega
  exact List.count_pos_iff.mp evicted

theorem released_follows {after : World} (kept : w.Kept) (tidy : after.Tidy fits)
    (books : after.books = (w.registry.release id, .released t id :: ledger w.history)) :
    (Record.released t id).Follows (ledger w.history) := by
  have history : ledger after.history = .released t id :: ledger w.history :=
    congrArg Prod.snd books
  have trail := tidy.ledger_eq t
  have before : ((ledger w.history).filter fun r => r.ticket? == some t) = [.accepted t id] := by
    rw [ledger_trail, history, List.filter_cons, if_pos (by simp [Record.ticket?])] at trail
    simpa using trail
  have accepted : .accepted t id ∈ ledger w.history := by
    refine List.mem_of_mem_filter (p := fun r => r.ticket? == some t) ?_
    rw [before]
    exact List.mem_singleton_self _
  have unended : .released t id ∉ ledger w.history := by
    intro released
    have there : .released t id ∈ (ledger w.history).filter fun r => r.ticket? == some t :=
      List.mem_filter.mpr ⟨released, by simp [Record.ticket?]⟩
    rw [before] at there
    simp at there
  refine ⟨accepted, unended, fun u holds other => ?_⟩
  rw [holder?_ledger] at holds
  rw [mem_ledger rfl] at accepted unended ⊢
  exact evicted_of_two kept.linked (kept.tidy.mem_unended_of_holder? holds)
    (kept.tidy.mem_unended_of_accepted accepted unended) other

theorem ordered_accepted {r : Registry} {l : List Record} (booked : Booked (r, l))
    (ordered : Ordered l) (t : Nat) (absent : r.contains id = false) :
    Ordered (.accepted t id :: (r.evicted? id).toList.map .evicted ++ l) := by
  have free : RequestBus.holder? id l = none := by
    rw [Option.eq_none_iff_forall_ne_some]
    intro u holds
    exact (Registry.contains_eq_false_iff r id).mp absent ((booked id).mpr ⟨u, holds⟩)
  cases r.evicted? id with
  | none => exact ⟨free, ordered⟩
  | some v =>
    refine ⟨?_, trivial, ordered⟩
    show RequestBus.holder? id (.evicted v :: l) = none
    rw [holder?_cons]
    split
    · rfl
    · exact free

theorem kept_step (kept : w.Kept) (e : Event) : (w.step e).Kept := by
  have change := change_step kept.tidy e (by unfold Answers; split <;> simp)
  have tidy := tidy_change kept.tidy change
  have upkeep := upkeep_step w e
  refine ⟨tidy, linked_change kept.tidy kept.linked change, booked_upkeep kept.booked upkeep, ?_⟩
  have ordered := kept.ordered
  have booked := kept.booked
  cases books : (w.step e).books with
  | mk registry records =>
    have same : ledger (w.step e).history = records := congrArg Prod.snd books
    rw [same]
    rw [books] at upkeep
    unfold World.books at upkeep booked
    cases upkeep with
    | still | seen => exact ordered
    | accepted _ _ t id absent => exact ordered_accepted booked ordered t absent
    | released _ _ t id => exact ⟨released_follows kept tidy books, ordered⟩

theorem kept_start (capacity : Nat) (posts : List Post) :
    (start (.ofCapacity capacity) posts).Kept where
  tidy := tidy_start _ posts
  linked := linked_start capacity posts
  booked := by
    intro id
    constructor
    · intro member
      contradiction
    · rintro ⟨t, holds⟩
      contradiction
  ordered := trivial

theorem kept_run (kept : w.Kept) (events : List Event) : (w.run events).Kept := by
  induction events generalizing w with
  | nil => exact kept
  | cons e events ih => exact ih (kept_step kept e)

/-- What is first to happen to the entry of a delivery is its own end, an eviction, or the end of
an earlier delivery of the same id that outlives its own entry. -/
theorem Kept.first_touch {newer older : List Record} (kept : w.Kept)
    (history : w.history = newer ++ .accepted t id :: older) (touched : ¬ Untouched id newer) :
    ∃ later first earlier, newer = later ++ first :: earlier ∧ Untouched id earlier ∧
      (first = .evicted id ∨ first = .released t id ∨
        ∃ u, first = .released u id ∧ Outlives u id older) := by
  obtain ⟨later, first, earlier, rfl, about, untouched⟩ := first_of_touched touched
  refine ⟨later, first, earlier, rfl, untouched, ?_⟩
  have follows : first.Follows (ledger (earlier ++ .accepted t id :: older)) := by
    have ordered := kept.ordered
    rw [history, List.append_assoc, ledger_append, List.cons_append, ledger_cons, about] at ordered
    exact follows_of_ordered ordered
  have holds : RequestBus.holder? id (ledger (earlier ++ .accepted t id :: older)) = some t := by
    rw [holder?_ledger, holder?_append untouched, holder?_accepted]
  have before : ∀ r : Record, r.entry? = some id → r ≠ .accepted t id →
      r ∈ ledger (earlier ++ .accepted t id :: older) → r ∈ older := by
    intro r about other member
    rw [mem_ledger about, List.mem_append, List.mem_cons] at member
    rcases member with member | same | member
    · exact absurd about (untouched r member)
    · exact absurd same other
    · exact member
  cases first <;> first | contradiction | cases about
  case accepted u =>
    rw [show RequestBus.holder? id _ = none from follows] at holds
    contradiction
  case evicted => exact .inl rfl
  case released u =>
    by_cases own : t = u
    · exact .inr (.inl (own ▸ rfl))
    · obtain ⟨accepted, unended, evicted⟩ := follows
      refine .inr (.inr
        ⟨u, rfl, before _ rfl ?_ accepted, ?_, before _ rfl ?_ (evicted t holds own)⟩)
      · simpa using Ne.symm own
      · intro released
        refine unended ((mem_ledger rfl).mpr (List.mem_append_right _ ?_))
        exact List.mem_cons_of_mem _ released
      · simp

theorem Kept.holder?_iff {newer older : List Record} (kept : w.Kept)
    (history : w.history = newer ++ .accepted t id :: older) :
    w.holder? id = some t ↔ Untouched id newer := by
  unfold World.holder?
  rw [history]
  constructor
  · intro holds
    by_contra touched
    rw [holder?_append_touched touched] at holds
    obtain ⟨later, earlier, rfl, _⟩ := accepted_of_holder? holds
    rw [List.append_assoc, List.cons_append] at history
    have twice : .accepted t id ∈ earlier ++ .accepted t id :: older := by simp
    exact absurd (kept.tidy.entry?_of_older history twice rfl) (by simp [Record.entry?])
  · intro untouched
    rw [holder?_append untouched, holder?_accepted]

/-- The registry has an entry for the latest acceptance of an id and for no other. A delivery keeps
its entry from its acceptance on, until the id is evicted, the delivery comes to its own end, or an
earlier delivery of the same id that outlives its own entry comes to its end. -/
theorem entry_kept (capacity : Nat) (posts : List Post) (events : List Event) :
    let w := (start (.ofCapacity capacity) posts).run events
    (∀ id, w.registry.contains id = true ↔ ∃ t, w.holder? id = some t) ∧
    (∀ t id, w.holder? id = some t → t ∈ w.unended id) ∧
    (∀ (t : Nat) (id : String) (newer older : List Record),
      w.history = newer ++ .accepted t id :: older →
      (w.holder? id = some t ↔ Untouched id newer) ∧
      (¬ Untouched id newer → ∃ later first earlier, newer = later ++ first :: earlier ∧
        Untouched id earlier ∧ (first = .evicted id ∨ first = .released t id ∨
          ∃ u, first = .released u id ∧ Outlives u id older))) := by
  intro w
  have kept : w.Kept := kept_run (kept_start capacity posts) events
  refine ⟨fun id => ?_, fun t id holds => kept.tidy.mem_unended_of_holder? holds, ?_⟩
  · rw [Registry.contains_iff]
    have booked := kept.booked id
    simp only [books, holder?_ledger] at booked
    exact booked
  · intro t id newer older history
    exact ⟨kept.holder?_iff history, kept.first_touch history⟩

/-- The entry of the third delivery goes when the first one ends, which has the same id. -/
theorem entry_lost_to_outliving :
    let message (id : String) : Message :=
      { body := Utf8.encode ("\x7b\"id\":\"" ++ id ++ "\"\x7d"), replyTo := some "q" }
    let taken (id : String) : List Event := [.receive 0 (message id), .resume 0 true]
    let w := (start (.ofCapacity 1) [⟨"a", .amqp "x", 3⟩]).run
      (taken "r" ++ taken "s" ++ taken "r" ++ [.advance 0 0])
    let after := w.step (.finish 0 0 none)
    w.holder? "r" = some 2 ∧ after.registry.contains "r" = false ∧ 2 ∈ after.unended "r" ∧
      after.evictions "r" = w.evictions "r" := by
  decide +kernel

end World

end RequestBus
