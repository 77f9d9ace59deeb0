import RequestBus.Proofs.Dispatch.Shift

/-! The accounts of a pool. As many tasks run as there are slots, or all that are left; each task
that was accepted starts once, as soon as there is a slot for it; and a shutdown that waits is over
when the last of them has ended. -/
namespace RequestBus

namespace Pool

variable {p : Pool α} {ticket : Nat}

theorem settled_iff : p.Settled ↔ inStage p.tasks .granted = [] ∧ inStage p.tasks .slotless = [] := by
  simp only [Settled, inStage, List.map_eq_nil_iff, List.filter_eq_nil_iff, beq_iff_eq]
  constructor
  · intro settled
    refine ⟨fun t ht stage => ?_, fun t ht stage => ?_⟩ <;>
    · have rests := settled t ht
      rw [stage] at rests
      contradiction
  · rintro ⟨granted, slotless⟩ t ht
    cases stage : t.stage with
    | granted => exact absurd stage (granted t ht)
    | slotless => exact absurd stage (slotless t ht)
    | queued | running => rfl

theorem submit_eq_false {job : α} :
    (p.submit ticket job).1 = false ↔ p.isShutDown = true := by
  have step := p.submitted ticket job
  generalize p.submit ticket job = q at step ⊢
  cases step with
  | refused down => simp [down]
  | granted up | slotless up => simp [up]

theorem restless_advance (h : p.Balanced) {stage : Stage} (restless : stage.isRestless = true)
    {u : Nat} (there : u ∈ inStage (p.advance ticket).tasks stage) :
    u ∈ inStage p.tasks stage ∧ u ≠ ticket := by
  have passed {src : Option Stage} {dst : Stage} (rests : dst.isRestless = false)
      (passes : Passes p.tasks (p.advance ticket).tasks ticket src (some dst))
      (came : src ≠ some dst) : u ∈ inStage p.tasks stage ∧ u ≠ ticket := by
    have other : dst ≠ stage := by
      rintro rfl
      exact absurd restless (by simp [rests])
    refine ⟨passes.before_of_after (by simpa using other) there, ?_⟩
    rintro rfl
    have arrived := (passes.arrives came).mem_iff.mpr List.mem_cons_self
    exact other (stage_unique (balanced_advance h u).distinct arrived there)
  cases advanced h.distinct ticket with
  | still same rests =>
    rw [same] at there
    refine ⟨there, ?_⟩
    rintro rfl
    obtain ⟨t, ht, rfl, here⟩ := mem_inStage.mp there
    rw [rests t ht here] at restless
    contradiction
  | begun free queue passes => exact passed rfl passes (by decide)
  | queued full free queue passes => exact passed rfl passes (by decide)
  | seized spare free queue passes => exact passed rfl passes (by decide)

theorem begins_iff (h : p.Balanced) : p.begins ticket = true ↔
    ticket ∈ inStage p.tasks .granted ∨ (ticket ∈ inStage p.tasks .slotless ∧ p.free ≠ 0) := by
  cases advanced h.distinct ticket with
  | still same rests =>
    have nowhere (stage : Stage) (restless : stage.isRestless = true) :
        ticket ∉ inStage p.tasks stage := by
      intro there
      obtain ⟨t, ht, rfl, here⟩ := mem_inStage.mp there
      rw [rests t ht here] at restless
      contradiction
    simp [begins_of_same (by rw [same]), nowhere .granted rfl,
      nowhere .slotless rfl]
  | begun free queue passes =>
    have granted := (passes.leaves (by decide)).mem_iff.mpr List.mem_cons_self
    simp [begins_of_arrives h (passes.arrives (by decide)), granted]
  | queued full free queue passes =>
    have slotless := (passes.leaves (by decide)).mem_iff.mpr List.mem_cons_self
    have elsewhere : ticket ∉ inStage p.tasks .granted := fun granted =>
      nomatch stage_unique h.distinct granted slotless
    simp [begins_of_same (passes.same _ (by decide) (by decide)), elsewhere, full]
  | seized spare free queue passes =>
    have slotless := (passes.leaves (by decide)).mem_iff.mpr List.mem_cons_self
    simp [begins_of_arrives h (passes.arrives (by decide)), slotless, spare]

end Pool

namespace Shift

variable {s : Shift α}

def working (s : Shift α) : List Nat := s.started.filter fun t => t ∉ s.ended

def unended (s : Shift α) : List Nat := s.accepted.filter fun t => t ∉ s.ended

def returned (s : Shift α) (drain : Bool) : Bool := !drain || s.pool.isDrained

theorem Sound.ended_nodup (h : s.Sound) : (s.ended ++ s.pool.tickets).Nodup :=
  h.accepted.nodup_iff.mp (List.nodup_append.mp h.distinct).1

theorem filter_notMem {first second : List Nat} (distinct : (first ++ second).Nodup) :
    (first ++ second).filter (fun t => t ∉ first) = second := by
  have left : (first.filter fun t => t ∉ first) = [] :=
    List.filter_eq_nil_iff.mpr fun t ht => by simp [ht]
  have right : (second.filter fun t => t ∉ first) = second :=
    List.filter_eq_self.mpr fun t ht => by
      simpa using fun there => (List.nodup_append.mp distinct).2.2 t there t ht rfl
  rw [List.filter_append, left, right, List.nil_append]

theorem Sound.unended_perm (h : s.Sound) : s.unended.Perm s.pool.tickets := by
  have perm := h.accepted.filter fun t => t ∉ s.ended
  rwa [filter_notMem h.ended_nodup] at perm

theorem Sound.started_nodup (h : s.Sound) :
    (s.ended ++ inStage s.pool.tasks .running).Nodup :=
  h.ended_nodup.sublist ((List.filter_sublist.map _).append_left s.ended)

theorem Sound.started_subset (h : s.Sound) : s.started ⊆ s.accepted := by
  intro t ht
  rcases List.mem_append.mp (h.started.mem_iff.mp ht) with ended | running
  · exact h.accepted.mem_iff.mpr (List.mem_append_left _ ended)
  · obtain ⟨task, member, _, rfl⟩ := mem_inStage.mp running
    exact h.accepted.mem_iff.mpr (List.mem_append_right _ (List.mem_map_of_mem member))

theorem Sound.drained_iff (h : s.Sound) : s.pool.isDrained = true ↔
    s.shutdowns ≠ [] ∧ ∀ t ∈ s.accepted, t ∈ s.ended := by
  have empty : s.pool.tasks.isEmpty = true ↔ s.pool.tickets = [] := by
    rw [List.isEmpty_iff, Pool.tickets, List.map_eq_nil_iff]
  rw [Pool.isDrained, Bool.and_eq_true, h.down, empty]
  refine and_congr_right fun _ => ⟨fun none t ht => ?_, fun all => ?_⟩
  · have accepted := h.accepted
    rw [none, List.append_nil] at accepted
    exact accepted.mem_iff.mp ht
  · refine List.eq_nil_iff_forall_not_mem.mpr fun t ht => ?_
    have ended := all t (h.accepted.mem_iff.mpr (List.mem_append_right _ ht))
    exact (List.nodup_append.mp h.ended_nodup).2.2 t ended t ht rfl

theorem Sound.working_perm (h : s.Sound) : s.working.Perm (inStage s.pool.tasks .running) := by
  have perm := h.started.filter fun t => t ∉ s.ended
  rwa [filter_notMem h.started_nodup] at perm

theorem capacity_step (s : Shift α) (e : PoolEvent α) :
    (s.step e).pool.capacity = s.pool.capacity := by
  cases e with
  | submit job => exact (s.pool.frame_submit s.issued job).1
  | advance ticket => exact (s.pool.frame_advance ticket).1
  | finish ticket crashed => exact (s.pool.frame_finish ticket).1
  | shutDown drain => rfl

theorem capacity_run (s : Shift α) (events : List (PoolEvent α)) :
    (s.run events).pool.capacity = s.pool.capacity := by
  induction events generalizing s with
  | nil => rfl
  | cons e events ih => exact (ih (s.step e)).trans (capacity_step s e)

theorem settled_turns (h : s.Sound) (turns : List Nat) (all : ∀ t ∈ s.pool.tickets, t ∈ turns) :
    (s.run (turns.map .advance)).pool.Settled := by
  have left : ∀ (stage : Stage), stage.isRestless = true →
      ∀ u ∈ inStage (s.run (turns.map .advance)).pool.tasks stage,
        u ∈ inStage s.pool.tasks stage ∧ u ∉ turns := by
    intro stage restless u there
    clear all
    induction turns generalizing s with
    | nil => exact ⟨there, List.not_mem_nil⟩
    | cons t turns ih =>
      obtain ⟨before, later⟩ := ih (sound_advance h t) there
      obtain ⟨before, other⟩ := Pool.restless_advance h.balanced restless before
      exact ⟨before, List.not_mem_cons_of_ne_of_not_mem other later⟩
  have none : ∀ stage : Stage, stage.isRestless = true →
      inStage (s.run (turns.map .advance)).pool.tasks stage = [] := by
    intro stage restless
    refine List.eq_nil_iff_forall_not_mem.mpr fun u there => ?_
    obtain ⟨before, other⟩ := left stage restless u there
    obtain ⟨t, ht, _, rfl⟩ := mem_inStage.mp before
    exact other (all _ (List.mem_map_of_mem ht))
  exact Pool.settled_iff.mpr ⟨none .granted rfl, none .slotless rfl⟩

/-- What the lists of a pool's tasks say about each other and about its slots. -/
structure Accounts (s : Shift α) (capacity : Nat) : Prop where
  within : s.working.length ≤ capacity
  active : s.pool.Settled → s.pool.active = min capacity s.unended.length
  saturated : s.pool.Settled →
    (s.pool.isSaturated = true ↔ min capacity s.unended.length = capacity)
  busy : s.pool.Settled → s.working.length = min capacity s.unended.length
  refuses : ∀ job, (s.pool.submit s.issued job).1 = false ↔ s.shutdowns ≠ []
  refused : ∀ t ∈ s.refused, t ∉ s.accepted ∧ t ∉ s.started
  startOnce : s.started.Nodup ∧ s.started ⊆ s.accepted
  endOnce : s.ended.Nodup ∧ s.ended ⊆ s.started
  drained : s.pool.isDrained = true ↔ s.shutdowns ≠ [] ∧ ∀ t ∈ s.accepted, t ∈ s.ended
  returns : ∀ drain ∈ s.shutdowns,
    (s.returned drain = true ↔ (drain = true → ∀ t ∈ s.accepted, t ∈ s.ended))
  idle : s.pool.isDrained = true → s.pool.active = 0 ∧ s.pool.isSaturated = false

theorem accounts (h : s.Sound) (some : 0 < s.pool.capacity) : s.Accounts s.pool.capacity := by
  have slots := h.balanced.slots
  have line := h.balanced.line.length_eq
  have stages := (perm_stages s.pool.tasks).length_eq
  have working := h.working_perm.length_eq
  have unended := h.unended_perm.length_eq
  rw [Pool.tickets] at unended
  simp only [List.length_append] at stages
  have spare : s.pool.free ≠ 0 → (inStage s.pool.tasks .queued).length = 0 := fun spare => by
    rw [← line, h.balanced.noneSpare spare]
    rfl
  have settled : s.pool.Settled → (inStage s.pool.tasks .granted).length = 0 ∧
      (inStage s.pool.tasks .slotless).length = 0 := fun settled => by
    obtain ⟨granted, slotless⟩ := Pool.settled_iff.mp settled
    simp [granted, slotless]
  constructor
  case within => omega
  case active =>
    intro calm
    have settled := settled calm
    rw [Pool.active]
    omega
  case saturated =>
    intro calm
    have settled := settled calm
    simp only [Pool.isSaturated, beq_iff_eq]
    omega
  case busy =>
    intro calm
    have settled := settled calm
    omega
  case refuses =>
    intro job
    rw [Pool.submit_eq_false, h.down]
  case refused =>
    intro t ht
    have apart : t ∉ s.accepted := fun there =>
      (List.nodup_append.mp h.distinct).2.2 t there t ht rfl
    exact ⟨apart, fun there => apart (h.started_subset there)⟩
  case startOnce =>
    exact ⟨h.started.nodup_iff.mpr h.started_nodup, h.started_subset⟩
  case endOnce =>
    exact ⟨(List.nodup_append.mp h.ended_nodup).1,
      fun t ht => h.started.mem_iff.mpr (List.mem_append_left _ ht)⟩
  case drained => exact h.drained_iff
  case returns =>
    intro drain called
    have drained := h.drained_iff
    rw [and_iff_right (List.ne_nil_of_mem called)] at drained
    cases drain with
    | false => simp [returned]
    | true => simpa [returned] using drained
  case idle =>
    intro drained
    have empty : s.pool.tasks = [] := by
      simpa [Pool.isDrained] using (Bool.and_eq_true_iff.mp drained).2
    rw [empty] at slots
    simp only [inStage, List.filter_nil, List.map_nil, List.length_nil] at slots
    rw [Pool.active, Pool.isSaturated, beq_eq_false_iff_ne]
    omega

/-! ## When a task starts -/

theorem Sound.stage_of_unstarted (h : s.Sound) {t : Nat} (accepted : t ∈ s.accepted)
    (unstarted : t ∉ s.started) : ∃ task ∈ s.pool.tasks, task.ticket = t ∧ task.stage ≠ .running := by
  have notEnded : t ∉ s.ended := fun ended =>
    unstarted (h.started.mem_iff.mpr (List.mem_append_left _ ended))
  rcases List.mem_append.mp (h.accepted.mem_iff.mp accepted) with ended | there
  · exact absurd ended notEnded
  · obtain ⟨task, member, rfl⟩ := List.mem_map.mp there
    refine ⟨task, member, rfl, fun running => unstarted ?_⟩
    exact h.started.mem_iff.mpr
      (List.mem_append_right _ (mem_inStage.mpr ⟨task, member, running, rfl⟩))

theorem started_of_spare (h : s.Sound) {t : Nat} (accepted : t ∈ s.accepted)
    (unstarted : t ∉ s.started) (spare : s.pool.isSaturated = false) :
    (s.step (.advance t)).started = s.started ++ [t] := by
  have free : s.pool.free ≠ 0 := by simpa [Pool.isSaturated] using spare
  obtain ⟨task, member, rfl, stage⟩ := h.stage_of_unstarted accepted unstarted
  have begins : s.pool.begins task.ticket = true := by
    rw [Pool.begins_iff h.balanced]
    have there {stage : Stage} (same : task.stage = stage) :
        task.ticket ∈ inStage s.pool.tasks stage := mem_inStage.mpr ⟨task, member, same, rfl⟩
    cases here : task.stage with
    | granted => exact .inl (there here)
    | slotless => exact .inr ⟨there here, free⟩
    | queued =>
      have waits := h.balanced.line.mem_iff.mpr (there here)
      rw [h.balanced.noneSpare free] at waits
      contradiction
    | running => exact absurd here stage
  simp [step, begins]

theorem started_of_handover (h : s.Sound) {t next : Nat} {more : List Nat} (runs : t ∈ s.working)
    (line : s.pool.queue = next :: more) (crashed : Bool) :
    ((s.step (.finish t crashed)).step (.advance next)).started = s.started ++ [next] := by
  have running := h.working_perm.mem_iff.mp runs
  have granted : next ∈ inStage (s.pool.finish t).tasks .granted := by
    cases Pool.finished h.balanced t with
    | still same idle => exact absurd running idle
    | freed _ nobody => simp [nobody] at line
    | passed _ first rest line' free queue tickets out up =>
      cases line.symm.trans line'
      exact (up.arrives (by decide)).mem_iff.mpr List.mem_cons_self
  have begins : (s.pool.finish t).begins next = true :=
    (Pool.begins_iff (Pool.balanced_finish h.balanced t)).mpr (.inl granted)
  simp [step, begins]

/-! ## Starting in order -/

/-- Nothing is asked of the pool, and no task ends, before all has come to rest. -/
def Paced : Shift α → List (PoolEvent α) → Prop
  | _, [] => True
  | s, .advance ticket :: events => (s.step (.advance ticket)).Paced events
  | s, e :: events => s.pool.Settled ∧ (s.step e).Paced events

theorem paced_append {first second : List (PoolEvent α)} :
    s.Paced (first ++ second) ↔ s.Paced first ∧ (s.run first).Paced second := by
  induction first generalizing s with
  | nil => exact ⟨fun paced => ⟨trivial, paced⟩, And.right⟩
  | cons e first ih =>
    cases e with
    | advance ticket => exact ih
    | submit | finish | shutDown => exact (and_congr_right fun _ => ih).trans and_assoc.symm

/-- The tasks have started in the order in which they were accepted, those in line will start in
that order, and no more than one of the others can go on. -/
structure InOrder (s : Shift α) : Prop where
  order : s.accepted = s.started ++ inStage s.pool.tasks .granted ++ s.pool.queue ++
    inStage s.pool.tasks .slotless
  one : (inStage s.pool.tasks .granted).length + (inStage s.pool.tasks .slotless).length ≤ 1

theorem inOrder_start (name : String) (n : Nat) : (start name n : Shift α).InOrder :=
  ⟨rfl, Nat.zero_le 1⟩

theorem InOrder.order_settled (order : s.InOrder) (settled : s.pool.Settled) :
    s.accepted = s.started ++ s.pool.queue := by
  obtain ⟨granted, slotless⟩ := Pool.settled_iff.mp settled
  have same := order.order
  rwa [granted, slotless, List.append_nil, List.append_nil] at same

theorem eq_singleton_of_perm {l rest : List Nat} {t : Nat} (perm : l.Perm (t :: rest))
    (one : l.length ≤ 1) : l = [t] ∧ rest = [] := by
  have length := perm.length_eq
  have empty : rest = [] := by
    rw [List.length_cons] at length
    exact List.length_eq_zero_iff.mp (by omega)
  rw [empty] at perm
  exact ⟨List.perm_singleton.mp perm, empty⟩

theorem eq_nil_of_perm {l l' : List Nat} (perm : l.Perm l') (empty : l' = []) : l = [] :=
  List.perm_nil.mp (empty ▸ perm)

theorem inOrder_advance (h : s.Sound) (inOrder : s.InOrder) (t : Nat) :
    (s.step (.advance t)).InOrder := by
  obtain ⟨order, one⟩ := inOrder
  have starts : _ → s.pool.begins t = true := Pool.begins_of_arrives h.balanced
  have stays : _ → s.pool.begins t = false := Pool.begins_of_same
  have nobody (stage : Stage) (none : (inStage s.pool.tasks stage).length = 0) :
      inStage s.pool.tasks stage = [] := List.length_eq_zero_iff.mp none
  cases Pool.advanced h.balanced.distinct t with
  | still same =>
    have begins := stays (by rw [same])
    exact ⟨by simpa [step, same, begins] using order, by simpa [step, same] using one⟩
  | begun free queue passes =>
    have begins := starts (passes.arrives (by decide))
    obtain ⟨granted, left⟩ := eq_singleton_of_perm (passes.leaves (by decide)) (by omega)
    rw [granted, List.length_singleton] at one
    have slotless := nobody .slotless (by omega)
    have slotless' := eq_nil_of_perm (passes.same _ (by decide) (by decide)) slotless
    rw [granted, slotless] at order
    constructor <;> simp [step, begins, left, slotless', queue, order]
  | queued full free queue passes =>
    have begins := stays (passes.same _ (by decide) (by decide))
    obtain ⟨slotless, left⟩ := eq_singleton_of_perm (passes.leaves (by decide)) (by omega)
    rw [slotless, List.length_singleton] at one
    have granted := nobody .granted (by omega)
    have granted' := eq_nil_of_perm (passes.same _ (by decide) (by decide)) granted
    rw [granted, slotless] at order
    constructor <;> simp [step, begins, left, granted', queue, order]
  | seized spare free queue passes =>
    have begins := starts (passes.arrives (by decide))
    obtain ⟨slotless, left⟩ := eq_singleton_of_perm (passes.leaves (by decide)) (by omega)
    rw [slotless, List.length_singleton] at one
    have granted := nobody .granted (by omega)
    have granted' := eq_nil_of_perm (passes.same _ (by decide) (by decide)) granted
    have nobodyWaits := h.balanced.noneSpare spare
    rw [granted, slotless, nobodyWaits] at order
    constructor <;> simp [step, begins, left, granted', queue, nobodyWaits, order]

theorem inOrder_submit (inOrder : s.InOrder) (settled : s.pool.Settled) (h : s.Sound) (job : α) :
    (s.step (.submit job)).InOrder := by
  have order := inOrder.order_settled settled
  obtain ⟨granted, slotless⟩ := Pool.settled_iff.mp settled
  have submitted := s.pool.submitted s.issued job
  simp only [step]
  generalize s.pool.submit s.issued job = q at submitted ⊢
  cases submitted with
  | refused => exact ⟨by simpa using inOrder.order, inOrder.one⟩
  | granted up spare =>
    have nobodyWaits := h.balanced.noneSpare spare
    rw [nobodyWaits, List.append_nil] at order
    constructor <;> simp [inStage_append, inStage_cons, granted, slotless, nobodyWaits, order]
  | slotless up full =>
    constructor <;> simp [inStage_append, inStage_cons, granted, slotless, order]

theorem inOrder_finish (inOrder : s.InOrder) (settled : s.pool.Settled) (h : s.Sound) (t : Nat)
    (crashed : Bool) : (s.step (.finish t crashed)).InOrder := by
  have order := inOrder.order_settled settled
  obtain ⟨granted, slotless⟩ := Pool.settled_iff.mp settled
  cases Pool.finished h.balanced t with
  | still same => exact ⟨by simpa [step, same] using inOrder.order, by simpa [step, same] using
      inOrder.one⟩
  | freed runs nobodyWaits free queue tickets out =>
    have granted' := eq_nil_of_perm (out.same _ (by decide) (by decide)) granted
    have slotless' := eq_nil_of_perm (out.same _ (by decide) (by decide)) slotless
    constructor <;> simp [step, granted', slotless', queue, nobodyWaits, order]
  | passed runs next more line free queue tickets out up =>
    have granted' := (up.arrives (by decide)).trans
      ((out.same _ (by decide) (by decide)).cons next)
    have slotless' := eq_nil_of_perm ((up.same _ (by decide) (by decide)).trans
      (out.same _ (by decide) (by decide))) slotless
    rw [granted] at granted'
    rw [line] at order
    constructor <;> simp [step, List.perm_singleton.mp granted', slotless', queue, order]

theorem inOrder_run (h : s.Sound) (inOrder : s.InOrder) (events : List (PoolEvent α))
    (paced : s.Paced events) : (s.run events).InOrder := by
  induction events generalizing s with
  | nil => exact inOrder
  | cons e events ih =>
    have sound := sound_step h e
    cases e with
    | advance t => exact ih sound (inOrder_advance h inOrder t) paced
    | submit job => exact ih sound (inOrder_submit inOrder paced.1 h job) paced.2
    | finish t crashed => exact ih sound (inOrder_finish inOrder paced.1 h t crashed) paced.2
    | shutDown drain => exact ih sound ⟨inOrder.order, inOrder.one⟩ paced.2

/-! ## The whole of it -/

theorem drained_step (h : s.Sound) (drained : s.pool.isDrained = true) (e : PoolEvent α) :
    (s.step e).pool.isDrained = true := by
  rw [h.drained_iff] at drained
  rw [(sound_step h e).drained_iff]
  obtain ⟨down, all⟩ := drained
  cases e with
  | submit job =>
    have refused : (s.pool.submit s.issued job).1 = false :=
      Pool.submit_eq_false.mpr (h.down.mpr down)
    exact ⟨down, by simpa [step, refused] using all⟩
  | advance t => exact ⟨down, all⟩
  | finish t crashed => exact ⟨down, fun t ht => List.mem_append_left _ (all t ht)⟩
  | shutDown drain => exact ⟨by simp [step], all⟩

theorem drained_run (h : s.Sound) (drained : s.pool.isDrained = true)
    (events : List (PoolEvent α)) : (s.run events).pool.isDrained = true := by
  induction events generalizing s with
  | nil => exact drained
  | cons e events ih => exact ih (sound_step h e) (drained_step h drained e)

/-- A pool at any moment of any run: its accounts are right, and stay drained once they are; a
task that was accepted starts when a slot is free or comes to be free for it; everything comes to
rest if every task gets a turn; and tasks start in order if everything does so before each step. -/
theorem accounts_run (name : String) (n : Nat) (events : List (PoolEvent α)) :
    let s := (start name n).run events
    s.Accounts (max n 1) ∧
    (∀ t ∈ s.accepted, t ∉ s.started → s.pool.isSaturated = false →
      (s.step (.advance t)).started = s.started ++ [t]) ∧
    (∀ t ∈ s.working, ∀ next more, s.pool.queue = next :: more → ∀ crashed,
      ((s.step (.finish t crashed)).step (.advance next)).started = s.started ++ [next]) ∧
    (∀ turns : List Nat, (∀ t ∈ s.unended, t ∈ turns) →
      (s.run (turns.map .advance)).pool.Settled) ∧
    (s.pool.isDrained = true → ∀ later, (s.run later).pool.isDrained = true) ∧
    ((start name n).Paced events → s.started <+: s.accepted) := by
  intro s
  have sound : s.Sound := sound_run (sound_start name n) events
  have capacity : s.pool.capacity = max n 1 := capacity_run (start name n) events
  refine ⟨?_, ?_, ?_, ?_, ?_, ?_⟩
  · exact capacity ▸ accounts sound (by omega)
  · exact fun t accepted unstarted spare => started_of_spare sound accepted unstarted spare
  · exact fun t runs next more line crashed => started_of_handover sound runs line crashed
  · intro turns all
    exact settled_turns sound turns fun t ht => all t (sound.unended_perm.mem_iff.mpr ht)
  · exact fun drained later => drained_run sound drained later
  · intro paced
    have inOrder := inOrder_run (sound_start name n) (inOrder_start name n) events paced
    have order := inOrder.order
    rw [List.append_assoc, List.append_assoc] at order
    exact ⟨_, order.symm⟩

end Shift

end RequestBus
