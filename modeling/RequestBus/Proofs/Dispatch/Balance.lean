import Mathlib.Data.List.Nodup
import RequestBus.Proofs.Dispatch.Slots

/-! Pools that are given tasks at any time. A task that finds no free slot waits for one, so there
can be more tasks than slots; but every slot is free or with a task that has it, and no slot is
free while a task stands in the queue. -/
namespace RequestBus

def Stage.isRestless : Stage → Bool
  | .granted => true
  | .slotless => true
  | .queued => false
  | .running => false

def inStage (tasks : List (Task α)) (stage : Stage) : List Nat :=
  (tasks.filter fun t => t.stage == stage).map Task.ticket

@[simp] theorem inStage_nil (stage : Stage) : inStage ([] : List (Task α)) stage = [] := rfl

theorem inStage_cons (t : Task α) (tasks : List (Task α)) (stage : Stage) :
    inStage (t :: tasks) stage = (if t.stage = stage then [t.ticket] else []) ++
      inStage tasks stage := by
  by_cases same : t.stage = stage <;> simp [inStage, same]

theorem inStage_append (first second : List (Task α)) (stage : Stage) :
    inStage (first ++ second) stage = inStage first stage ++ inStage second stage := by
  simp [inStage]

theorem perm_inStage {first second : List (Task α)} (perm : first.Perm second) (stage : Stage) :
    (inStage first stage).Perm (inStage second stage) :=
  (perm.filter _).map _

theorem mem_inStage {tasks : List (Task α)} {stage : Stage} {ticket : Nat} :
    ticket ∈ inStage tasks stage ↔ ∃ t ∈ tasks, t.stage = stage ∧ t.ticket = ticket := by
  simp [inStage, and_assoc]

theorem perm_stages (tasks : List (Task α)) : (tasks.map Task.ticket).Perm
    (inStage tasks .running ++ inStage tasks .granted ++ inStage tasks .queued ++
      inStage tasks .slotless) := by
  refine List.perm_iff_count.mpr fun ticket => ?_
  induction tasks with
  | nil => rfl
  | cons t tasks ih =>
    simp only [List.count_append] at ih
    simp only [List.map_cons, List.count_cons, inStage_cons, List.count_append, ih]
    cases t.stage <;> simp [List.count_singleton] <;> omega

namespace Pool

variable {p q : Pool α} {ticket : Nat} {t : Task α}

structure Balanced (p : Pool α) : Prop where
  distinct : p.tickets.Nodup
  slots : p.free + (inStage p.tasks .granted).length + (inStage p.tasks .running).length =
    p.capacity
  line : p.queue.Perm (inStage p.tasks .queued)
  noneSpare : p.free ≠ 0 → p.queue = []

/-- Nothing goes on by itself: every task that has a slot runs, and the others wait in line. -/
def Settled (p : Pool α) : Prop := ∀ t ∈ p.tasks, t.stage.isRestless = false

/-! ## One task goes from a stage to another -/

def spot (ticket : Nat) (here : Option Stage) (stage : Stage) : List Nat :=
  if here = some stage then [ticket] else []

/-- One task goes from a stage to another, or comes or goes, and the others stay. -/
def Passes (before after : List (Task α)) (ticket : Nat) (src dst : Option Stage) : Prop :=
  ∃ rest : Stage → List Nat, ∀ stage,
    (inStage before stage).Perm (spot ticket src stage ++ rest stage) ∧
    (inStage after stage).Perm (spot ticket dst stage ++ rest stage)

namespace Passes

variable {before after : List (Task α)}

theorem same {src dst : Option Stage} (h : Passes before after ticket src dst) (stage : Stage)
    (left : src ≠ some stage) (arrived : dst ≠ some stage) :
    (inStage after stage).Perm (inStage before stage) := by
  obtain ⟨rest, h⟩ := h
  have first := (h stage).1
  have last := (h stage).2
  rw [spot, if_neg left] at first
  rw [spot, if_neg arrived] at last
  exact last.trans first.symm

theorem arrives {src : Option Stage} {dst : Stage} (h : Passes before after ticket src (some dst))
    (came : src ≠ some dst) : (inStage after dst).Perm (ticket :: inStage before dst) := by
  obtain ⟨rest, h⟩ := h
  have first := (h dst).1
  have last := (h dst).2
  rw [spot, if_neg came] at first
  rw [spot, if_pos rfl] at last
  exact last.trans (first.symm.cons ticket)

theorem leaves {src : Stage} {dst : Option Stage} (h : Passes before after ticket (some src) dst)
    (went : dst ≠ some src) : (inStage before src).Perm (ticket :: inStage after src) := by
  obtain ⟨rest, h⟩ := h
  have first := (h src).1
  have last := (h src).2
  rw [spot, if_pos rfl] at first
  rw [spot, if_neg went] at last
  exact first.trans (last.symm.cons ticket)

theorem before_of_after {src dst : Option Stage} (h : Passes before after ticket src dst)
    {stage : Stage} (arrived : dst ≠ some stage) {u : Nat} (there : u ∈ inStage after stage) :
    u ∈ inStage before stage := by
  obtain ⟨rest, h⟩ := h
  have last := (h stage).2
  rw [spot, if_neg arrived] at last
  exact (h stage).1.mem_iff.mpr (List.mem_append_right _ (last.mem_iff.mp there))

end Passes

def others (p : Pool α) (ticket : Nat) : List (Task α) :=
  p.tasks.filter fun u => u.ticket != ticket

theorem inStage_split (distinct : p.tickets.Nodup) (member : t ∈ p.tasks) (stage : Stage) :
    (inStage p.tasks stage).Perm (spot t.ticket (some t.stage) stage ++
      inStage (p.others t.ticket) stage) := by
  have perm := perm_inStage (perm_cons_filter Task.ticket p.tasks t distinct member) stage
  rw [inStage_cons] at perm
  simpa [spot, others] using perm

theorem passes_move (distinct : p.tickets.Nodup) (member : t ∈ p.tasks) (new : Stage) :
    Passes p.tasks (p.move t.ticket new).tasks t.ticket (some t.stage) (some new) := by
  refine ⟨_, fun stage => ⟨inStage_split distinct member stage, ?_⟩⟩
  have perm := perm_inStage (perm_move distinct member new) stage
  rw [inStage_cons] at perm
  simpa [spot, others] using perm

theorem passes_out (distinct : p.tickets.Nodup) (member : t ∈ p.tasks) :
    Passes p.tasks (p.others t.ticket) t.ticket (some t.stage) none :=
  ⟨_, fun stage => ⟨inStage_split distinct member stage, List.Perm.refl _⟩⟩

theorem passes_in (tasks : List (Task α)) (ticket : Nat) (job : α) (stage : Stage) :
    Passes tasks (tasks ++ [⟨ticket, job, stage⟩]) ticket none (some stage) := by
  refine ⟨inStage tasks, fun s => ⟨List.Perm.refl _, ?_⟩⟩
  rw [inStage_append, inStage_cons]
  refine List.perm_append_comm.trans ?_
  simp [spot, inStage]

/-! ## What the operations do -/

theorem eq_of_ticket (distinct : p.tickets.Nodup) {u : Task α} (ht : t ∈ p.tasks)
    (hu : u ∈ p.tasks) (same : t.ticket = u.ticket) : t = u :=
  List.inj_on_of_nodup_map distinct ht hu same

theorem stage_unique (distinct : p.tickets.Nodup) {one other : Stage}
    (first : ticket ∈ inStage p.tasks one) (second : ticket ∈ inStage p.tasks other) :
    one = other := by
  obtain ⟨t, ht, rfl, rfl⟩ := mem_inStage.mp first
  obtain ⟨u, hu, rfl, same⟩ := mem_inStage.mp second
  rw [eq_of_ticket distinct hu ht same]

@[simp] theorem tickets_move (p : Pool α) (ticket : Nat) (stage : Stage) :
    (p.move ticket stage).tickets = p.tickets := by
  simp only [tickets, move, List.map_map]
  refine List.map_congr_left fun t _ => ?_
  simp only [Function.comp_apply]
  split <;> rfl

inductive Submitted (p : Pool α) (ticket : Nat) (job : α) : Bool × Pool α → Prop
  | refused (down : p.isShutDown = true) : Submitted p ticket job (false, p)
  | granted (up : p.isShutDown = false) (spare : p.free ≠ 0) : Submitted p ticket job
      (true, { p with tasks := p.tasks ++ [⟨ticket, job, .granted⟩], free := p.free - 1 })
  | slotless (up : p.isShutDown = false) (full : p.free = 0) : Submitted p ticket job
      (true, { p with tasks := p.tasks ++ [⟨ticket, job, .slotless⟩] })

theorem submitted (p : Pool α) (ticket : Nat) (job : α) :
    Submitted p ticket job (p.submit ticket job) := by
  unfold submit
  split
  · rename_i down
    exact .refused down
  · rename_i up
    split
    · rename_i full
      exact .slotless (by simpa using up) (by simpa [isSaturated] using full)
    · rename_i spare
      exact .granted (by simpa using up) (by simpa [isSaturated] using spare)

inductive Advanced (p : Pool α) (ticket : Nat) (q : Pool α) : Prop
  | still (same : q = p) (rests : ∀ t ∈ p.tasks, t.ticket = ticket → t.stage.isRestless = false)
  | begun (free : q.free = p.free) (queue : q.queue = p.queue)
      (passes : Passes p.tasks q.tasks ticket (some .granted) (some .running))
  | queued (full : p.free = 0) (free : q.free = 0) (queue : q.queue = p.queue ++ [ticket])
      (passes : Passes p.tasks q.tasks ticket (some .slotless) (some .queued))
  | seized (spare : p.free ≠ 0) (free : q.free = p.free - 1) (queue : q.queue = p.queue)
      (passes : Passes p.tasks q.tasks ticket (some .slotless) (some .running))

theorem advanced (distinct : p.tickets.Nodup) (ticket : Nat) :
    Advanced p ticket (p.advance ticket) := by
  cases found : p.task? ticket with
  | none =>
    refine .still (by rw [advance, found]; rfl) fun t member here => absurd found ?_
    exact Option.isSome_iff_ne_none.mp (List.find?_isSome.mpr ⟨t, member, by simp [here]⟩)
  | some t =>
    obtain ⟨member, rfl⟩ := task?_spec found
    have moves := passes_move distinct member
    have only : t.stage.isRestless = false →
        ∀ u ∈ p.tasks, u.ticket = t.ticket → u.stage.isRestless = false := by
      intro rests u hu same
      rwa [eq_of_ticket distinct hu member same]
    cases stage : t.stage with
    | granted =>
      simp only [advance, found, stage, Option.map_some]
      exact .begun rfl rfl (stage ▸ moves .running)
    | slotless =>
      simp only [advance, found, stage, Option.map_some]
      split
      · rename_i full
        have full : p.free = 0 := by simpa [isSaturated] using full
        exact .queued full full rfl (stage ▸ moves .queued)
      · rename_i spare
        exact .seized (by simpa [isSaturated] using spare) rfl rfl (stage ▸ moves .running)
    | queued | running =>
      simp only [advance, found, stage, Option.map_some]
      exact .still rfl (only (by rw [stage]; rfl))

/-- What can become of a balanced pool as a task ends. Its slot stays free, or goes to the first
in line through nobody's hands. -/
inductive Finished (p : Pool α) (ticket : Nat) (q : Pool α) : Prop
  | still (same : q = p) (idle : ticket ∉ inStage p.tasks .running)
  | freed (runs : ticket ∈ inStage p.tasks .running) (nobody : p.queue = [])
      (free : q.free = p.free + 1) (queue : q.queue = [])
      (tickets : p.tickets.Perm (ticket :: q.tickets))
      (out : Passes p.tasks q.tasks ticket (some .running) none)
  | passed (runs : ticket ∈ inStage p.tasks .running) (next : Nat) (more : List Nat)
      (line : p.queue = next :: more) (free : q.free = p.free) (queue : q.queue = more)
      (tickets : p.tickets.Perm (ticket :: q.tickets))
      (out : Passes p.tasks (p.others ticket) ticket (some .running) none)
      (up : Passes (p.others ticket) q.tasks next (some .queued) (some .granted))

theorem not_running_of_task? (distinct : p.tickets.Nodup)
    (other : ∀ t, p.task? ticket = some t → t.stage ≠ .running) :
    ticket ∉ inStage p.tasks .running := by
  intro running
  obtain ⟨u, hu, stage, here⟩ := mem_inStage.mp running
  obtain ⟨t, found⟩ : ∃ t, p.task? ticket = some t :=
    Option.isSome_iff_exists.mp (List.find?_isSome.mpr ⟨u, hu, by simp [here]⟩)
  obtain ⟨member, same⟩ := task?_spec found
  exact other t found (eq_of_ticket distinct member hu (same.trans here.symm) ▸ stage)

theorem finished (h : p.Balanced) (ticket : Nat) : Finished p ticket (p.finish ticket) := by
  cases found : p.task? ticket with
  | none =>
    refine .still (by rw [finish, found]; rfl) (not_running_of_task? h.distinct fun t other => ?_)
    rw [found] at other
    contradiction
  | some t =>
    obtain ⟨member, rfl⟩ := task?_spec found
    cases stage : t.stage with
    | running =>
      have runs : t.ticket ∈ inStage p.tasks .running := mem_inStage.mpr ⟨t, member, stage, rfl⟩
      have out := stage ▸ passes_out h.distinct member
      have tickets : p.tickets.Perm (t.ticket :: (p.others t.ticket).map Task.ticket) :=
        (perm_cons_filter Task.ticket p.tasks t h.distinct member).map Task.ticket
      simp only [finish, found, stage, Option.map_some, giveBack]
      split
      · rename_i next more line
        have waits := h.line.trans (out.same _ (by decide) (by decide)).symm
        rw [line] at waits
        obtain ⟨u, hu, queued, rfl⟩ := mem_inStage.mp (waits.mem_iff.mp List.mem_cons_self)
        let rest : Pool α := { p with tasks := p.others t.ticket }
        have distinct : rest.tickets.Nodup := h.distinct.sublist (List.filter_sublist.map _)
        refine .passed runs u.ticket more line rfl rfl ?_ out
          (queued ▸ passes_move distinct hu .granted)
        exact tickets.trans (List.Perm.of_eq
          (congrArg (t.ticket :: ·) (rest.tickets_move u.ticket .granted).symm))
      · rename_i nobody
        exact .freed runs nobody rfl nobody tickets out
    | granted | slotless | queued =>
      simp only [finish, found, stage, Option.map_some]
      refine .still rfl (not_running_of_task? h.distinct fun u other => ?_)
      cases found.symm.trans other
      simp [stage]

theorem tickets_submit (p : Pool α) (ticket : Nat) (job : α) :
    (p.submit ticket job).2.tickets =
      p.tickets ++ if (p.submit ticket job).1 then [ticket] else [] := by
  have step := p.submitted ticket job
  generalize p.submit ticket job = q at step ⊢
  cases step <;> simp [tickets]

@[simp] theorem tickets_giveBack (p : Pool α) : p.giveBack.tickets = p.tickets := by
  unfold giveBack
  split
  · exact tickets_move p _ .granted
  · rfl

theorem mem_tickets_finish {u : Nat} (there : u ∈ p.tickets) (other : u ≠ ticket) :
    u ∈ (p.finish ticket).tickets := by
  unfold finish
  split
  · rw [tickets_giveBack]
    obtain ⟨t, ht, rfl⟩ := List.mem_map.mp there
    exact List.mem_map_of_mem (List.mem_filter.mpr ⟨ht, bne_iff_ne.mpr other⟩)
  · exact there

@[simp] theorem tickets_advance (p : Pool α) (ticket : Nat) :
    (p.advance ticket).tickets = p.tickets := by
  unfold advance
  split
  · exact tickets_move p ticket .running
  · split
    · exact tickets_move p ticket .queued
    · exact tickets_move p ticket .running
  · rfl

theorem frame_submit (p : Pool α) (ticket : Nat) (job : α) :
    (p.submit ticket job).2.capacity = p.capacity ∧
    (p.submit ticket job).2.isShutDown = p.isShutDown := by
  have step := p.submitted ticket job
  generalize p.submit ticket job = q at step ⊢
  cases step <;> exact ⟨rfl, rfl⟩

theorem frame_advance (p : Pool α) (ticket : Nat) :
    (p.advance ticket).capacity = p.capacity ∧
    (p.advance ticket).isShutDown = p.isShutDown := by
  unfold advance
  split
  · exact ⟨rfl, rfl⟩
  · split <;> exact ⟨rfl, rfl⟩
  · exact ⟨rfl, rfl⟩

theorem frame_finish (p : Pool α) (ticket : Nat) :
    (p.finish ticket).capacity = p.capacity ∧
    (p.finish ticket).isShutDown = p.isShutDown := by
  unfold finish giveBack
  split
  · split <;> exact ⟨rfl, rfl⟩
  · exact ⟨rfl, rfl⟩

/-! ## The balance is kept -/

theorem balanced_ofCapacity (name : String) (n : Nat) : (ofCapacity name n : Pool α).Balanced :=
  ⟨List.nodup_nil, rfl, List.Perm.nil, fun _ => rfl⟩

theorem balanced_shutDown (h : p.Balanced) : p.shutDown.Balanced :=
  ⟨h.distinct, h.slots, h.line, h.noneSpare⟩

theorem balanced_submit (h : p.Balanced) (fresh : ticket ∉ p.tickets) (job : α) :
    (p.submit ticket job).2.Balanced := by
  have tickets (stage : Stage) :
      ((p.tasks ++ [(⟨ticket, job, stage⟩ : Task α)]).map Task.ticket).Nodup := by
    rw [List.map_append]
    refine List.nodup_append.mpr ⟨h.distinct, List.nodup_singleton _, fun a ha b hb same => ?_⟩
    have here : b = ticket := List.mem_singleton.mp hb
    exact fresh (here ▸ same ▸ ha)
  have slots := h.slots
  have step := p.submitted ticket job
  generalize p.submit ticket job = q at step ⊢
  cases step with
  | refused => exact h
  | granted up spare =>
    have passes := passes_in p.tasks ticket job .granted
    have running := (passes.same .running (by decide) (by decide)).length_eq
    have granted := (passes.arrives (by decide)).length_eq
    refine ⟨tickets _, ?_, h.line.trans (passes.same _ (by decide) (by decide)).symm,
      fun _ => h.noneSpare spare⟩
    simp only [List.length_cons] at granted
    simp only
    omega
  | slotless up full =>
    have passes := passes_in p.tasks ticket job .slotless
    have running := (passes.same .running (by decide) (by decide)).length_eq
    have granted := (passes.same .granted (by decide) (by decide)).length_eq
    refine ⟨tickets _, ?_, h.line.trans (passes.same _ (by decide) (by decide)).symm, h.noneSpare⟩
    simp only
    omega

theorem balanced_advance (h : p.Balanced) (ticket : Nat) : (p.advance ticket).Balanced := by
  have slots := h.slots
  have capacity := (p.frame_advance ticket).1
  have distinct := p.tickets_advance ticket ▸ h.distinct
  have step := advanced h.distinct ticket
  generalize p.advance ticket = q at step capacity distinct ⊢
  cases step with
  | still same => exact same ▸ h
  | begun free queue passes =>
    have running := (passes.arrives (by decide)).length_eq
    have granted := (passes.leaves (by decide)).length_eq
    refine ⟨distinct, ?_, queue ▸ h.line.trans (passes.same _ (by decide) (by decide)).symm, ?_⟩
    · simp only [List.length_cons] at granted running
      omega
    · rw [free, queue]
      exact h.noneSpare
  | queued full free queue passes =>
    have running := (passes.same .running (by decide) (by decide)).length_eq
    have granted := (passes.same .granted (by decide) (by decide)).length_eq
    refine ⟨distinct, by omega, ?_, fun spare => absurd free spare⟩
    rw [queue]
    exact List.perm_append_comm.trans
      ((h.line.cons ticket).trans (passes.arrives (by decide)).symm)
  | seized spare free queue passes =>
    have running := (passes.arrives (by decide)).length_eq
    have granted := (passes.same .granted (by decide) (by decide)).length_eq
    refine ⟨distinct, ?_, queue ▸ h.line.trans (passes.same _ (by decide) (by decide)).symm, ?_⟩
    · simp only [List.length_cons] at running
      omega
    · rw [queue]
      exact fun _ => h.noneSpare spare

theorem balanced_finish (h : p.Balanced) (ticket : Nat) : (p.finish ticket).Balanced := by
  have slots := h.slots
  have capacity := (p.frame_finish ticket).1
  have step := finished h ticket
  generalize p.finish ticket = q at step capacity ⊢
  cases step with
  | still same => exact same ▸ h
  | freed runs nobody free queue tickets out =>
    have running := (out.leaves (by decide)).length_eq
    have granted := (out.same .granted (by decide) (by decide)).length_eq
    refine ⟨(List.nodup_cons.mp (tickets.nodup_iff.mp h.distinct)).2, ?_, ?_, fun _ => queue⟩
    · simp only [List.length_cons] at running
      omega
    · rw [queue, ← nobody]
      exact h.line.trans (out.same _ (by decide) (by decide)).symm
  | passed runs next more line free queue tickets out up =>
    have running := (out.leaves (by decide)).length_eq
    have running' := (up.same .running (by decide) (by decide)).length_eq
    have granted := (out.same .granted (by decide) (by decide)).length_eq
    have granted' := (up.arrives (by decide)).length_eq
    have waits := h.line.trans (out.same _ (by decide) (by decide)).symm
    rw [line] at waits
    refine ⟨(List.nodup_cons.mp (tickets.nodup_iff.mp h.distinct)).2, ?_,
      queue ▸ (waits.trans (up.leaves (by decide))).cons_inv, fun spare => ?_⟩
    · simp only [List.length_cons] at running granted'
      omega
    · have nobody := h.noneSpare (free ▸ spare)
      rw [line] at nobody
      contradiction

end Pool

end RequestBus
