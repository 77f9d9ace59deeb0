import Mathlib.Data.List.Perm.Basic
import RequestBus.Dispatch.Pool

namespace RequestBus

theorem perm_cons_filter [DecidableEq β] (f : α → β) (l : List α) (a : α)
    (distinct : (l.map f).Nodup) (member : a ∈ l) :
    l.Perm (a :: l.filter fun b => f b != f a) := by
  induction l with
  | nil => contradiction
  | cons b l ih =>
    rw [List.map_cons, List.nodup_cons] at distinct
    rcases List.mem_cons.mp member with same | later
    · subst same
      have others : (l.filter fun b => f b != f a) = l := by
        refine List.filter_eq_self.mpr fun b hb => bne_iff_ne.mpr fun same => ?_
        exact distinct.1 (same ▸ List.mem_map_of_mem hb)
      simp [others]
    · have other : f b ≠ f a := fun same => distinct.1 (same ▸ List.mem_map_of_mem later)
      rw [List.filter_cons, if_pos (bne_iff_ne.mpr other)]
      exact ((ih distinct.2 later).cons b).trans (List.Perm.swap _ _ _)

namespace Pool

def tickets (p : Pool α) : List Nat := p.tasks.map Task.ticket

/-- Every task holds a slot, and every slot that is not free is held by a task. -/
structure Prompt (p : Pool α) : Prop where
  nobodyWaits : p.queue = []
  holding : ∀ t ∈ p.tasks, t.stage = .granted ∨ t.stage = .running
  slots : p.free + p.tasks.length = p.capacity

theorem task?_spec {p : Pool α} {ticket : Nat} {t : Task α} (h : p.task? ticket = some t) :
    t ∈ p.tasks ∧ t.ticket = ticket := by
  refine ⟨List.mem_of_find?_eq_some h, ?_⟩
  simpa using List.find?_some h

theorem perm_move {p : Pool α} (distinct : p.tickets.Nodup) {t : Task α} (member : t ∈ p.tasks)
    (stage : Stage) : (p.move t.ticket stage).tasks.Perm
      ({ t with stage } :: p.tasks.filter fun u => u.ticket != t.ticket) := by
  have others : (p.tasks.filter fun u => u.ticket != t.ticket).map
      (fun u => if u.ticket = t.ticket then { u with stage } else u) =
        p.tasks.filter fun u => u.ticket != t.ticket := by
    refine (List.map_congr_left fun u hu => ?_).trans (List.map_id _)
    exact if_neg (bne_iff_ne.mp (List.mem_filter.mp hu).2)
  have perm := (perm_cons_filter Task.ticket p.tasks t distinct member).map
    fun u => if u.ticket = t.ticket then { u with stage } else u
  rw [List.map_cons, others, if_pos rfl] at perm
  exact perm

theorem prompt_ofCapacity (name : String) (n : Nat) : (ofCapacity name n : Pool α).Prompt :=
  ⟨rfl, by simp [ofCapacity], by simp [ofCapacity]⟩

theorem prompt_shutDown {p : Pool α} (h : p.Prompt) : p.shutDown.Prompt :=
  ⟨h.nobodyWaits, h.holding, h.slots⟩

theorem length_le_capacity {p : Pool α} (h : p.Prompt) : p.tasks.length ≤ p.capacity := by
  have slots := h.slots
  omega

theorem submit_of_free {p : Pool α} (running : p.isShutDown = false)
    (free : p.isSaturated = false) (ticket : Nat) (job : α) :
    p.submit ticket job =
      (true, { p with tasks := p.tasks ++ [⟨ticket, job, .granted⟩], free := p.free - 1 }) := by
  simp [submit, running, free]

theorem submit_of_shutDown {p : Pool α} (h : p.isShutDown = true) (ticket : Nat) (job : α) :
    p.submit ticket job = (false, p) := by
  simp [submit, h]

theorem prompt_submit {p : Pool α} (h : p.Prompt) (free : p.isSaturated = false) (ticket : Nat)
    (job : α) : (p.submit ticket job).2.Prompt := by
  cases down : p.isShutDown with
  | true => simpa [submit_of_shutDown down] using h
  | false =>
    rw [submit_of_free down free]
    have slots := h.slots
    have some : p.free ≠ 0 := by simpa [isSaturated] using free
    refine ⟨h.nobodyWaits, ?_, ?_⟩
    · intro t ht
      rcases List.mem_append.mp ht with ht | ht
      · exact h.holding t ht
      · exact .inl (List.mem_singleton.mp ht ▸ rfl)
    · simp only [List.length_append, List.length_singleton]
      omega

theorem prompt_move {p : Pool α} (h : p.Prompt) (ticket : Nat) :
    (p.move ticket .running).Prompt := by
  refine ⟨h.nobodyWaits, ?_, by simpa [move] using h.slots⟩
  intro t ht
  obtain ⟨before, hb, rfl⟩ := List.mem_map.mp ht
  split
  · exact .inr rfl
  · exact h.holding before hb

@[simp] theorem isShutDown_move (p : Pool α) (ticket : Nat) (stage : Stage) :
    (p.move ticket stage).isShutDown = p.isShutDown := rfl

theorem task?_move (p : Pool α) (ticket : Nat) (stage : Stage) :
    (p.move ticket stage).task? ticket = (p.task? ticket).map fun t => { t with stage } := by
  have same : (fun t : Task α => t.ticket == ticket) ∘
      (fun t : Task α => if t.ticket = ticket then { t with stage } else t) =
        fun t => t.ticket == ticket := by
    funext t
    simp only [Function.comp_apply]
    split <;> rfl
  simp only [task?, move, List.find?_map, same]
  cases h : p.tasks.find? fun t => t.ticket == ticket with
  | none => rfl
  | some t =>
    have here : t.ticket = ticket := (task?_spec h).2
    simp [here]

theorem advance_of_prompt {p : Pool α} (h : p.Prompt) {ticket : Nat} {t : Task α}
    (ht : p.task? ticket = some t) :
    p.advance ticket = if t.stage = .granted then p.move ticket .running else p := by
  rcases h.holding t (task?_spec ht).1 with stage | stage <;>
    simp [advance, ht, stage]

theorem finish_of_prompt {p : Pool α} (h : p.Prompt) {ticket : Nat} {t : Task α}
    (ht : p.task? ticket = some t) (stage : t.stage = .running) :
    p.finish ticket =
      { p with tasks := p.tasks.filter fun t => t.ticket != ticket, free := p.free + 1 } := by
  simp [finish, ht, stage, giveBack, h.nobodyWaits]

theorem prompt_finish {p : Pool α} (h : p.Prompt) (distinct : p.tickets.Nodup) {ticket : Nat}
    {t : Task α} (ht : p.task? ticket = some t) (stage : t.stage = .running) :
    (p.finish ticket).Prompt := by
  rw [finish_of_prompt h ht stage]
  obtain ⟨member, rfl⟩ := task?_spec ht
  refine ⟨h.nobodyWaits, fun t ht => h.holding t (List.mem_filter.mp ht).1, ?_⟩
  have length := (perm_cons_filter Task.ticket p.tasks t distinct member).length_eq
  have slots := h.slots
  simp only [List.length_cons] at length
  simp only
  omega

end Pool

end RequestBus
