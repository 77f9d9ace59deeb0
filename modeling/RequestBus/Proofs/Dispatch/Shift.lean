import RequestBus.Proofs.Dispatch.Balance

namespace RequestBus

inductive PoolEvent (α : Type) where
  | submit (job : α)
  | advance (ticket : Nat)
  | finish (ticket : Nat) (crashed : Bool)
  | shutDown (drain : Bool)

namespace Pool

def runs (p : Pool α) (ticket : Nat) : Bool :=
  p.tasks.any fun t => t.ticket == ticket && t.stage == .running

def begins (p : Pool α) (ticket : Nat) : Bool := (p.advance ticket).runs ticket && !p.runs ticket

end Pool

structure Shift (α : Type) where
  pool : Pool α
  issued : Nat := 0
  accepted : List Nat := []
  refused : List Nat := []
  started : List Nat := []
  ended : List Nat := []
  shutdowns : List Bool := []

namespace Shift

def start (name : String) (n : Nat) : Shift α := { pool := .ofCapacity name n }

def step (s : Shift α) : PoolEvent α → Shift α
  | .submit job =>
    let (taken, pool) := s.pool.submit s.issued job
    { s with
      pool
      issued := s.issued + 1
      accepted := s.accepted ++ if taken then [s.issued] else []
      refused := s.refused ++ if taken then [] else [s.issued] }
  | .advance ticket =>
    { s with
      pool := s.pool.advance ticket
      started := s.started ++ if s.pool.begins ticket then [ticket] else [] }
  | .finish ticket _ =>
    { s with
      pool := s.pool.finish ticket
      ended := s.ended ++ if s.pool.runs ticket then [ticket] else [] }
  | .shutDown drain => { s with pool := s.pool.shutDown, shutdowns := s.shutdowns ++ [drain] }

def run (s : Shift α) (events : List (PoolEvent α)) : Shift α := events.foldl step s

theorem run_append (s : Shift α) (first second : List (PoolEvent α)) :
    s.run (first ++ second) = (s.run first).run second :=
  List.foldl_append

end Shift

namespace Pool

variable {p : Pool α} {ticket : Nat}

theorem runs_iff : p.runs ticket = true ↔ ticket ∈ inStage p.tasks .running := by
  rw [mem_inStage]
  simp [runs, and_comm]

theorem nodup_running (h : p.Balanced) : (inStage p.tasks .running).Nodup :=
  h.distinct.sublist (List.filter_sublist.map _)

theorem running_submit (p : Pool α) (ticket : Nat) (job : α) :
    (inStage (p.submit ticket job).2.tasks .running).Perm (inStage p.tasks .running) := by
  have step := p.submitted ticket job
  generalize p.submit ticket job = q at step ⊢
  cases step with
  | refused => exact List.Perm.refl _
  | granted => exact (passes_in p.tasks ticket job .granted).same _ (by decide) (by decide)
  | slotless => exact (passes_in p.tasks ticket job .slotless).same _ (by decide) (by decide)

theorem begins_of_arrives (h : p.Balanced)
    (more : (inStage (p.advance ticket).tasks .running).Perm (ticket :: inStage p.tasks .running)) :
    p.begins ticket = true := by
  have nodup := more.nodup_iff.mp (nodup_running (balanced_advance h ticket))
  have late : p.runs ticket = false := by
    rw [← Bool.not_eq_true, runs_iff]
    exact (List.nodup_cons.mp nodup).1
  have runs := runs_iff.mpr (more.mem_iff.mpr List.mem_cons_self)
  rw [begins, runs, late]
  rfl

theorem begins_of_same
    (same : (inStage (p.advance ticket).tasks .running).Perm (inStage p.tasks .running)) :
    p.begins ticket = false := by
  have runs : (p.advance ticket).runs ticket = p.runs ticket := by
    rw [Bool.eq_iff_iff, runs_iff, runs_iff]
    exact same.mem_iff
  rw [begins, runs, Bool.and_not_self]

theorem running_advance (h : p.Balanced) (ticket : Nat) :
    (inStage (p.advance ticket).tasks .running).Perm
      ((if p.begins ticket then [ticket] else []) ++ inStage p.tasks .running) := by
  cases advanced h.distinct ticket with
  | still same =>
    rw [begins_of_same (by rw [same]), same]
    exact List.Perm.refl _
  | begun _ _ passes | seized _ _ _ passes =>
    have more := passes.arrives (by decide)
    rw [begins_of_arrives h more]
    exact more
  | queued _ _ _ passes =>
    have same := passes.same .running (by decide) (by decide)
    rw [begins_of_same same]
    exact same

theorem running_finish (h : p.Balanced) (ticket : Nat) :
    (inStage p.tasks .running).Perm
      ((if p.runs ticket then [ticket] else []) ++ inStage (p.finish ticket).tasks .running) ∧
    p.tickets.Perm ((if p.runs ticket then [ticket] else []) ++ (p.finish ticket).tickets) := by
  cases finished h ticket with
  | still same idle =>
    rw [if_neg (fun runs => idle (runs_iff.mp runs)), same]
    exact ⟨List.Perm.refl _, List.Perm.refl _⟩
  | freed runs nobody free queue tickets out =>
    rw [if_pos (runs_iff.mpr runs)]
    exact ⟨out.leaves (by decide), tickets⟩
  | passed runs next more line free queue tickets out up =>
    rw [if_pos (runs_iff.mpr runs)]
    exact ⟨(out.leaves (by decide)).trans ((up.same _ (by decide) (by decide)).symm.cons ticket),
      tickets⟩

end Pool

namespace Shift

variable {s : Shift α}

structure Sound (s : Shift α) : Prop where
  balanced : s.pool.Balanced
  early : ∀ t ∈ s.accepted ++ s.refused, t < s.issued
  distinct : (s.accepted ++ s.refused).Nodup
  accepted : s.accepted.Perm (s.ended ++ s.pool.tickets)
  started : s.started.Perm (s.ended ++ inStage s.pool.tasks .running)
  down : s.pool.isShutDown = true ↔ s.shutdowns ≠ []

theorem sound_start (name : String) (n : Nat) : (start name n : Shift α).Sound where
  balanced := Pool.balanced_ofCapacity name n
  early := by simp [start]
  distinct := List.nodup_nil
  accepted := List.Perm.nil
  started := List.Perm.nil
  down := by simp [start, Pool.ofCapacity]

theorem Sound.fresh (h : s.Sound) : s.issued ∉ s.accepted ++ s.refused :=
  fun there => Nat.lt_irrefl _ (h.early _ there)

theorem Sound.fresh_pool (h : s.Sound) : s.issued ∉ s.pool.tickets := fun there =>
  h.fresh (List.mem_append_left _ (h.accepted.mem_iff.mpr (List.mem_append_right _ there)))

theorem sound_submit (h : s.Sound) (job : α) : (s.step (.submit job)).Sound := by
  have tickets := s.pool.tickets_submit s.issued job
  have balanced := Pool.balanced_submit h.balanced h.fresh_pool job
  have running := s.pool.running_submit s.issued job
  have down := (s.pool.frame_submit s.issued job).2
  have perm : ((s.step (.submit job)).accepted ++ (s.step (.submit job)).refused).Perm
      (s.issued :: (s.accepted ++ s.refused)) := by
    simp only [step]
    cases (s.pool.submit s.issued job).1 with
    | true => simp
    | false => simpa using List.perm_append_singleton s.issued (s.accepted ++ s.refused)
  constructor
  case balanced => exact balanced
  case early =>
    intro t ht
    rcases List.mem_cons.mp (perm.mem_iff.mp ht) with rfl | ht
    · exact Nat.lt_succ_self _
    · exact Nat.lt_succ_of_lt (h.early t ht)
  case distinct => exact perm.nodup_iff.mpr (List.nodup_cons.mpr ⟨h.fresh, h.distinct⟩)
  case accepted =>
    simp only [step]
    rw [tickets, ← List.append_assoc]
    exact h.accepted.append_right _
  case started => exact h.started.trans (running.symm.append_left s.ended)
  case down => exact down ▸ h.down

theorem sound_advance (h : s.Sound) (ticket : Nat) : (s.step (.advance ticket)).Sound where
  balanced := Pool.balanced_advance h.balanced ticket
  early := h.early
  distinct := h.distinct
  accepted := by simpa [step] using h.accepted
  started := by
    have running := Pool.running_advance h.balanced ticket
    refine (h.started.append_right _).trans ?_
    rw [List.append_assoc]
    exact (List.perm_append_comm.trans running.symm).append_left s.ended
  down := (s.pool.frame_advance ticket).2 ▸ h.down

theorem sound_finish (h : s.Sound) (ticket : Nat) (crashed : Bool) :
    (s.step (.finish ticket crashed)).Sound := by
  obtain ⟨running, tickets⟩ := Pool.running_finish h.balanced ticket
  constructor
  case balanced => exact Pool.balanced_finish h.balanced ticket
  case early => exact h.early
  case distinct => exact h.distinct
  case accepted =>
    simp only [step, List.append_assoc]
    exact h.accepted.trans (tickets.append_left s.ended)
  case started =>
    simp only [step, List.append_assoc]
    exact h.started.trans (running.append_left s.ended)
  case down => exact (s.pool.frame_finish ticket).2 ▸ h.down

theorem sound_step (h : s.Sound) (e : PoolEvent α) : (s.step e).Sound := by
  cases e with
  | submit job => exact sound_submit h job
  | advance ticket => exact sound_advance h ticket
  | finish ticket crashed => exact sound_finish h ticket crashed
  | shutDown drain =>
    exact ⟨Pool.balanced_shutDown h.balanced, h.early, h.distinct, h.accepted, h.started,
      by simp [step, Pool.shutDown]⟩

theorem sound_run (h : s.Sound) (events : List (PoolEvent α)) : (s.run events).Sound := by
  induction events generalizing s with
  | nil => exact h
  | cons e events ih => exact ih (sound_step h e)

theorem ascending_accepted (h : s.Sound) (ascending : s.accepted.Pairwise (· < ·))
    (events : List (PoolEvent α)) : (s.run events).accepted.Pairwise (· < ·) := by
  induction events generalizing s with
  | nil => exact ascending
  | cons e events ih =>
    refine ih (sound_step h e) ?_
    cases e with
    | submit job =>
      simp only [step]
      split
      · refine List.pairwise_append.mpr ⟨ascending, List.pairwise_singleton _ _, ?_⟩
        intro t accepted u new
        exact List.mem_singleton.mp new ▸ h.early t (List.mem_append_left _ accepted)
      · rwa [List.append_nil]
    | advance | finish | shutDown => exact ascending

end Shift

end RequestBus
