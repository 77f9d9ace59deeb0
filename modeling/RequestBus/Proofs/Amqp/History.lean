import Mathlib.Data.List.DropRight
import RequestBus.Amqp.State

/-! What the state of an AMQP connection says about its past. A consumer runs if and only if
every step of the setup has come in its order since the transport was last lost, whatever else has
come in between; once a connection is asked to stop it closes, and nothing brings it back. -/
namespace RequestBus

namespace AmqpEvent

def setup : List AmqpEvent :=
  [.connect, .channelOpened, .exchangeVerified, .queueBound, .consumerStarted]

def isLoss : AmqpEvent → Bool
  | .connectionLost | .channelClosed => true
  | _ => false

end AmqpEvent

def sinceLoss (history : List AmqpEvent) : List AmqpEvent :=
  history.rtakeWhile fun e => !e.isLoss

namespace AmqpState

def after (history : List AmqpEvent) : AmqpState := history.foldl next .disconnected

/-- The number of steps of the setup that are done. -/
def rungs : AmqpState → Nat
  | .disconnected | .closing | .closed => 0
  | .connecting => 1
  | .channelOpen => 2
  | .exchangeVerified => 3
  | .queueBound => 4
  | .subscribed => 5

def IsOpen (s : AmqpState) : Prop := s ≠ .closing ∧ s ≠ .closed

variable {s : AmqpState} {e : AmqpEvent} {history : List AmqpEvent}

theorem after_concat (history : List AmqpEvent) (e : AmqpEvent) :
    after (history ++ [e]) = (after history).next e := by
  simp [after]

theorem isShuttingDown_shown : s.shown.isShuttingDown = true ↔ s = .closing ∨ s = .closed := by
  cases s <;> decide

theorem rungs_next (opened : s.IsOpen) (running : e ≠ .shutdownRequested) :
    (s.next e).IsOpen ∧ (s.next e).rungs =
      if e.isLoss then 0 else if AmqpEvent.setup[s.rungs]? = some e then s.rungs + 1
      else s.rungs := by
  obtain ⟨notClosing, notClosed⟩ := opened
  cases s <;> cases e <;> first | contradiction | exact ⟨by simp [next, IsOpen], rfl⟩

theorem take_sublist_concat {pattern l : List α} {a : α} {k : Nat} (within : k ≤ pattern.length) :
    (pattern.take k).Sublist (l ++ [a]) ↔ (pattern.take k).Sublist l ∨
      ∃ j, k = j + 1 ∧ pattern[j]? = some a ∧ (pattern.take j).Sublist l := by
  constructor
  · intro stands
    obtain ⟨first, last, split, inside, rest⟩ := List.sublist_append_iff.mp stands
    rcases List.sublist_singleton.mp rest with rfl | rfl
    · rw [List.append_nil] at split
      exact .inl (split ▸ inside)
    · cases k with
      | zero => simp at split
      | succ j =>
        rw [List.take_add_one, List.getElem?_eq_getElem (by omega), Option.toList_some] at split
        obtain ⟨rfl, same⟩ := List.append_inj' split rfl
        exact .inr ⟨j, rfl, by simpa [List.getElem?_eq_getElem (show j < pattern.length by omega)]
          using same, inside⟩
  · rintro (inside | ⟨j, rfl, last, inside⟩)
    · exact inside.trans (List.sublist_append_left l [a])
    · rw [List.take_add_one, last]
      exact inside.append (List.Sublist.refl _)

/-- As long as nobody asks the connection to stop, its state tells how much of the setup stands in
its past since the last loss. -/
theorem rungs_after (running : .shutdownRequested ∉ history) : (after history).IsOpen ∧
    ∀ k ≤ AmqpEvent.setup.length,
      (AmqpEvent.setup.take k).Sublist (sinceLoss history) ↔ k ≤ (after history).rungs := by
  -- on the last event: only the next step of the setup lengthens the beginning that stands there
  induction history using List.reverseRecOn with
  | nil =>
    refine ⟨by simp [after, IsOpen], fun k within => ?_⟩
    cases k <;> simp [sinceLoss, AmqpEvent.setup, after, rungs]
  | append_singleton history e ih =>
    simp only [List.mem_append, List.mem_singleton, not_or] at running
    obtain ⟨opened, counted⟩ := ih running.1
    obtain ⟨stays, rungs⟩ := rungs_next opened (Ne.symm running.2)
    rw [after_concat]
    refine ⟨stays, fun k within => ?_⟩
    rw [rungs]
    cases lost : e.isLoss with
    | true =>
      have nothing : sinceLoss (history ++ [e]) = [] :=
        List.rtakeWhile_concat_neg _ _ _ (by simp [lost])
      rw [nothing, List.sublist_nil, List.take_eq_nil_iff]
      simp [AmqpEvent.setup]
    | false =>
      have more : sinceLoss (history ++ [e]) = sinceLoss history ++ [e] :=
        List.rtakeWhile_concat_pos _ _ _ (by simp [lost])
      rw [more, take_sublist_concat within, counted k within, if_neg Bool.false_ne_true]
      constructor
      · rintro (done | ⟨j, rfl, last, inside⟩)
        · split <;> omega
        · have done := (counted j (by omega)).mp inside
          rcases Nat.lt_or_eq_of_le done with earlier | rfl
          · split <;> omega
          · rw [if_pos last]
      · intro done
        by_cases last : AmqpEvent.setup[(after history).rungs]? = some e
        · rw [if_pos last] at done
          rcases Nat.lt_or_eq_of_le done with earlier | rfl
          · exact .inl (by omega)
          · exact .inr ⟨_, rfl, last, (counted _ (by omega)).mpr (Nat.le_refl _)⟩
        · rw [if_neg last] at done
          exact .inl done

theorem foldl_closed (later : List AmqpEvent) : later.foldl next .closed = .closed := by
  induction later with
  | nil => rfl
  | cons e later ih => cases e <;> exact ih

theorem foldl_closing (later : List AmqpEvent) :
    later.foldl next .closing = if .closed ∈ later then .closed else .closing := by
  induction later with
  | nil => rfl
  | cons e later ih =>
    cases e with
    | closed => exact (foldl_closed later).trans (by simp)
    | _ => exact ih.trans (by simp)

theorem after_stop {before : List AmqpEvent} (running : .shutdownRequested ∉ before)
    (later : List AmqpEvent) : after (before ++ .shutdownRequested :: later) =
      if .closed ∈ later then .closed else .closing := by
  have stops : (after before).next .shutdownRequested = .closing := by
    have opened := (rungs_after running).1
    cases state : after before with
    | closed => exact absurd state opened.2
    | _ => rfl
  rw [after, List.foldl_append, List.foldl_cons, ← after, stops, foldl_closing]

theorem closing_or_closed_iff (history : List AmqpEvent) :
    (after history = .closing ∨ after history = .closed) ↔ .shutdownRequested ∈ history := by
  constructor
  · intro ended
    by_contra running
    obtain ⟨notClosing, notClosed⟩ := (rungs_after running).1
    exact ended.elim notClosing notClosed
  · intro stopped
    obtain ⟨before, later, rfl, running⟩ := List.eq_append_cons_of_mem stopped
    rw [after_stop running]
    split <;> simp

theorem closed_iff (history : List AmqpEvent) : after history = .closed ↔
    ∃ before later, history = before ++ .shutdownRequested :: later ∧
      .shutdownRequested ∉ before ∧ .closed ∈ later := by
  constructor
  · intro ended
    have stopped := (closing_or_closed_iff history).mp (.inr ended)
    obtain ⟨before, later, rfl, running⟩ := List.eq_append_cons_of_mem stopped
    refine ⟨before, later, rfl, running, ?_⟩
    rw [after_stop running] at ended
    by_contra working
    simp [working] at ended
  · rintro ⟨before, later, rfl, running, ended⟩
    rw [after_stop running, if_pos ended]

theorem subscribed_iff (history : List AmqpEvent) : after history = .subscribed ↔
    .shutdownRequested ∉ history ∧ AmqpEvent.setup.Sublist (sinceLoss history) := by
  by_cases stopped : .shutdownRequested ∈ history
  · have ended := (closing_or_closed_iff history).mpr stopped
    simp only [stopped, not_true_eq_false, false_and, iff_false]
    intro subscribed
    simp [subscribed] at ended
  · obtain ⟨opened, counted⟩ := rungs_after stopped
    have whole := counted AmqpEvent.setup.length (Nat.le_refl _)
    rw [List.take_length] at whole
    simp only [stopped, not_false_eq_true, true_and, whole]
    cases state : after history <;> simp [rungs, AmqpEvent.setup]

/-- A stale step is passed over, and a setup need not be done in one go. -/
example : after [.queueBound, .connect, .connectionLost, .connect, .channelOpened, .connect,
    .exchangeVerified, .queueBound, .consumerStarted] = .subscribed := rfl

end AmqpState

end RequestBus
