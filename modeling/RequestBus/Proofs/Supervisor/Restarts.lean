import Mathlib.Data.UInt
import RequestBus.Daemon
import RequestBus.Proofs.Dictionary

/-! Restarts of a supervised connection. The wait after a failure doubles from failure to failure,
in words that hold the greatest number where the double is too large; with the limit on top of it
every wait is as long as the exact power of two says. The supervision goes on for as long as
runs fail and the program does not stop, and counts what it starts again. -/
namespace RequestBus

/-! ## The waits -/

namespace Supervisor

theorem toNat_doubled (n : UInt64) :
    (doubled n).toNat = min (2 * n.toNat) (UInt64.size - 1) := by
  unfold doubled
  split
  · rename_i fits
    have whole : (2 * n).toNat = 2 * n.toNat := by
      rw [UInt64.toNat_mul]
      exact Nat.mod_eq_of_lt fits
    rw [whole]
    omega
  · have greatest : (UInt64.ofNat (UInt64.size - 1)).toNat = UInt64.size - 1 := rfl
    rw [greatest]
    omega

/-- The wait after the failure number `k`, counted from zero, in seconds. -/
def wait (initial longest : UInt64) (k : Nat) : Nat :=
  min (max 1 initial.toNat * 2 ^ k) (max longest.toNat (max 1 initial.toNat))

theorem toNat_doubled_limited {b limit : UInt64} {first k : Nat}
    (before : b.toNat = min (first * 2 ^ k) limit.toNat) :
    (min (doubled b) limit).toNat = min (first * 2 ^ (k + 1)) limit.toNat := by
  have within : limit.toNat < UInt64.size := limit.toNat_lt
  have twice : first * 2 ^ (k + 1) = 2 * (first * 2 ^ k) := by
    rw [Nat.pow_succ, ← Nat.mul_assoc, Nat.mul_comm]
  rw [UInt64.toNat_min, toNat_doubled, before, twice]
  generalize first * 2 ^ k = n
  omega

structure Ready (initial longest : UInt64) (k : Nat) (s : Supervisor) : Prop where
  phase : s.phase = .running
  calm : s.stopsAll = false
  limit : s.longest.toNat = max longest.toNat (max 1 initial.toNat)
  backoff : s.backoff.toNat = wait initial longest k

variable {initial longest : UInt64} {k : Nat} {s : Supervisor}

theorem ready_start (initial longest : UInt64) :
    Ready initial longest 0 (start initial longest) where
  phase := rfl
  calm := rfl
  limit := by simp [start, UInt64.toNat_max, Nat.max_comm]
  backoff := by
    simp only [start, wait, UInt64.toNat_max, UInt64.toNat_one]
    omega

theorem Ready.elapsed (h : Ready initial longest k s) (seconds : UInt64) (reports : List Mark) :
    Ready initial longest (k + 1)
      { s with phase := .waiting seconds, reports }.elapsed where
  phase := rfl
  calm := h.calm
  limit := h.limit
  backoff := by
    have before := h.backoff
    rw [wait, ← h.limit] at before ⊢
    exact toNat_doubled_limited before

end Supervisor

/-! ## The ends of runs -/

namespace RunEnd

def marks : RunEnd → List Mark
  | .finished => []
  | .failed e => if e.isFatal then [.error e.message] else [.error e.message, .restart]
  | .crashed text => [.error (Supervisor.crashReport text), .restart]

def isRetried : RunEnd → Bool
  | .finished => false
  | .failed e => !e.isFatal
  | .crashed _ => true

end RunEnd

def Mark.isRestart : Mark → Bool
  | .restart => true
  | _ => false

theorem RunEnd.restarts_marks (e : RunEnd) :
    e.marks.countP Mark.isRestart = if e.isRetried then 1 else 0 := by
  cases e with
  | finished | crashed => rfl
  | failed e => cases fatal : e.isFatal <;> simp [marks, isRetried, fatal, Mark.isRestart]

namespace Supervisor

theorem ended_cases {s : Supervisor} (running : s.phase = .running) (e : RunEnd) :
    (e.isRetried = true ∧
      s.ended e = { s with phase := .waiting s.backoff, reports := s.reports ++ e.marks }) ∨
    (e = .finished ∧ s.ended e = { s with phase := .ended (.ok ()) }) ∨
    (∃ error, e = .failed error ∧ error.isFatal = true ∧ s.ended e = { s with
      phase := .ended (.error error), stopsAll := true, reports := s.reports ++ e.marks }) := by
  cases e with
  | finished => exact .inr (.inl ⟨rfl, by simp [ended, running]⟩)
  | crashed text => exact .inl ⟨rfl, by simp [ended, running, retry, RunEnd.marks]⟩
  | failed error =>
    cases fatal : error.isFatal with
    | true => exact .inr (.inr ⟨error, rfl, fatal, by simp [ended, running, fatal, RunEnd.marks]⟩)
    | false =>
      exact .inl ⟨by simp [RunEnd.isRetried, fatal],
        by simp [ended, running, fatal, retry, RunEnd.marks]⟩

end Supervisor

/-! ## The course of a supervision -/

namespace Timeline

/-- How a supervision of these runs ends. -/
inductive Ending (stop : Nat) (runs : List ScriptedRun) (t : Timeline) : Prop
  | finished (starts : t.starts.length = t.waits.length + 1)
      (outcome : ∀ run, runs[t.waits.length]? = some run → run.outcome = .finished)
      (result : t.last.phase = .ended (.ok ())) (calm : t.last.stopsAll = false)
      (stopped : t.stopped = none) : Ending stop runs t
  | fatal (run : ScriptedRun) (error : BusError) (now : Nat)
      (starts : t.starts.length = t.waits.length + 1)
      (here : runs[t.waits.length]? = some run) (began : t.starts[t.waits.length]? = some now)
      (outcome : run.outcome = .failed error) (fatal : error.isFatal = true)
      (result : t.last.phase = .ended (.error error)) (stops : t.last.stopsAll = true)
      (stopped : t.stopped = some (now + run.length)) : Ending stop runs t
  | cut (k : Nat) (run : ScriptedRun) (now : Nat) (seconds : UInt64)
      (waits : t.waits.length = k + 1) (starts : t.starts.length = k + 1)
      (here : runs[k]? = some run) (began : t.starts[k]? = some now)
      (last : t.waits[k]? = some seconds)
      (early : stop < now + run.length + 1000 * seconds.toNat)
      (result : t.last.phase = .ended (.ok ())) (calm : t.last.stopsAll = false)
      (stopped : t.stopped = none) : Ending stop runs t

/-- The course of a supervision from a moment at which a run begins, `k` waits and the reports
`before` after its own beginning. -/
structure Course (initial longest : UInt64) (stop k now : Nat) (before : List Mark)
    (runs : List ScriptedRun) (t : Timeline) : Prop where
  begins : t.starts[0]? = some now
  waited : ∀ j < t.starts.length, ∀ run, runs[j]? = some run → run.outcome.isRetried = true →
    j < t.waits.length
  retried : ∀ j < t.waits.length, ∃ run, runs[j]? = some run ∧ run.outcome.isRetried = true
  waits : ∀ j seconds, t.waits[j]? = some seconds →
    seconds.toNat = Supervisor.wait initial longest (j + k)
  follows : ∀ j one next, t.starts[j]? = some one → t.starts[j + 1]? = some next →
    ∃ run seconds, runs[j]? = some run ∧ t.waits[j]? = some seconds ∧
      next = one + run.length + 1000 * seconds.toNat ∧ next ≤ stop
  reports : t.last.reports =
    before ++ (runs.take t.starts.length).flatMap fun run => run.outcome.marks
  restarts : t.last.reports.countP Mark.isRestart =
    before.countP Mark.isRestart + t.waits.length
  ending : Ending stop runs t

section Again
variable {initial longest seconds : UInt64} {stop k now due : Nat} {before : List Mark}
  {run : ScriptedRun} {more : List ScriptedRun} {rest : Timeline}

theorem Ending.again (h : Ending stop more rest) : Ending stop (run :: more)
    { rest with starts := now :: rest.starts, waits := seconds :: rest.waits } := by
  cases h with
  | finished starts outcome result calm stopped =>
    exact .finished (congrArg (· + 1) starts) outcome result calm stopped
  | fatal last error one starts here began outcome fatal result stops stopped =>
    exact .fatal last error one (congrArg (· + 1) starts) here began outcome fatal result stops
      stopped
  | cut j last one wait waits starts here began asked early result calm stopped =>
    exact .cut (j + 1) last one wait (congrArg (· + 1) waits) (congrArg (· + 1) starts) here began
      asked early result calm stopped

theorem Course.again (h : Course initial longest stop (k + 1) due (before ++ run.outcome.marks)
      more rest) (retried : run.outcome.isRetried = true)
    (wait : seconds.toNat = Supervisor.wait initial longest k)
    (sum : due = now + run.length + 1000 * seconds.toNat) (inTime : due ≤ stop) :
    Course initial longest stop k now before (run :: more)
      { rest with starts := now :: rest.starts, waits := seconds :: rest.waits } where
  begins := rfl
  waited := by
    rintro (_ | j) within last there worth
    · exact Nat.succ_pos _
    · exact Nat.succ_lt_succ (h.waited j (Nat.lt_of_succ_lt_succ within) last there worth)
  retried := by
    rintro (_ | j) within
    · exact ⟨run, rfl, retried⟩
    · exact h.retried j (Nat.lt_of_succ_lt_succ within)
  waits := by
    rintro (_ | j) asked there
    · obtain rfl : seconds = asked := Option.some.inj there
      rw [wait, Nat.zero_add]
    · rw [h.waits j asked there, Nat.add_right_comm, Nat.add_assoc]
  follows := by
    rintro (_ | j) one next first second
    · obtain rfl : now = one := Option.some.inj first
      obtain rfl : due = next := Option.some.inj (h.begins.symm.trans second)
      exact ⟨run, seconds, rfl, rfl, sum, inTime⟩
    · exact h.follows j one next first second
  reports := by
    rw [h.reports]
    simp
  restarts := by
    rw [h.restarts, List.countP_append, run.outcome.restarts_marks, retried]
    simp
    omega
  ending := h.ending.again

end Again

end Timeline

namespace Supervisor

theorem course_follow {initial longest : UInt64} {k : Nat} {s : Supervisor}
    (h : Ready initial longest k s) (stop now : Nat) (runs : List ScriptedRun) :
    Timeline.Course initial longest stop k now s.reports runs (s.follow stop now runs) := by
  -- a wait that is over hands on the next power of two, the reports so far and the time
  induction runs generalizing s k now with
  | nil =>
    have well : s.ended .finished = { s with phase := .ended (.ok ()) } := by simp [ended, h.phase]
    rw [follow, well]
    exact ⟨rfl, by simp, by simp, by simp, by simp, by simp, by simp,
      .finished rfl (by simp) rfl h.calm rfl⟩
  | cons run more ih =>
    have alone : (run :: more).take 1 = [run] := rfl
    rcases ended_cases h.phase run.outcome with
      ⟨retried, waits⟩ | ⟨finished, well⟩ | ⟨error, failed, fatal, stops⟩
    · rw [follow, waits]
      simp only
      split
      · rename_i inTime
        exact (ih (h.elapsed _ _) _).again retried h.backoff rfl inTime
      · rename_i late
        exact {
          begins := rfl
          waited := fun j within _ _ _ => within
          retried := by
            rintro j within
            obtain rfl : j = 0 := Nat.lt_one_iff.mp within
            exact ⟨run, rfl, retried⟩
          waits := by
            rintro (_ | j) asked there
            · obtain rfl : s.backoff = asked := Option.some.inj there
              rw [h.backoff, Nat.zero_add]
            · contradiction
          follows := by simp
          reports := by simp [cut]
          restarts := by simp [cut, run.outcome.restarts_marks, retried]
          ending := .cut 0 run now s.backoff rfl rfl rfl rfl rfl (by omega) rfl h.calm rfl }
    · rw [follow, well]
      refine ⟨rfl, by simp [finished, RunEnd.isRetried], by simp, by simp, by simp,
        by simp [finished, RunEnd.marks], by simp, .finished rfl ?_ rfl h.calm (by simp [h.calm])⟩
      rintro _ ⟨⟩
      exact finished
    · have final : run.outcome.marks.countP Mark.isRestart = 0 := by
        rw [run.outcome.restarts_marks, failed]
        simp [RunEnd.isRetried, fatal]
      rw [follow, stops]
      exact ⟨rfl, by simp [failed, RunEnd.isRetried, fatal], by simp, by simp, by simp, by simp,
        by simp [final], .fatal run error now rfl rfl rfl failed fatal rfl rfl rfl⟩

end Supervisor

/-! ## Restarts on record -/

def Health.restarts (h : Health) (name : String) : Nat :=
  (h.get? name).elim 0 fun c => c.restarts.toNat

namespace Health

theorem restarts_le (h : Health) (name : String) : h.restarts name ≤ UInt64.size - 1 := by
  unfold restarts
  cases h.get? name with
  | none => exact Nat.zero_le _
  | some c =>
    have within := c.restarts.toNat_lt
    simp only [Option.elim_some, UInt64.size]
    omega

theorem toNat_restarts_mark (c : Component) (now : String) (m : Mark) :
    (c.mark now m).restarts.toNat =
      min (c.restarts.toNat + if m.isRestart then 1 else 0) (UInt64.size - 1) := by
  have within : c.restarts.toNat < UInt64.size := c.restarts.toNat_lt
  cases m with
  | restart =>
    simp only [Component.mark, Mark.isRestart, if_true]
    split
    · rename_i fits
      rw [UInt64.toNat_add, UInt64.toNat_one, Nat.mod_eq_of_lt fits]
      omega
    · omega
  | _ =>
    simp only [Component.mark, Mark.isRestart, Bool.false_eq_true, if_false]
    omega

theorem restarts_mark (h : Health) (now name other : String) (m : Mark) :
    (h.mark now other m).restarts name =
      min (h.restarts name + if other == name && m.isRestart then 1 else 0)
        (UInt64.size - 1) := by
  have within := h.restarts_le name
  rw [restarts, mark, Dictionary.get?_insert]
  split
  · rename_i same
    subst same
    rw [Option.elim_some, toNat_restarts_mark]
    cases known : h.get? name with
    | none => simp [restarts, known]
    | some c => simp [restarts, known]
  · rename_i different
    rw [← restarts]
    simp only [beq_iff_eq, Ne.symm different, Bool.and_eq_true, false_and, if_false]
    omega

abbrev Report := String × String × Mark

def hear (h : Health) (news : List Report) : Health :=
  news.foldl (fun h r => h.mark r.1 r.2.1 r.2.2) h

def restartsOf (name : String) (news : List Report) : Nat :=
  news.countP fun r => r.2.1 == name && r.2.2.isRestart

theorem restarts_hear (h : Health) (name : String) (news : List Report) :
    (h.hear news).restarts name =
      min (h.restarts name + restartsOf name news) (UInt64.size - 1) := by
  induction news generalizing h with
  | nil => exact (Nat.min_eq_left (h.restarts_le name)).symm
  | cons r news ih =>
    have rest := ih (h.mark r.1 r.2.1 r.2.2)
    rw [restarts_mark] at rest
    rw [hear, List.foldl_cons, ← hear, rest, restartsOf, restartsOf, List.countP_cons]
    omega

end Health

namespace Supervisor

theorem start_again (initial longest : UInt64) :
    start (max initial 1) (max longest (max initial 1)) = start initial longest := by
  have first : max (max initial 1) 1 = max initial 1 := by
    rw [← UInt64.toNat_inj]
    simp only [UInt64.toNat_max]
    omega
  have limit : max (max longest (max initial 1)) (max initial 1) =
      max longest (max initial 1) := by
    rw [← UInt64.toNat_inj]
    simp only [UInt64.toNat_max]
    omega
  simp only [start, first, limit]

/-- A supervision, whatever becomes of its runs: the waits are the exact powers of two up to the
limit, it ends in one of three ways, and the restarts on record are the waits, as far as a word
can count them. -/
theorem restarts_back_off (initial longest : UInt64) (stop : Nat) (runs : List ScriptedRun) :
    let t := (start initial longest).follow stop 0 runs
    Timeline.Course initial longest stop 0 0 [] runs t ∧
    (∀ s : Settings, s.supervisor =
      start s.reliability.initialBackoff s.reliability.maxBackoff) ∧
    ∀ (h : Health) (name : String) (news : List Health.Report), h.restarts name = 0 →
      Health.restartsOf name news = t.last.reports.countP Mark.isRestart →
      (h.hear news).restarts name = min t.waits.length (UInt64.size - 1) ∧
      (t.waits.length < UInt64.size → (h.hear news).restarts name = t.waits.length) := by
  intro t
  have course := course_follow (ready_start initial longest) stop 0 runs
  refine ⟨course, fun s => start_again _ _, fun h name news fresh heard => ?_⟩
  have counted := h.restarts_hear name news
  have restarts : t.last.reports.countP Mark.isRestart = t.waits.length := by
    rw [course.restarts]
    exact Nat.zero_add _
  rw [fresh, Nat.zero_add, heard, restarts] at counted
  exact ⟨counted, fun few => by omega⟩

/-- Two failures, and then one that nothing helps against. -/
theorem restarts_back_off_of_three :
    let runs : List ScriptedRun := [⟨500, .crashed "a"⟩, ⟨0, .failed (.tls "b")⟩,
      ⟨10, .failed (.authentication "c")⟩]
    let t := (start 0 1).follow 4000 0 runs
    let late := (start 3 9).follow 4000 0 runs
    t.starts = [0, 1500, 2500] ∧ t.waits = [1, 1] ∧ t.stopped = some 2510 ∧
    late.starts = [0, 3500] ∧ late.waits = [3, 6] ∧ late.stopped = none ∧
    Timeline.Course 0 1 4000 0 0 [] runs t ∧ Timeline.Course 3 9 4000 0 0 [] runs late ∧
    (Health.hear Dictionary.empty (late.last.reports.map fun m => ("", "x", m))).restarts "x" =
      2 := by
  intro runs t late
  have counted := (restarts_back_off 3 9 4000 runs).2.2 Dictionary.empty "x"
    (late.last.reports.map fun m => ("", "x", m)) rfl (by decide)
  exact ⟨by decide, by decide, by decide, by decide, by decide, by decide,
    (restarts_back_off 0 1 4000 runs).1, (restarts_back_off 3 9 4000 runs).1,
    counted.2 (by decide)⟩

end Supervisor

end RequestBus
