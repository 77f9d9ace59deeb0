import RequestBus.Dispatch.Crew
import RequestBus.Proofs.Dispatch.Accounts
import RequestBus.Proofs.Dispatch.Turns

/-! A crew and its pool. Whatever a crew is told and however it takes its turns, its pool goes
through a course of events; and once the crew has settled, all that is left of its tasks waits for
something from outside. -/
namespace RequestBus

namespace Pool

variable {p : Pool α} {ticket u : Nat}

theorem settled_of_forall
    (none : ∀ stage : Stage, stage.isRestless = true → ∀ u, u ∉ inStage p.tasks stage) :
    p.Settled :=
  settled_iff.mpr ⟨List.eq_nil_iff_forall_not_mem.mpr (none .granted rfl),
    List.eq_nil_iff_forall_not_mem.mpr (none .slotless rfl)⟩

theorem mem_running_iff (distinct : p.tickets.Nodup) :
    ticket ∈ inStage p.tasks .running ↔ (p.task? ticket).map Task.stage = some .running := by
  constructor
  · intro running
    by_contra other
    refine not_running_of_task? distinct (fun t found stage => other ?_) running
    rw [found, Option.map_some, stage]
  · intro running
    obtain ⟨t, found, stage⟩ := Option.map_eq_some_iff.mp running
    obtain ⟨member, here⟩ := task?_spec found
    exact mem_inStage.mpr ⟨t, member, stage, here⟩

theorem restless_finish (h : p.Balanced) {stage : Stage} (restless : stage.isRestless = true)
    (runs : ticket ∈ inStage p.tasks .running)
    (there : u ∈ inStage (p.finish ticket).tasks stage) :
    (u ∈ inStage p.tasks stage ∧ u ≠ ticket) ∨ u ∈ p.queue.take 1 := by
  have other (before : u ∈ inStage p.tasks stage) : u ≠ ticket := by
    rintro rfl
    cases stage_unique h.distinct before runs
    contradiction
  cases finished h ticket with
  | still same idle => exact absurd runs idle
  | freed _ nobody free queue tickets out =>
    have before := out.before_of_after (by simp) there
    exact .inl ⟨before, other before⟩
  | passed _ next more line free queue tickets out up =>
    by_cases arrived : stage = .granted
    · subst arrived
      rcases List.mem_cons.mp ((up.arrives (by decide)).mem_iff.mp there) with rfl | there
      · exact .inr (by simp [line])
      · have before := out.before_of_after (by simp) there
        exact .inl ⟨before, other before⟩
    · have before := out.before_of_after (by simp)
        (up.before_of_after (by simpa using Ne.symm arrived) there)
      exact .inl ⟨before, other before⟩

end Pool

namespace Crew

variable {c : Crew} {s : Shift (String × Duty)} {ready : List Nat} {ticket : Nat}

inductive Turned (c : Crew) (ticket : Nat) : Pool (String × Duty) → List Nat → Prop
  | absent (gone : c.pool.task? ticket = none) : Turned c ticket c.pool []
  | advances : Turned c ticket (c.pool.advance ticket) []
  | finishes (runs : (c.pool.task? ticket).map Task.stage = some .running) :
      Turned c ticket (c.pool.finish ticket) (c.pool.queue.take 1)
  | runsThrough (runs : ((c.pool.advance ticket).task? ticket).map Task.stage = some .running) :
      Turned c ticket ((c.pool.advance ticket).finish ticket)
        ((c.pool.advance ticket).queue.take 1)

theorem turned (c : Crew) (ticket : Nat) :
    Turned c ticket (turn ticket c).1.pool (turn ticket c).2 ∧
    (turn ticket c).1.issued = c.issued ∧ (turn ticket c).1.shutdowns = c.shutdowns := by
  unfold turn
  split
  · rename_i gone
    exact ⟨.absent gone, rfl, rfl⟩
  · rename_i found
    exact ⟨.finishes (by rw [found]; rfl), rfl, rfl⟩
  · rename_i id duty stage _ _
    simp only
    split
    · rename_i runs
      cases duty with
      | crashes | instant => exact ⟨.runsThrough runs, rfl, rfl⟩
      | patient =>
        simp only
        generalize Gate.enter _ _ _ = entered
        obtain ⟨passed, gate⟩ := entered
        cases passed with
        | true => exact ⟨.runsThrough runs, rfl, rfl⟩
        | false => exact ⟨.advances, rfl, rfl⟩
    · exact ⟨.advances, rfl, rfl⟩

theorem Turned.length_woken {p : Pool (String × Duty)} {woken : List Nat}
    (h : Turned c ticket p woken) : woken.length ≤ 1 := by
  cases h with
  | absent | advances => exact Nat.zero_le 1
  | finishes | runsThrough => exact List.length_take_le 1 _

theorem Turned.falls {p : Pool (String × Duty)} {woken : List Nat}
    (h : Turned c ticket p woken) : woken.length + p.tasks.length ≤ c.pool.tasks.length := by
  have one := h.length_woken
  have advance := c.pool.length_advance ticket
  cases h with
  | absent | advances => simp [advance]
  | finishes runs =>
    have fewer := Pool.length_finish runs
    omega
  | runsThrough runs =>
    have fewer := Pool.length_finish runs
    omega

theorem ready_settle (c : Crew) : c.settle.ready = [] := by
  refine takeTurns_ready turn (fun c => c.pool.tasks.length) (fun t c => (c.turned t).1.falls) _ ?_
  omega

theorem Turned.restless {p : Pool (String × Duty)} {woken : List Nat} (h : Turned c ticket p woken)
    (balanced : c.pool.Balanced) {stage : Stage} (restless : stage.isRestless = true) {u : Nat}
    (there : u ∈ inStage p.tasks stage) :
    (u ∈ inStage c.pool.tasks stage ∧ u ≠ ticket) ∨ u ∈ woken := by
  cases h with
  | absent gone =>
    refine .inl ⟨there, ?_⟩
    rintro rfl
    obtain ⟨t, ht, -, here⟩ := mem_inStage.mp there
    exact List.find?_eq_none.mp gone t ht (beq_iff_eq.mpr here)
  | advances => exact .inl (Pool.restless_advance balanced restless there)
  | finishes runs =>
    have runs := (Pool.mem_running_iff balanced.distinct).mpr runs
    exact Pool.restless_finish balanced restless runs there
  | runsThrough runs =>
    have advanced := Pool.balanced_advance balanced ticket
    have runs := (Pool.mem_running_iff advanced.distinct).mpr runs
    rcases Pool.restless_finish advanced restless runs there with ⟨before, -⟩ | woken
    · exact .inl (Pool.restless_advance balanced restless before)
    · exact .inr woken

/-- The crew's pool is as a course of events has left it, and those of its tasks that can go on
are ready. -/
structure Follows (s : Shift (String × Duty)) (ready : List Nat) (c : Crew) : Prop where
  pool : s.pool = c.pool
  issued : s.issued = c.issued
  shutdowns : s.shutdowns = c.shutdowns
  sound : s.Sound
  alert : ∀ stage : Stage, stage.isRestless = true → ∀ u ∈ inStage c.pool.tasks stage, u ∈ ready

theorem Follows.balanced (h : c.Follows s ready) : c.pool.Balanced := h.pool ▸ h.sound.balanced

theorem Follows.settled (h : c.Follows s []) : c.pool.Settled :=
  Pool.settled_of_forall fun stage restless u there =>
    List.not_mem_nil (h.alert stage restless u there)

theorem Follows.settled_of_runs (h : c.Follows s [ticket])
    (runs : (c.pool.task? ticket).map Task.stage = some .running) : c.pool.Settled := by
  refine Pool.settled_of_forall fun stage restless u there => ?_
  have same := List.mem_singleton.mp (h.alert stage restless u there)
  subst same
  have distinct := h.balanced.distinct
  cases Pool.stage_unique distinct there ((Pool.mem_running_iff distinct).mpr runs)
  contradiction

theorem Follows.settled_advance (h : c.Follows s [ticket]) :
    (c.pool.advance ticket).Settled := by
  refine Pool.settled_of_forall fun stage restless u there => ?_
  obtain ⟨before, other⟩ := Pool.restless_advance h.balanced restless there
  exact other (List.mem_singleton.mp (h.alert stage restless u before))

theorem Follows.alert_turned {more woken : List Nat} {p : Pool (String × Duty)}
    (h : c.Follows s (ticket :: more)) (turned : Turned c ticket p woken) (stage : Stage)
    (restless : stage.isRestless = true) (u : Nat) (there : u ∈ inStage p.tasks stage) :
    u ∈ more ++ woken := by
  rcases turned.restless h.balanced restless there with ⟨before, other⟩ | woken
  · rcases List.mem_cons.mp (h.alert stage restless u before) with same | later
    · exact absurd same other
    · exact List.mem_append_left _ later
  · exact List.mem_append_right _ woken

theorem follows_turn {more : List Nat} (h : c.Follows s (ticket :: more)) :
    ∃ events, (turn ticket c).1.Follows (s.run events) (more ++ (turn ticket c).2) ∧
      (more = [] → s.Paced events) := by
  obtain ⟨turned, issued, shutdowns⟩ := c.turned ticket
  have follows (events : List (PoolEvent (String × Duty)))
      (pool : (s.run events).pool = (turn ticket c).1.pool)
      (same : (s.run events).issued = s.issued ∧ (s.run events).shutdowns = s.shutdowns) :
      (turn ticket c).1.Follows (s.run events) (more ++ (turn ticket c).2) :=
    ⟨pool, by rw [same.1, h.issued, issued], by rw [same.2, h.shutdowns, shutdowns],
      Shift.sound_run h.sound events, h.alert_turned turned⟩
  generalize (turn ticket c).1.pool = p at turned follows
  generalize (turn ticket c).2 = woken at turned follows
  cases turned with
  | absent => exact ⟨[], follows [] h.pool ⟨rfl, rfl⟩, fun _ => trivial⟩
  | advances =>
    refine ⟨[.advance ticket], follows _ ?_ ⟨rfl, rfl⟩, fun _ => trivial⟩
    exact congrArg (Pool.advance · ticket) h.pool
  | finishes runs =>
    refine ⟨[.finish ticket false], follows _ ?_ ⟨rfl, rfl⟩, ?_⟩
    · exact congrArg (Pool.finish · ticket) h.pool
    · rintro rfl
      exact ⟨h.pool.symm ▸ h.settled_of_runs runs, trivial⟩
  | runsThrough runs =>
    refine ⟨[.advance ticket, .finish ticket false], follows _ ?_ ⟨rfl, rfl⟩, ?_⟩
    · exact congrArg (fun p => (Pool.advance p ticket).finish ticket) h.pool
    · rintro rfl
      refine ⟨?_, trivial⟩
      simpa only [Shift.step, h.pool] using h.settled_advance

theorem follows_settle (h : c.Follows s c.ready) :
    ∃ events, c.settle.Follows (s.run events) [] ∧ (c.ready.length ≤ 1 → s.Paced events) := by
  -- from one who is ready a turn leads to one at most, so tasks end one by one
  have kept := takeTurns_keeps turn (fun ready (next : Crew) => ∃ events,
    next.Follows (s.run events) ready ∧
      (c.ready.length ≤ 1 → s.Paced events ∧ ready.length ≤ 1)) ?_
    (c.ready.length + 3 * c.pool.tasks.length) c.ready c
    ⟨[], h, fun one => ⟨trivial, one⟩⟩
  · have nobody : (takeTurns turn _ c.ready c).2 = [] := c.ready_settle
    rw [nobody] at kept
    obtain ⟨events, follows, paced⟩ := kept
    exact ⟨events, ⟨follows.pool, follows.issued, follows.shutdowns, follows.sound,
      follows.alert⟩, fun one => (paced one).1⟩
  · rintro ticket more next ⟨events, follows, paced⟩
    obtain ⟨later, follows, paced'⟩ := follows_turn follows
    refine ⟨events ++ later, Shift.run_append s events later ▸ follows, fun one => ?_⟩
    obtain ⟨first, alone⟩ := paced one
    have nobody : more = [] := List.length_eq_zero_iff.mp (by simpa using alone)
    subst nobody
    exact ⟨Shift.paced_append.mpr ⟨first, paced' rfl⟩, (next.turned ticket).1.length_woken⟩

/-- What a crew is told from outside, and when it is given the time to settle. -/
inductive Order where
  | submit (id : String) (duty : Duty)
  | call (id : String)
  | shutDown (drain : Bool)
  | settle

def obey (c : Crew) : Order → Crew
  | .submit id duty => (c.submit id duty).2
  | .call id => c.call id
  | .shutDown drain => c.shutDown drain
  | .settle => c.settle

def start (name : String) (n : Nat) : Crew := { pool := .ofCapacity name n }

theorem follows_start (name : String) (n : Nat) :
    (start name n).Follows (.start name n) (start name n).ready :=
  ⟨rfl, rfl, rfl, Shift.sound_start name n, fun _ _ _ there => there⟩

theorem follows_submit (h : c.Follows s c.ready) (id : String) (duty : Duty) :
    (c.submit id duty).2.Follows (s.run [.submit (id, duty)]) (c.submit id duty).2.ready := by
  have sound := Shift.sound_run h.sound [.submit (id, duty)]
  have pool : (s.run [.submit (id, duty)]).pool = (c.submit id duty).2.pool := by
    simp [Shift.run, Shift.step, submit, h.pool, h.issued]
  refine ⟨pool, congrArg (· + 1) h.issued, h.shutdowns, sound, fun stage restless u => ?_⟩
  have alert := h.alert stage restless u
  have submitted := c.pool.submitted c.issued (id, duty)
  unfold submit
  generalize c.pool.submit c.issued (id, duty) = q at submitted ⊢
  cases submitted with
  | refused => exact alert
  | granted | slotless =>
    simp only [inStage_append, inStage_cons, inStage_nil, List.mem_append, List.append_nil, if_true]
    rintro (before | new)
    · exact .inl (alert before)
    · refine .inr ?_
      split at new
      · exact new
      · contradiction

theorem follows_obey (h : c.Follows s c.ready) (order : Order) :
    ∃ events, (c.obey order).Follows (s.run events) (c.obey order).ready ∧
      (c.ready = [] → s.Paced events ∧ (c.obey order).ready.length ≤ 1) := by
  have settled (rests : c.ready = []) : s.pool.Settled := by
    rw [rests] at h
    exact h.pool.symm ▸ h.settled
  cases order with
  | submit id duty =>
    refine ⟨[.submit (id, duty)], follows_submit h id duty, fun rests =>
      ⟨⟨settled rests, trivial⟩, ?_⟩⟩
    simp only [obey, submit, rests]
    split <;> simp
  | call id =>
    refine ⟨[], ⟨h.pool, h.issued, h.shutdowns, h.sound, fun stage restless u there =>
      List.mem_append_left _ (h.alert stage restless u there)⟩, fun rests => ⟨trivial, ?_⟩⟩
    simp only [obey, call, rests, List.nil_append]
    cases (c.gate.call id).1 <;> simp
  | shutDown drain =>
    refine ⟨[.shutDown drain], ⟨congrArg Pool.shutDown h.pool, h.issued,
      congrArg (· ++ [drain]) h.shutdowns, Shift.sound_run h.sound _, h.alert⟩, fun rests =>
        ⟨⟨settled rests, trivial⟩, ?_⟩⟩
    simp [obey, shutDown, rests]
  | settle =>
    obtain ⟨events, follows, paced⟩ := follows_settle h
    have nobody := c.ready_settle
    refine ⟨events, nobody.symm ▸ follows, fun rests => ⟨paced ?_, ?_⟩⟩
    · simp [rests]
    · simp [obey, nobody]

theorem follows_orders (h : c.Follows s c.ready) (orders : List Order) :
    ∃ events, (orders.foldl obey c).Follows (s.run events) (orders.foldl obey c).ready := by
  induction orders generalizing c s with
  | nil => exact ⟨[], h⟩
  | cons order orders ih =>
    obtain ⟨events, follows, -⟩ := follows_obey h order
    obtain ⟨later, follows⟩ := ih follows
    exact ⟨events ++ later, Shift.run_append s events later ▸ follows⟩

theorem Follows.shutdownsDone (h : c.Follows s ready) : c.shutdownsDone =
    if c.pool.tasks = [] then c.shutdowns.length else c.shutdowns.countP fun drain => !drain := by
  have down := h.sound.down
  rw [h.pool, h.shutdowns] at down
  unfold Crew.shutdownsDone
  split
  · rename_i nobody
    refine List.countP_eq_length.mpr fun drain called => ?_
    have drained : c.pool.isDrained = true := by
      rw [Pool.isDrained, down.mpr (List.ne_nil_of_mem called), nobody]
      rfl
    rw [drained, Bool.or_true]
  · rename_i left
    have waits : c.pool.isDrained = false := by simp [Pool.isDrained, left]
    simp only [waits, Bool.or_false]

/-- Whatever a crew has been told, once it has settled as many of its tasks run as there are slots,
or all that are left; and a shutdown that waits is over when none is left. -/
theorem settled_orders (name : String) (n : Nat) (orders : List Order) :
    let c := (orders.foldl obey (start name n)).settle
    c.ready = [] ∧ c.pool.Settled ∧ c.pool.active = min (max n 1) c.pool.tasks.length ∧
    (c.pool.isSaturated = true ↔ max n 1 ≤ c.pool.tasks.length) ∧
    c.shutdownsDone = if c.pool.tasks = [] then c.shutdowns.length
      else c.shutdowns.countP fun drain => !drain := by
  intro c
  obtain ⟨events, follows⟩ := follows_orders (follows_start name n) orders
  obtain ⟨later, follows, -⟩ := follows_settle follows
  rw [← Shift.run_append] at follows
  have capacity : (Shift.run (.start name n) (events ++ later)).pool.capacity = max n 1 :=
    Shift.capacity_run _ _
  have settled := follows.pool.symm ▸ follows.settled
  have unended := follows.sound.unended_perm.length_eq
  have accounts := Shift.accounts follows.sound (by rw [capacity]; exact Nat.le_max_right n 1)
  rw [Pool.length_tickets, follows.pool] at unended
  have active := accounts.active settled
  have saturated := accounts.saturated settled
  rw [unended, capacity, follows.pool] at active saturated
  refine ⟨ready_settle _, follows.settled, active, ?_, follows.shutdownsDone⟩
  exact saturated.trans ⟨fun full => full ▸ Nat.min_le_right _ _, Nat.min_eq_left⟩

def drill (c : Crew) (orders : List Order) : Crew := orders.foldl (fun c o => (c.obey o).settle) c

theorem follows_drill (h : c.Follows s c.ready) (rests : c.ready = []) (orders : List Order) :
    ∃ events, (c.drill orders).Follows (s.run events) [] ∧ s.Paced events := by
  induction orders generalizing c s with
  | nil => exact ⟨[], rests ▸ h, trivial⟩
  | cons order orders ih =>
    obtain ⟨events, follows, paced⟩ := follows_obey h order
    obtain ⟨turns, follows, paced'⟩ := follows_settle follows
    rw [← ready_settle (c.obey order)] at follows
    obtain ⟨later, follows, paced''⟩ := ih follows (ready_settle _)
    obtain ⟨paced, one⟩ := paced rests
    refine ⟨events ++ (turns ++ later), ?_, ?_⟩
    · rw [Shift.run_append, Shift.run_append]
      exact follows
    · exact Shift.paced_append.mpr ⟨paced, Shift.paced_append.mpr ⟨paced' one, paced''⟩⟩

/-- Those who wait in line do so in the order of submission, after all who run. -/
theorem line_drill (name : String) (n : Nat) (orders : List Order) :
    let c := (start name n).drill orders
    c.pool.queue.Pairwise (· < ·) ∧
    ∀ t ∈ inStage c.pool.tasks .running, ∀ u ∈ c.pool.queue, t < u := by
  intro c
  obtain ⟨events, follows, paced⟩ := follows_drill (follows_start name n) rfl orders
  have inOrder := Shift.inOrder_run (Shift.sound_start name n) (Shift.inOrder_start name n) events
    paced
  have order := inOrder.order_settled (follows.pool.symm ▸ follows.settled)
  have ascending := Shift.ascending_accepted (Shift.sound_start name n) List.Pairwise.nil events
  rw [order, follows.pool] at ascending
  obtain ⟨-, line, apart⟩ := List.pairwise_append.mp ascending
  refine ⟨line, fun t runs => apart t ?_⟩
  rw [follows.sound.started.mem_iff, follows.pool]
  exact List.mem_append_right _ runs

end Crew

end RequestBus
