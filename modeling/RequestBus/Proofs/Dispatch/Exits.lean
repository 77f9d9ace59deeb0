import RequestBus.Proofs.Dispatch.Changes

namespace RequestBus.World

variable {w : World} {i t : Nat} {d : Dispatcher} {m : Message}

theorem step_resume (here : w.dispatchers[i]? = some d) (worked : Bool) :
    w.step (.resume i worked) = w.resume i d worked := by
  simp only [step, visit, here]

theorem step_resume_idle (here : w.dispatchers[i]? = some d) (idle : d.call = none)
    (worked : Bool) : w.step (.resume i worked) = w := by
  simp only [step_resume here, resume, idle]

theorem step_receive (here : w.dispatchers[i]? = some d) (idle : d.call = none)
    (opened : d.state.isShuttingDown = false) {exchange : String}
    (route : d.route = .amqp exchange) (m : Message) :
    w.step (.receive i m) = ({ w with issued := w.issued + 1 }.record
      (.received w.issued i m)).receiveAmqp i d w.issued m := by
  simp [step, visit, here, receive, idle, opened, route]

section Exits
variable {v : World} {e : Dispatcher} {job : Job}

theorem dispatch_idle (first : w.step (.receive i m) = v) (there : v.dispatchers[i]? = some e)
    (idle : e.call = none) (worked : Bool) : w.dispatch i m worked = v := by
  simp only [dispatch, run, List.foldl_cons, List.foldl_nil, first, step_resume_idle there idle]

variable (first : w.step (.receive i m) = v.put i e) (there : i < v.dispatchers.length)
  (worked : Bool)
include first there

theorem dispatch_resumed {after : World} {next : Dispatcher}
    (resumed : (v.put i e).resume i e worked = after)
    (dispatchers : after.dispatchers = (v.dispatchers.set i e).set i next)
    (idle : next.call = none) : w.dispatch i m worked = after := by
  have before : (v.put i e).dispatchers[i]? = some e := List.getElem?_set_self there
  have put : after.dispatchers[i]? = some next := by
    rw [dispatchers, List.getElem?_set_self (by simpa using there)]
  simp only [dispatch, run, List.foldl_cons, List.foldl_nil, first, step_resume before, resumed,
    step_resume_idle put idle]

theorem dispatch_rejecting (busy : e.call = some (.rejecting t)) :
    (w.dispatch i m worked).history =
      [.decided t .rejected, .rejected t worked] ++ v.history ∧
    (w.dispatch i m worked).registry = v.registry := by
  have resumed : (v.put i e).resume i e worked =
      (((v.put i e).put i { e with call := none }).record (.rejected t worked)).record
        (.decided t .rejected) := by
    simp only [resume, busy]
  rw [dispatch_resumed first there worked resumed rfl rfl]
  exact ⟨rfl, rfl⟩

theorem dispatch_refusing {reply : Response} {dest : Destination}
    (busy : e.call = some (.refusing t reply dest)) : ∃ payload reached,
    (w.dispatch i m worked).history =
      [.decided t .malformed, .handed t payload dest reached, .acknowledged t worked] ++
        v.history ∧
    (w.dispatch i m worked).registry = v.registry := by
  have resumed : (v.put i e).resume i e worked =
      ((((v.put i e).put i { e with call := none }).record (.acknowledged t worked)).hand e t
        reply dest).record (.decided t .malformed) := by
    simp only [resume, busy]
  rw [dispatch_resumed first there worked resumed rfl rfl]
  exact ⟨_, _, rfl, rfl⟩

theorem dispatch_saturated (busy : e.call = some (.accepting t job))
    (full : e.pool.isSaturated = true) : ∃ payload reached,
    (w.dispatch i m worked).history =
      [.decided t .overloaded, .released t job.id, .handed t payload job.dest reached,
        .acknowledged t worked] ++ v.history ∧
    (w.dispatch i m worked).registry = v.registry.release job.id := by
  have put : (v.put i e).dispatchers[i]? = some e := List.getElem?_set_self there
  have resumed : (v.put i e).resume i e worked = ((v.put i e).record (.acknowledged t worked)).put i
      { e with call := some (.answering t job) } := by
    simp only [resume, busy, full, if_true]
  have again : (((v.put i e).record (.acknowledged t worked)).put i
      { e with call := some (.answering t job) }).dispatchers[i]? =
        some { e with call := some (.answering t job) } :=
    List.getElem?_set_self (show i < (v.dispatchers.set i e).length by simpa using there)
  simp only [dispatch, run, List.foldl_cons, List.foldl_nil, first, step_resume put, resumed,
    step_resume again]
  exact ⟨_, _, rfl, rfl⟩

theorem dispatch_abandoned (busy : e.call = some (.accepting t job))
    (free : e.pool.isSaturated = false) (down : e.pool.isShutDown = true)
    (amqp : job.protocol = .amqp) :
    (w.dispatch i m worked).history =
      [.decided t .dropped, .released t job.id, .acknowledged t worked] ++ v.history ∧
    (w.dispatch i m worked).registry = v.registry.release job.id := by
  have resumed : (v.put i e).resume i e worked =
      ((((v.put i e).record (.acknowledged t worked)).put i { e with call := none }).release t
        job.id).record (.decided t .dropped) := by
    simp only [resume, busy, free, submit_refused down, amqp, Bool.false_eq_true, if_false]
  rw [dispatch_resumed first there worked resumed rfl rfl]
  exact ⟨rfl, rfl⟩

theorem dispatch_submitted (busy : e.call = some (.accepting t job))
    (free : e.pool.isSaturated = false) (running : e.pool.isShutDown = false) :
    (w.dispatch i m worked).history =
      [.decided t .submitted, .acknowledged t worked] ++ v.history ∧
    (w.dispatch i m worked).registry = v.registry := by
  have resumed : (v.put i e).resume i e worked =
      ((v.put i e).record (.acknowledged t worked)).submit i e t job := by
    simp only [resume, busy, free, Bool.false_eq_true, if_false]
  rw [submit_taken running free] at resumed
  rw [dispatch_resumed first there worked resumed rfl rfl]
  exact ⟨rfl, rfl⟩

end Exits

structure Accepts (w : World) (d : Dispatcher) (m : Message) (id : String) : Prop where
  opened : d.state.isShuttingDown = false
  answerable : (d.route.destination? m).isSome = true
  readable : Protocol.amqp.peekId m.body = .ok id
  absent : w.registry.contains id = false

/-- What a dispatcher of AMQP decides about a message: the outcome, the records that it leaves and
the registry afterwards. -/
inductive Exit (w : World) (i : Nat) (d : Dispatcher) (m : Message) (worked : Bool) :
    Outcome → List Record → Registry → Prop
  | closing (closing : d.state.isShuttingDown = true) :
      Exit w i d m worked .dropped [.decided w.issued .dropped, .received w.issued i m] w.registry
  | unanswerable (nowhere : d.route.destination? m = none) :
      Exit w i d m worked .rejected [.decided w.issued .rejected, .rejected w.issued worked,
        .received w.issued i m] w.registry
  | unnamed (fault : Malformed) (unreadable : Protocol.amqp.peekId m.body = .error fault)
      (payload : Bytes) (dest : Destination) (reached : Bool) :
      Exit w i d m worked .malformed [.decided w.issued .malformed,
        .handed w.issued payload dest reached, .acknowledged w.issued worked,
        .received w.issued i m] w.registry
  | duplicate (id : String) (readable : Protocol.amqp.peekId m.body = .ok id)
      (seen : w.registry.contains id = true) :
      Exit w i d m worked .rejected [.decided w.issued .rejected, .rejected w.issued worked,
        .received w.issued i m] (w.registry.accept id).2
  | overloaded (id : String) (accepts : w.Accepts d m id) (full : d.pool.isSaturated = true)
      (payload : Bytes) (dest : Destination) (reached : Bool) :
      Exit w i d m worked .overloaded ([.decided w.issued .overloaded, .released w.issued id,
        .handed w.issued payload dest reached, .acknowledged w.issued worked,
        .accepted w.issued id] ++ (w.registry.evicted? id).toList.map .evicted ++
        [.received w.issued i m]) ((w.registry.accept id).2.release id)
  | abandoned (id : String) (accepts : w.Accepts d m id) (free : d.pool.isSaturated = false)
      (down : d.pool.isShutDown = true) :
      Exit w i d m worked .dropped ([.decided w.issued .dropped, .released w.issued id,
        .acknowledged w.issued worked, .accepted w.issued id] ++
        (w.registry.evicted? id).toList.map .evicted ++ [.received w.issued i m])
        ((w.registry.accept id).2.release id)
  | submitted (id : String) (accepts : w.Accepts d m id) (free : d.pool.isSaturated = false)
      (running : d.pool.isShutDown = false) :
      Exit w i d m worked .submitted ([.decided w.issued .submitted,
        .acknowledged w.issued worked, .accepted w.issued id] ++
        (w.registry.evicted? id).toList.map .evicted ++ [.received w.issued i m])
        (w.registry.accept id).2

theorem exit_accepted {v : World} {id : String} {dest : Destination}
    (first : w.step (.receive i m) = v.put i
      { d with call := some (.accepting w.issued ⟨.amqp, m.body, id, dest⟩) })
    (there : i < v.dispatchers.length) (accepts : w.Accepts d m id)
    (history : v.history = .accepted w.issued id ::
      (w.registry.evicted? id).toList.map .evicted ++ .received w.issued i m :: w.history)
    (registry : v.registry = (w.registry.accept id).2) (worked : Bool) :
    ∃ outcome news after, w.Exit i d m worked outcome news after ∧
      (w.dispatch i m worked).history = news ++ w.history ∧
      (w.dispatch i m worked).registry = after := by
  cases full : d.pool.isSaturated with
  | true =>
    obtain ⟨payload, reached, records, released⟩ := dispatch_saturated first there worked rfl full
    refine ⟨_, _, _, .overloaded id accepts full payload dest reached, ?_, ?_⟩
    · simp [records, history]
    · rw [released, registry]
  | false =>
    cases down : d.pool.isShutDown with
    | true =>
      obtain ⟨records, released⟩ := dispatch_abandoned first there worked rfl full down rfl
      refine ⟨_, _, _, .abandoned id accepts full down, ?_, ?_⟩
      · simp [records, history]
      · rw [released, registry]
    | false =>
      obtain ⟨records, same⟩ := dispatch_submitted first there worked rfl full down
      refine ⟨_, _, _, .submitted id accepts full down, ?_, ?_⟩
      · simp [records, history]
      · rw [same, registry]

theorem dispatch_exit (here : w.dispatchers[i]? = some d) (idle : d.call = none)
    {exchange : String} (route : d.route = .amqp exchange) (m : Message) (worked : Bool) :
    ∃ outcome news after, w.Exit i d m worked outcome news after ∧
      (w.dispatch i m worked).history = news ++ w.history ∧
      (w.dispatch i m worked).registry = after := by
  have there : i < w.dispatchers.length := (List.getElem?_eq_some_iff.mp here).1
  cases closing : d.state.isShuttingDown with
  | true =>
    have first : w.step (.receive i m) = ({ w with issued := w.issued + 1 }.record
        (.received w.issued i m)).record (.decided w.issued .dropped) := by
      simp [step, visit, here, receive, idle, closing]
    rw [dispatch_idle first here idle]
    exact ⟨_, _, _, .closing closing, rfl, rfl⟩
  | false =>
    have first := step_receive here idle closing route m
    unfold receiveAmqp at first
    cases isDest : d.route.destination? m with
    | none =>
      simp only [isDest] at first
      exact ⟨_, _, _, .unanswerable isDest, dispatch_rejecting first there worked rfl⟩
    | some dest =>
      simp only [isDest] at first
      cases peeked : Protocol.amqp.peekId m.body with
      | error fault =>
        simp only [peeked] at first
        obtain ⟨payload, reached, exit⟩ := dispatch_refusing first there worked rfl
        exact ⟨_, _, _, .unnamed fault peeked payload dest reached, exit⟩
      | ok id =>
        simp only [peeked] at first
        cases seen : w.registry.contains id with
        | true =>
          rw [accept_duplicate (by exact seen)] at first
          exact ⟨_, _, _, .duplicate id peeked seen, dispatch_rejecting first there worked rfl⟩
        | false =>
          rw [accept_new (by exact seen)] at first
          exact exit_accepted first there ⟨closing, by rw [isDest]; rfl, peeked, seen⟩ rfl rfl
            worked

end RequestBus.World
