import RequestBus.Proofs.Dispatch.Steps

namespace RequestBus.World

variable {fits : Request → Response → Prop} {w : World} {i t : Nat} {d next : Dispatcher}
  {site s : Site} {news : List Record}

theorem set_same {l : List α} {i : Nat} {x : α} (h : l[i]? = some x) : l.set i x = l := by
  obtain ⟨there, rfl⟩ := List.getElem?_eq_some_iff.mp h
  exact List.set_getElem_self there

theorem accept_duplicate {id : String} (seen : w.registry.contains id = true) (t : Nat) :
    w.accept t id = (false, { w with registry := (w.registry.accept id).2 }) := by
  simp [World.accept, Registry.accept_fst, seen]

theorem accept_new {id : String} (absent : w.registry.contains id = false) (t : Nat) :
    w.accept t id = (true, { w with
      registry := (w.registry.accept id).2
      history :=
        .accepted t id :: (w.registry.evicted? id).toList.map .evicted ++ w.history }) := by
  unfold World.accept
  simp only [Registry.accept_fst, absent, Bool.not_false, if_true]
  cases w.registry.evicted? id <;> rfl

theorem moved_arrival (registry : Registry) (news : List Record) (m : Message)
    (tidy : Tidy fits w) (here : w.dispatchers[i]? = some d)
    (moves : d.Moves next w.issued site) (prompt : next.pool.Prompt)
    (stays : d.pool.isShutDown = true → next.pool.isShutDown = true)
    (about : ∀ r ∈ news, ∀ u, r.ticket? = some u → u = w.issued)
    (course : Course fits (next.pool.isShutDown = true) d.route i w.issued m site
      (news.filter (fun r => r.ticket? == some w.issued) ++ [.received w.issued i m])) :
    Moved fits w ⟨registry, w.dispatchers.set i next, w.issued + 1,
      news ++ .received w.issued i m :: w.history⟩ i d next w.issued site
      (news ++ [.received w.issued i m]) where
  here := here
  dispatchers := rfl
  moves := moves
  prompt := prompt
  stays := stays
  issued := .inr ⟨rfl, rfl⟩
  history := by simp
  about := by
    intro r hr u hu
    rcases List.mem_append.mp hr with hr | hr
    · exact about r hr u hu
    · rw [List.mem_singleton.mp hr] at hu
      exact (Option.some.inj hu).symm
  course := ⟨m, by simpa [Record.ticket?, tidy.fresh w.issued (Nat.le_refl _)] using course⟩

theorem moved_onward (registry : Registry) (news : List Record) (m : Message)
    (tidy : Tidy fits w) (here : w.dispatchers[i]? = some d) (placed : (t, s) ∈ d.sites)
    (moves : d.Moves next t site) (prompt : next.pool.Prompt)
    (stays : d.pool.isShutDown = true → next.pool.isShutDown = true)
    (concern : Concern t news)
    (course : Course fits (next.pool.isShutDown = true) d.route i t m site
      (news ++ w.trail t)) :
    Moved fits w ⟨registry, w.dispatchers.set i next, w.issued, news ++ w.history⟩ i d next t site
      news where
  here := here
  dispatchers := rfl
  moves := moves
  prompt := prompt
  stays := stays
  issued := .inl ⟨tidy.lt_issued here placed, rfl⟩
  history := rfl
  about := fun r hr u hu => Option.some.inj (hu.symm.trans (concern r hr))
  course := ⟨m, by rwa [filter_of_concern concern]⟩

theorem effect_arrival (tidy : Tidy fits w) (here : w.dispatchers[i]? = some d) {after : World}
    (ids : after.registry.ids = w.registry.ids)
    (capacity : after.registry.capacity = w.registry.capacity) (holds : site.holds? = none)
    (evictions : evictedIds news = []) : Effect w after d w.issued site news := by
  refine .none ids capacity (fun id => ?_) evictions
  rw [holds]
  constructor
  · intro h
    contradiction
  · rintro ⟨s, placed, _⟩
    exact absurd (List.mem_map_of_mem placed) (tidy.issued_notMem here)

theorem Tidy.site_unique (tidy : Tidy fits w) (here : w.dispatchers[i]? = some d)
    {s u : Site} (hs : (t, s) ∈ d.sites) (hu : (t, u) ∈ d.sites) : s = u := by
  have distinct := tidy.distinct i d here
  have same := List.inj_on_of_nodup_map distinct hs hu rfl
  exact (Prod.mk.inj same).2

theorem effect_onward (tidy : Tidy fits w) (here : w.dispatchers[i]? = some d) {after : World}
    (placed : (t, s) ∈ d.sites) (same : after.registry = w.registry)
    (holds : site.holds? = s.holds?) (concern : Concern t news) :
    Effect w after d t site news := by
  refine .none (same ▸ rfl) (same ▸ rfl) (fun id => ?_) (evictedIds_of_concern concern)
  rw [holds]
  constructor
  · intro h
    exact ⟨s, placed, h⟩
  · rintro ⟨u, hu, h⟩
    rwa [tidy.site_unique here placed hu]

theorem submit_taken (running : d.pool.isShutDown = false) (free : d.pool.isSaturated = false)
    (t : Nat) (job : Job) : w.submit i d t job = (w.put i { d with
      pool := { d.pool with
        tasks := d.pool.tasks ++ [⟨t, job, .granted⟩], free := d.pool.free - 1 }
      call := none }).record (.decided t .submitted) := by
  simp [World.submit, Pool.submit_of_free running free]

theorem submit_refused (down : d.pool.isShutDown = true) (t : Nat) (job : Job) :
    w.submit i d t job = (match job.protocol with
      | .amqp => (w.put i { d with call := none }).release t job.id
      | .mqtt => w.put i { d with call := none }).record (.decided t .dropped) := by
  unfold World.submit
  rw [Pool.submit_of_shutDown down]
  rfl

theorem change_receiveAmqp (tidy : Tidy fits w) (here : w.dispatchers[i]? = some d)
    (idle : d.call = none) (amqp : d.route.protocol = .amqp) (m : Message) :
    Change fits w (({ w with issued := w.issued + 1 }.record (.received w.issued i m)).receiveAmqp
      i d w.issued m) := by
  have attends := d.attends_fresh idle (tidy.issued_notMem here)
  have prompt := tidy.prompt i d here
  have rejecting := Dispatcher.moves_call attends (.rejecting w.issued) rfl
  unfold World.receiveAmqp
  split
  · exact .moved _ i d _ _ _ _
      (moved_arrival _ [] m tidy here rejecting prompt id (by simp) (.rejecting amqp))
      (effect_arrival tidy here rfl rfl rfl rfl)
  · rename_i dest isDest
    split
    · rename_i fault unreadable
      have refusing :=
        Dispatcher.moves_call attends (.refusing w.issued (fault.response "") dest) rfl
      exact .moved _ i d _ _ _ _
        (moved_arrival _ [] m tidy here refusing prompt id (by simp)
          (.refusing amqp fault dest (amqp ▸ unreadable) isDest))
        (effect_arrival tidy here rfl rfl rfl rfl)
    · rename_i id readable
      have asks : m.Asks d.route ⟨.amqp, m.body, id, dest⟩ :=
        ⟨amqp.symm, rfl, amqp ▸ readable, isDest⟩
      cases seen : w.registry.contains id with
      | true =>
        rw [accept_duplicate (by exact seen)]
        exact .moved _ i d _ _ _ _
          (moved_arrival _ [] m tidy here rejecting prompt (fun h => h) (by simp) (.rejecting amqp))
          (effect_arrival tidy here (Registry.ids_accept_again seen) (Registry.capacity_accept _ _)
            rfl rfl)
      | false =>
        rw [accept_new (by exact seen)]
        have accepting := Dispatcher.moves_call attends
          (.accepting w.issued ⟨.amqp, m.body, id, dest⟩) rfl
        have course : Course fits (d.pool.isShutDown = true) d.route i w.issued m _ _ :=
          .accepting amqp _ asks
        refine .moved _ i d _ _ _ _
          (moved_arrival _ (.accepted w.issued id :: (w.registry.evicted? id).toList.map .evicted) m
            tidy here accepting prompt (fun h => h) ?_ ?_)
          (.accepted id seen rfl idle (tidy.issued_notMem here) rfl ?_)
        · cases w.registry.evicted? id <;> simp [Record.ticket?]
        · cases w.registry.evicted? id <;> simpa [Record.ticket?] using course
        · cases w.registry.evicted? id <;> simp [evictedIds]

theorem change_receiveMqtt (tidy : Tidy fits w) (here : w.dispatchers[i]? = some d)
    (idle : d.call = none) {topic : String} (mqtt : d.route = .mqtt topic) (m : Message) :
    Change fits w (({ w with issued := w.issued + 1 }.record (.received w.issued i m)).receiveMqtt
      i d w.issued topic m) := by
  have fresh := tidy.issued_notMem here
  have attends := d.attends_fresh idle fresh
  have prompt := tidy.prompt i d here
  have protocol : d.route.protocol = .mqtt := by rw [mqtt]; rfl
  unfold World.receiveMqtt
  split
  · have moved := moved_arrival w.registry [.decided w.issued .malformed] m tidy here
      (d.moves_turnAway fresh) prompt id (by simp [Record.ticket?])
      (by simpa [Record.ticket?] using .unnamed protocol)
    rw [set_same here] at moved
    exact .moved _ i d _ _ _ _ moved (effect_arrival tidy here rfl rfl rfl rfl)
  · rename_i id readable
    have asks : m.Asks d.route ⟨.mqtt, m.body, id, .mqtt topic⟩ :=
      ⟨protocol.symm, rfl, protocol ▸ readable, by rw [mqtt]; rfl⟩
    split
    · have course : Course fits (d.pool.isShutDown = true) d.route i w.issued m _ _ :=
        .noting protocol _ asks
      exact .moved _ i d _ _ _ _
        (moved_arrival _ [.decided w.issued .overloaded] m tidy here
          (Dispatcher.moves_note attends idle (Response.overloaded id)) prompt (fun h => h)
          (by simp [Record.ticket?]) (by simpa [Record.ticket?] using course))
        (effect_arrival tidy here rfl rfl rfl rfl)
    · rename_i unsaturated
      have free : d.pool.isSaturated = false := by simpa using unsaturated
      cases down : d.pool.isShutDown with
      | true =>
        rw [submit_refused down]
        exact .moved _ i d _ _ _ _
          (moved_arrival w.registry [.decided w.issued .dropped] m tidy here
            (Dispatcher.moves_hangUp attends) prompt (fun h => h) (by simp [Record.ticket?])
            (by simpa [Record.ticket?] using .turnedAway))
          (effect_arrival tidy here rfl rfl rfl rfl)
      | false =>
        rw [submit_taken down free]
        have accepted := Pool.prompt_submit prompt free w.issued
          (⟨.mqtt, m.body, id, .mqtt topic⟩ : Job)
        rw [Pool.submit_of_free down free] at accepted
        have course : Course fits (d.pool.isShutDown = true) d.route i w.issued m _ _ :=
          .waiting _ asks true
        exact .moved _ i d _ _ _ _
          (moved_arrival _ [.decided w.issued .submitted] m tidy here
            (Dispatcher.moves_submit attends ⟨.mqtt, m.body, id, .mqtt topic⟩ _) accepted
            (fun h => h) (by simp [Record.ticket?])
            (by simpa [Record.ticket?, Protocol.taking] using course))
          (effect_arrival tidy here rfl rfl rfl rfl)

theorem change_receive (tidy : Tidy fits w) (here : w.dispatchers[i]? = some d) (m : Message) :
    Change fits w (w.receive i d m) := by
  unfold World.receive
  split
  · exact .still
  · rename_i free
    have idle : d.call = none := by simpa using free
    dsimp only
    split
    · have moved := moved_arrival w.registry [.decided w.issued .dropped] m tidy here
        (d.moves_turnAway (tidy.issued_notMem here)) (tidy.prompt i d here) id
        (by simp [Record.ticket?]) (by simpa [Record.ticket?] using .turnedAway)
      rw [set_same here] at moved
      exact .moved _ i d _ _ _ _ moved (effect_arrival tidy here rfl rfl rfl rfl)
    · split
      · rename_i route
        exact change_receiveAmqp tidy here idle (by rw [route]; rfl) m
      · rename_i topic route
        exact change_receiveMqtt tidy here idle route m

theorem change_rejecting (tidy : Tidy fits w) (here : w.dispatchers[i]? = some d)
    (busy : d.call = some (.rejecting t)) (worked : Bool) :
    Change fits w (((w.put i { d with call := none }).record (.rejected t worked)).record
      (.decided t .rejected)) := by
  have placed := Dispatcher.mem_sites_of_call busy
  have attends := Dispatcher.attends_call busy (tidy.distinct i d here)
  have concern : Concern t [.decided t .rejected, .rejected t worked] := by
    simp [Concern, Record.ticket?]
  obtain ⟨m, course⟩ := tidy.placed i d here _ _ placed
  generalize trail : w.trail _ = records at course
  cases course with
  | rejecting amqp =>
    refine .moved _ i d _ _ _ _
      (moved_onward _ _ m tidy here placed (Dispatcher.moves_hangUp attends)
        (tidy.prompt i d here) (fun h => h) concern ?_)
      (effect_onward tidy here placed rfl rfl concern)
    rw [trail]
    exact .rejected amqp worked

theorem change_refusing (tidy : Tidy fits w) (here : w.dispatchers[i]? = some d)
    {reply : Response} {dest : Destination} (busy : d.call = some (.refusing t reply dest))
    (worked : Bool) :
    Change fits w ((((w.put i { d with call := none }).record (.acknowledged t worked)).hand d t
      reply dest).record (.decided t .malformed)) := by
  have placed := Dispatcher.mem_sites_of_call busy
  have attends := Dispatcher.attends_call busy (tidy.distinct i d here)
  have concern : ∀ payload reached, Concern t [.decided t .malformed,
      .handed t payload dest reached, .acknowledged t worked] := by
    simp [Concern, Record.ticket?]
  obtain ⟨m, course⟩ := tidy.placed i d here _ _ placed
  generalize trail : w.trail _ = records at course
  cases course with
  | refusing amqp fault _ unreadable isDest =>
    refine .moved _ i d _ _ _ _
      (moved_onward _ _ m tidy here placed (Dispatcher.moves_hangUp attends)
        (tidy.prompt i d here) (fun h => h) (concern _ _) ?_)
      (effect_onward tidy here placed rfl rfl (concern _ _))
    rw [trail]
    exact .refused amqp fault dest unreadable isDest worked _

theorem change_accepting (tidy : Tidy fits w) (here : w.dispatchers[i]? = some d) {job : Job}
    (busy : d.call = some (.accepting t job)) (worked : Bool) :
    Change fits w (if d.pool.isSaturated then
        (w.record (.acknowledged t worked)).put i { d with call := some (.answering t job) }
      else (w.record (.acknowledged t worked)).submit i d t job) := by
  have placed := Dispatcher.mem_sites_of_call busy
  have attends := Dispatcher.attends_call busy (tidy.distinct i d here)
  have prompt := tidy.prompt i d here
  obtain ⟨m, course⟩ := tidy.placed i d here _ _ placed
  generalize trail : w.trail _ = records at course
  cases course with
  | accepting amqp _ asks =>
    have protocol : job.protocol = .amqp := asks.protocol.trans amqp
    split
    · have concern : Concern t [.acknowledged t worked] := by simp [Concern, Record.ticket?]
      refine .moved _ i d _ _ _ _
        (moved_onward _ _ m tidy here placed (Dispatcher.moves_call attends (.answering t job) rfl)
          prompt (fun h => h) concern ?_)
        (effect_onward tidy here placed rfl rfl concern)
      rw [trail]
      exact .answering amqp job asks worked
    · rename_i unsaturated
      have free : d.pool.isSaturated = false := by simpa using unsaturated
      cases down : d.pool.isShutDown with
      | true =>
        have concern : Concern t
            [.decided t .dropped, .released t job.id, .acknowledged t worked] := by
          simp [Concern, Record.ticket?]
        rw [submit_refused down, protocol]
        refine .moved _ i d _ _ _ _
          (moved_onward _ _ m tidy here placed (Dispatcher.moves_hangUp attends) prompt (fun h => h)
            concern ?_)
          (.released job.id ⟨_, placed, rfl⟩ rfl rfl (evictedIds_of_concern concern))
        rw [trail]
        exact .abandoned amqp job asks worked down
      | false =>
        have concern : Concern t [.decided t .submitted, .acknowledged t worked] := by
          simp [Concern, Record.ticket?]
        have accepted := Pool.prompt_submit prompt free t job
        rw [Pool.submit_of_free down free] at accepted
        rw [submit_taken down free]
        refine .moved _ i d _ _ _ _
          (moved_onward _ _ m tidy here placed (Dispatcher.moves_submit attends job _) accepted
            (fun h => h) concern ?_)
          (effect_onward tidy here placed rfl (by simp [Site.holds?, protocol]) concern)
        have course : Course fits (d.pool.isShutDown = true) d.route i t m _ _ :=
          .waiting job asks worked
        rw [trail]
        simpa [Call.ticket, Protocol.taking, protocol] using course

theorem change_answering (tidy : Tidy fits w) (here : w.dispatchers[i]? = some d) {job : Job}
    (busy : d.call = some (.answering t job)) :
    Change fits w ((((w.put i { d with call := none }).hand d t (Response.overloaded job.id)
      job.dest).release t job.id).record (.decided t .overloaded)) := by
  have placed := Dispatcher.mem_sites_of_call busy
  have attends := Dispatcher.attends_call busy (tidy.distinct i d here)
  have concern : ∀ payload reached, Concern t [.decided t .overloaded, .released t job.id,
      .handed t payload job.dest reached] := by
    simp [Concern, Record.ticket?]
  obtain ⟨m, course⟩ := tidy.placed i d here _ _ placed
  generalize trail : w.trail _ = records at course
  cases course with
  | answering amqp _ asks worked =>
    refine .moved _ i d _ _ _ _
      (moved_onward _ _ m tidy here placed (Dispatcher.moves_hangUp attends)
        (tidy.prompt i d here) (fun h => h) (concern _ _) ?_)
      (.released job.id ⟨_, placed, rfl⟩ rfl rfl (evictedIds_of_concern (concern _ _)))
    rw [trail]
    exact .answered amqp job asks worked _

theorem change_resume (tidy : Tidy fits w) (here : w.dispatchers[i]? = some d) (worked : Bool) :
    Change fits w (w.resume i d worked) := by
  unfold World.resume
  split
  · exact .still
  · rename_i busy
    exact change_rejecting tidy here busy worked
  · rename_i busy
    exact change_refusing tidy here busy worked
  · rename_i busy
    exact change_accepting tidy here busy worked
  · rename_i busy
    exact change_answering tidy here busy

theorem advance_granted (prompt : d.pool.Prompt) {before : Task Job}
    (found : d.pool.task? before.ticket = some before) (stage : before.stage = .granted) :
    w.advance i d before.ticket = ⟨w.registry,
      w.dispatchers.set i { d with pool := d.pool.move before.ticket .running }, w.issued,
      before.job.invocation before.ticket ++ w.history⟩ := by
  have advanced := Pool.advance_of_prompt prompt found
  rw [if_pos stage] at advanced
  have begins : before.stage ≠ .running ∧
      ((d.pool.move before.ticket .running).task? before.ticket).any
        (fun t => t.stage == .running) = true := by
    rw [Pool.task?_move, found, stage]
    exact ⟨by decide, rfl⟩
  unfold World.advance Job.invocation
  simp only [found, advanced, if_pos begins]
  cases before.job.request <;> rfl

theorem change_advance (tidy : Tidy fits w) (here : w.dispatchers[i]? = some d) (t : Nat) :
    Change fits w (w.advance i d t) := by
  have prompt := tidy.prompt i d here
  cases found : d.pool.task? t with
  | none =>
    simp only [World.advance, found]
    exact .still
  | some before =>
    obtain ⟨member, rfl⟩ := Pool.task?_spec found
    rcases prompt.holding before member with stage | stage
    · have placed := Dispatcher.mem_sites_of_task member
      obtain ⟨m, course⟩ := tidy.placed i d here _ _ placed
      generalize trail : w.trail _ = records at course
      rw [stage] at course
      cases course with
      | waiting _ asks worked =>
        have concern := concern_invocation before.job before.ticket
        have course : Course fits (d.pool.isShutDown = true) d.route i before.ticket m _ _ :=
          .begun before.job asks worked
        rw [advance_granted prompt found stage]
        refine .moved _ i d _ _ _ _
          (moved_onward _ _ m tidy here placed
            (Dispatcher.moves_begin (tidy.distinct i d here) member) (Pool.prompt_move prompt _)
            (fun h => h) concern ?_)
          (effect_onward tidy here placed rfl rfl concern)
        rw [trail]
        simpa using course
    · have advanced := Pool.advance_of_prompt prompt found
      rw [if_neg (by rw [stage]; decide)] at advanced
      simp only [World.advance, found, advanced, stage, ne_eq, not_true_eq_false, false_and,
        if_false]
      exact .tuned i d _ here rfl rfl rfl prompt id

theorem finish_running (prompt : d.pool.Prompt) {before : Task Job}
    (found : d.pool.task? before.ticket = some before) (stage : before.stage = .running)
    (protocol : before.job.protocol = d.route.protocol) (reply : Option Response) :
    ∃ reached, w.finish i d before.ticket reply =
      ⟨match before.job.protocol with
        | .amqp => w.registry.release before.job.id
        | .mqtt => w.registry,
      w.dispatchers.set i { d with pool := { d.pool with
        tasks := d.pool.tasks.filter fun t => t.ticket != before.ticket
        free := d.pool.free + 1 } }, w.issued,
      (.ended before.ticket (before.job.answer reply).isNone ::
        before.job.protocol.releasing before.ticket before.job.id ++
        before.job.handing before.ticket (before.job.answer reply) reached) ++ w.history⟩ := by
  have finished := Pool.finish_of_prompt prompt found stage
  obtain ⟨ticket, job, _⟩ := before
  subst stage
  simp only [World.finish, found, finished]
  simp only at protocol
  unfold Job.handing
  rw [protocol]
  cases job.answer reply with
  | none =>
    refine ⟨true, ?_⟩
    cases d.route.protocol <;> rfl
  | some reply =>
    refine ⟨(d.replies.publish (d.route.protocol.writeReply reply) job.dest).isOk, ?_⟩
    simp only [World.hand]
    cases d.route.protocol <;> rfl

theorem finish_of_not_running {reply : Option Response}
    (h : ¬ ∃ before, d.pool.task? t = some before ∧ before.stage = .running) :
    w.finish i d t reply = w := by
  unfold World.finish
  split
  · rename_i job found
    exact absurd ⟨_, found, rfl⟩ h
  · rfl

theorem change_finish (tidy : Tidy fits w) (here : w.dispatchers[i]? = some d) (t : Nat)
    (reply : Option Response) (answers : w.Answers fits (.finish i t reply)) :
    Change fits w (w.finish i d t reply) := by
  have prompt := tidy.prompt i d here
  by_cases running : ∃ before, d.pool.task? t = some before ∧ before.stage = .running
  · obtain ⟨before, found, stage⟩ := running
    obtain ⟨member, rfl⟩ := Pool.task?_spec found
    have placed := Dispatcher.mem_sites_of_task member
    rw [stage] at placed
    obtain ⟨m, course⟩ := tidy.placed i d here _ _ placed
    generalize trail : w.trail _ = records at course
    cases course with
    | begun _ asks worked =>
      obtain ⟨reached, finished⟩ := finish_running (w := w) (i := i) prompt found stage
        asks.protocol reply
      have concern := concern_ending before.job before.ticket (before.job.answer reply).isNone
        (before.job.answer reply) reached
      have fit : ∀ request r, before.job.request = .ok request → reply = some r →
          fits request r := by
        rintro request r readable rfl
        exact answers d before here found request readable
      have course : Course fits (d.pool.isShutDown = true) d.route i before.ticket m _ _ :=
        .ended before.job asks worked reached reply fit
      have distinct := tickets_nodup (tidy.distinct i d here)
      have finishes := Pool.prompt_finish prompt distinct found stage
      rw [Pool.finish_of_prompt prompt found stage] at finishes
      rw [finished]
      refine .moved _ i d _ _ _ _
        (moved_onward _ _ m tidy here placed
          (Dispatcher.moves_finish (tidy.distinct i d here) member _) finishes (fun h => h)
          concern ?_) ?_
      · rw [trail]
        simpa using course
      · cases protocol : before.job.protocol with
        | amqp =>
          rw [protocol] at concern
          exact .released before.job.id ⟨_, placed, by simp [Site.holds?, protocol]⟩ rfl rfl
            (evictedIds_of_concern concern)
        | mqtt =>
          rw [protocol] at concern
          exact effect_onward tidy here placed rfl (by simp [Site.holds?, protocol]) concern
  · rw [finish_of_not_running running]
    exact .still

theorem change_send (tidy : Tidy fits w) (here : w.dispatchers[i]? = some d) (t : Nat) :
    Change fits w (w.send i d t) := by
  unfold World.send
  split
  · rename_i topic u reply route found
    have member := List.mem_of_find?_eq_some found
    have same : u = t := by simpa using List.find?_some found
    subst same
    have placed := Dispatcher.mem_sites_of_note member
    have concern : ∀ payload reached, Concern u [.handed u payload (.mqtt topic) reached] := by
      simp [Concern, Record.ticket?]
    obtain ⟨m, course⟩ := tidy.placed i d here _ _ placed
    generalize trail : w.trail _ = records at course
    cases course with
    | noting mqtt job asks =>
      have dest : Destination.mqtt topic = job.dest := by
        have dest := asks.dest
        rw [route] at dest
        exact Option.some.inj dest
      refine .moved _ i d _ _ _ _
        (moved_onward _ _ m tidy here placed
          (Dispatcher.moves_send (tidy.distinct i d here) member) (tidy.prompt i d here)
          (fun h => h) (concern _ _) ?_)
        (effect_onward tidy here placed rfl rfl (concern _ _))
      rw [trail, dest]
      exact .noted mqtt job asks _
  · exact .still

theorem change_step (tidy : Tidy fits w) (e : Event) (answers : w.Answers fits e) :
    Change fits w (w.step e) := by
  have visit : ∀ (i : Nat) (act : Dispatcher → World),
      (∀ d, w.dispatchers[i]? = some d → Change fits w (act d)) →
      Change fits w (w.visit i act) := fun _ _ => visit_induction .still
  cases e with
  | receive i m => exact visit i _ fun d here => change_receive tidy here m
  | resume i worked => exact visit i _ fun d here => change_resume tidy here worked
  | advance i t => exact visit i _ fun d here => change_advance tidy here t
  | finish i t reply => exact visit i _ fun d here => change_finish tidy here t reply answers
  | send i t => exact visit i _ fun d here => change_send tidy here t
  | setState i state =>
    exact visit i _ fun d here => .tuned i d _ here rfl rfl rfl (tidy.prompt i d here) fun h => h
  | attach i publisher =>
    exact visit i _ fun d here => .tuned i d _ here rfl rfl rfl (tidy.prompt i d here) fun h => h
  | detach i =>
    exact visit i _ fun d here => .tuned i d _ here rfl rfl rfl (tidy.prompt i d here) fun h => h
  | shutDown i =>
    exact visit i _ fun d here =>
      .tuned i d _ here rfl rfl rfl (Pool.prompt_shutDown (tidy.prompt i d here)) fun _ => rfl

end RequestBus.World
