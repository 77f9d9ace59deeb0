import RequestBus.Daemon
import RequestBus.Proofs.Dictionary
import RequestBus.Proofs.Dispatch.Sharing
import RequestBus.Proofs.Dispatch.Turns
import RequestBus.Proofs.Settings.Address

/-! The connections that settings ask for do not get into each other's way. Each has a name and a
dispatcher of its own, whatever happens to the others. What those of AMQP have in common is the
registry that they were given. -/
namespace RequestBus

/-! ## Names -/

theorem Decimal.natText_injective {m n : Nat} (same : natText m = natText n) : m = n :=
  digits_injective (String.ofList_injective same)

theorem length_consumerNames (count : Nat) : (consumerNames count).length = count := by
  unfold consumerNames
  split
  · rename_i one
    exact one.symm
  · rw [List.length_map, List.length_range]

theorem nodup_consumerNames (count : Nat) : (consumerNames count).Nodup := by
  unfold consumerNames
  split
  · exact List.nodup_singleton _
  · refine List.nodup_range.map fun m n same => ?_
    have numbers : ("amqp-" ++ Decimal.natText m).toList = ("amqp-" ++ Decimal.natText n).toList :=
      congrArg String.toList same
    rw [String.toList_append, String.toList_append, List.append_cancel_left_eq] at numbers
    exact Decimal.natText_injective (String.toList_injective numbers)

theorem head?_of_mem_consumerNames {count : Nat} {name : String}
    (member : name ∈ consumerNames count) : name.toList.head? = some 'a' := by
  unfold consumerNames at member
  split at member
  · rw [List.mem_singleton.mp member]
    decide
  · obtain ⟨i, _, rfl⟩ := List.mem_map.mp member
    rw [String.toList_append]
    rfl

namespace Settings

variable (s : Settings)

def amqpCount : Nat := s.amqp.elim 0 fun a => max 1 a.consumers.toNat

def mqttCount : Nat := s.mqtt.elim 0 fun _ => 1

theorem amqpIdentities_names : s.amqpIdentities.map Identity.name = consumerNames s.amqpCount := by
  unfold amqpIdentities amqpCount
  cases s.amqp with
  | none => rfl
  | some a => simp [Function.comp_def, Nat.max_comm]

theorem nodup_names :
    (s.identities.map Identity.name ++ [daemonComponent, registryComponent]).Nodup := by
  have amqp : ∀ name ∈ consumerNames s.amqpCount, name ∉ ["mqtt", "daemon", "dedup"] := by
    intro name member known
    have first := head?_of_mem_consumerNames member
    simp only [List.mem_cons, List.not_mem_nil, or_false] at known
    rcases known with rfl | rfl | rfl <;> exact absurd first (by decide)
  have others : (s.mqttIdentities.map Identity.name ++
      [daemonComponent, registryComponent]).Sublist ["mqtt", "daemon", "dedup"] := by
    unfold mqttIdentities
    cases s.mqtt with
    | none => exact List.sublist_cons_self _ _
    | some m => exact List.Sublist.refl _
  rw [identities, List.map_append, List.append_assoc, amqpIdentities_names]
  refine List.nodup_append.mpr ⟨nodup_consumerNames _, others.nodup (by decide), ?_⟩
  rintro name member _ behind rfl
  exact amqp name member (others.subset behind)

theorem protocols : s.identities.map (fun i => i.route.protocol) =
    List.replicate s.amqpCount .amqp ++ List.replicate s.mqttCount .mqtt := by
  rw [identities, List.map_append]
  congr 1
  · unfold amqpIdentities amqpCount
    cases s.amqp with
    | none => rfl
    | some a =>
      rw [List.map_map, List.eq_replicate_iff]
      refine ⟨?_, fun p member => ?_⟩
      · rw [List.length_map, length_consumerNames, Nat.max_comm]
        rfl
      · obtain ⟨name, _, rfl⟩ := List.mem_map.mp member
        rfl
  · unfold mqttIdentities mqttCount
    cases s.mqtt <;> rfl

/-- Workers are asked for, and more of them than a pool has slots for. -/
def Overflows : Prop :=
  (s.amqp.isSome = true ∨ s.mqtt.isSome = true) ∧ Pool.maxSlots < s.dispatch.poolSize.toNat

theorem identities_ne_nil (asked : s.amqp.isSome = true ∨ s.mqtt.isSome = true) :
    s.identities ≠ [] := by
  intro none
  obtain ⟨amqp, mqtt⟩ := List.append_eq_nil_iff.mp none
  have consumers : s.amqpCount = 0 := by
    rw [← length_consumerNames s.amqpCount, ← amqpIdentities_names, amqp]
    rfl
  rcases asked with asked | asked
  · obtain ⟨a, present⟩ := Option.isSome_iff_exists.mp asked
    simp [amqpCount, present] at consumers
  · obtain ⟨m, present⟩ := Option.isSome_iff_exists.mp asked
    simp [mqttIdentities, present] at mqtt

theorem identities_eq_nil (unasked : ¬ (s.amqp.isSome = true ∨ s.mqtt.isSome = true)) :
    s.identities = [] := by
  simp only [not_or, Bool.not_eq_true, Option.isSome_eq_false_iff, Option.isNone_iff_eq_none]
    at unasked
  simp [identities, amqpIdentities, mqttIdentities, unasked]

end Settings

theorem Dispatcher.create_eq (name : String) (route : ReplyRoute) (workers : Nat) :
    Dispatcher.create name route workers =
      if max workers 1 ≤ Pool.maxSlots then .ok (.new name route workers)
      else .error Pool.tooManySlots := by
  unfold Dispatcher.create Pool.create
  split <;> rfl

theorem Settings.dispatchers_of_overflows {s : Settings} (overflows : s.Overflows) :
    s.dispatchers = .error Pool.tooManySlots := by
  obtain ⟨asked, tooMany⟩ := overflows
  obtain ⟨i, more, some⟩ := List.exists_cons_of_ne_nil (s.identities_ne_nil asked)
  have refused : ¬ max s.dispatch.poolSize.toNat 1 ≤ Pool.maxSlots := by omega
  rw [dispatchers, some, List.mapM_cons, Dispatcher.create_eq, if_neg refused]
  rfl

theorem Settings.dispatchers_of_fits {s : Settings} (fits : ¬ s.Overflows) :
    s.dispatchers = .ok (s.identities.map fun i =>
      Dispatcher.new i.name i.route s.dispatch.poolSize.toNat) := by
  by_cases asked : s.amqp.isSome = true ∨ s.mqtt.isSome = true
  · have room : max s.dispatch.poolSize.toNat 1 ≤ Pool.maxSlots := by
      have few : s.dispatch.poolSize.toNat ≤ Pool.maxSlots :=
        Nat.not_lt.mp fun tooMany => fits ⟨asked, tooMany⟩
      exact Nat.max_le.mpr ⟨few, by decide⟩
    simp only [dispatchers, Dispatcher.create_eq, room, if_true]
    exact List.mapM_pure
  · rw [dispatchers, s.identities_eq_nil asked]
    rfl

/-! ## A connection keeps to itself -/

def Deeds.Concern (i : Nat) (deeds : Deeds) : Prop := ∀ e ∈ deeds.events, e.steers i = true

namespace Deeds

variable {i : Nat}

@[simp] theorem concern_nothing : Concern i {} := nofun

@[simp] theorem concern_report (m : Mark) : (report m).Concern i := nofun

@[simp] theorem concern_take (e : Event) : (take e).Concern i ↔ e.steers i = true :=
  List.forall_mem_singleton

@[simp] theorem concern_showing (before after : ConnectionState) :
    (showing i before after).Concern i :=
  List.forall_mem_singleton.mpr (beq_self_eq_true i)

@[simp] theorem concern_append (a b : Deeds) :
    (a ++ b).Concern i ↔ a.Concern i ∧ b.Concern i :=
  List.forall_mem_append

end Deeds

theorem Event.dispatcher_of_steers {i : Nat} {e : Event} (steers : e.steers i = true) :
    e.dispatcher = i := by
  cases e <;> simp_all [Event.steers, Event.dispatcher]

structure Connection.Keeps (c : Connection) (after : Connection × Deeds) : Prop where
  name : after.1.name = c.name
  dispatcher : after.1.dispatcher = c.dispatcher
  protocol : after.1.protocol = c.protocol
  concern : after.2.Concern c.dispatcher

namespace Connection

variable {i : Nat} {d : Dispatcher}

theorem keeps_amqp (c : AmqpConnection) (s : Signal) : (amqp c).Keeps ((amqp c).signal d s) := by
  have quiet : Deeds.Concern c.dispatcher {} := Deeds.concern_nothing
  have closes (result : Except BusError Unit) : (amqp c).Keeps
      (amqp (c.beginClose d result).1, (c.beginClose d result).2) :=
    ⟨rfl, rfl, rfl, by simp [AmqpConnection.beginClose, AmqpConnection.apply, dispatcher,
      Event.steers]⟩
  rw [show (amqp c).signal d s = (amqp (c.signal d s).1, (c.signal d s).2) from rfl]
  unfold AmqpConnection.signal
  split
  case h_1 | h_2 => exact ⟨rfl, rfl, rfl, Deeds.concern_showing _ _⟩
  case h_3 | h_7 | h_12 => exact ⟨rfl, rfl, rfl, quiet⟩
  case h_4 =>
    unfold AmqpConnection.proceed
    split
    · split
      · exact closes _
      · exact ⟨rfl, rfl, rfl, Deeds.concern_showing _ _⟩
    · split
      · exact closes _
      · exact ⟨rfl, rfl, rfl, quiet⟩
    · split <;> exact ⟨rfl, rfl, rfl, quiet⟩
    · split
      · exact ⟨rfl, rfl, rfl, by simp [AmqpConnection.finishClose, AmqpConnection.apply, dispatcher,
          Event.steers]⟩
      · exact ⟨rfl, rfl, rfl, quiet⟩
    · exact ⟨rfl, rfl, rfl, quiet⟩
  case h_5 refused text _ =>
    cases ends : refused && !c.wasConnected with
    | true =>
      obtain ⟨name, dispatcher, protocol, concern⟩ := closes (.error (.authentication text))
      simp only [AmqpConnection.fail, ends]
      exact ⟨name, dispatcher, protocol, by simpa using concern⟩
    | false =>
      simp only [AmqpConnection.fail, ends]
      exact ⟨rfl, rfl, rfl, by simp [AmqpConnection.fallBack, AmqpConnection.apply, dispatcher]⟩
  case h_6 | h_10 | h_11 =>
    exact ⟨rfl, rfl, rfl, by simp [AmqpConnection.abandon, AmqpConnection.serve,
      AmqpConnection.lose, AmqpConnection.fallBack, AmqpConnection.apply, dispatcher,
      Event.steers]⟩
  case h_8 =>
    split
    · exact ⟨rfl, rfl, rfl, Deeds.concern_showing _ _⟩
    · exact ⟨rfl, rfl, rfl, quiet⟩
  case h_9 =>
    split
    · exact ⟨rfl, rfl, rfl, by simp [AmqpConnection.establish, AmqpConnection.apply, dispatcher,
        Event.steers]⟩
    · exact ⟨rfl, rfl, rfl, quiet⟩

theorem keeps_mqtt (c : MqttConnection) (s : Signal) : (mqtt c).Keeps ((mqtt c).signal d s) := by
  have quiet : Deeds.Concern c.dispatcher {} := Deeds.concern_nothing
  rw [show (mqtt c).signal d s = (mqtt (c.signal d s).1, (c.signal d s).2) from rfl]
  unfold MqttConnection.signal
  split
  case h_1 | h_2 | h_7 =>
    exact ⟨rfl, rfl, rfl, by simp [MqttConnection.showing, dispatcher, Event.steers]⟩
  case h_3 | h_8 => exact ⟨rfl, rfl, rfl, quiet⟩
  case h_4 =>
    unfold MqttConnection.proceed
    split
    case h_1 | h_2 =>
      split
      · exact ⟨rfl, rfl, rfl, by simp [MqttConnection.beginClose, MqttConnection.showing,
          dispatcher, Event.steers]⟩
      · exact ⟨rfl, rfl, rfl, quiet⟩
    case h_3 =>
      split
      · exact ⟨rfl, rfl, rfl, (Deeds.concern_take _).mpr (beq_self_eq_true _)⟩
      · exact ⟨rfl, rfl, rfl, quiet⟩
    case h_4 => exact ⟨rfl, rfl, rfl, Deeds.concern_showing _ _⟩
    case h_5 => exact ⟨rfl, rfl, rfl, quiet⟩
  case h_5 =>
    unfold MqttConnection.fail
    split <;>
      exact ⟨rfl, rfl, rfl, by simp [MqttConnection.showing, dispatcher, Event.steers]⟩
  case h_6 =>
    have subscribes (c : MqttConnection) (queued : Bool) : (mqtt c).Keeps
        (mqtt (c.subscribe d queued).1, (c.subscribe d queued).2) := by
      unfold MqttConnection.subscribe
      split
      · exact ⟨rfl, rfl, rfl, by simp [MqttConnection.showing, dispatcher]⟩
      · exact ⟨rfl, rfl, rfl, Deeds.concern_nothing⟩
    unfold MqttConnection.poll
    split
    · obtain ⟨name, dispatcher, protocol, concern⟩ := subscribes c.welcome _
      exact ⟨name, dispatcher, protocol, concern⟩
    · exact subscribes c _

theorem keeps (c : Connection) (s : Signal) : c.Keeps (c.signal d s) := by
  cases c with
  | amqp c => exact keeps_amqp c s
  | mqtt c => exact keeps_mqtt c s

@[simp] theorem name_ofIdentity (identity : Identity) :
    (ofIdentity identity i).name = identity.name := by
  unfold ofIdentity
  split <;> rfl

@[simp] theorem dispatcher_ofIdentity (identity : Identity) :
    (ofIdentity identity i).dispatcher = i := by
  unfold ofIdentity
  split <;> rfl

theorem protocol_ofIdentity (identity : Identity) :
    (ofIdentity identity i).protocol = identity.route.protocol := by
  unfold ofIdentity
  split <;> rename_i route <;> rw [route] <;> rfl

end Connection

namespace World

variable {w : World} {j : Nat}

theorem dispatchers_step_other {e : Event} (other : e.dispatcher ≠ j) :
    (w.step e).dispatchers[j]? = w.dispatchers[j]? := by
  rcases w.step_acts e with same | ⟨d, v, _, dispatchers, _, acts⟩
  · rw [same]
  · rcases acts.dispatchers with same | ⟨next, _, same⟩
    · rw [same, dispatchers]
    · rw [same, dispatchers, List.getElem?_set_ne other]

theorem dispatchers_run_other {events : List Event} (others : ∀ e ∈ events, e.dispatcher ≠ j) :
    (w.run events).dispatchers[j]? = w.dispatchers[j]? := by
  induction events generalizing w with
  | nil => rfl
  | cons e events ih =>
    obtain ⟨other, behind⟩ := List.forall_mem_cons.mp others
    exact (ih behind).trans (dispatchers_step_other other)

theorem route_run {d : Dispatcher} (here : w.dispatchers[j]? = some d) (events : List Event) :
    ∃ next, (w.run events).dispatchers[j]? = some next ∧ next.route = d.route := by
  induction events generalizing w d with
  | nil => exact ⟨d, here, rfl⟩
  | cons e events ih =>
    obtain ⟨next, there, becomes⟩ := dispatcher_step here e
    obtain ⟨last, found, route⟩ := ih there
    exact ⟨last, found, route.trans becomes.route⟩

end World

theorem Health.get?_markAll_other (h : Health) {name key : String} (other : key ≠ name)
    (now : String) (ms : List Mark) : (h.markAll now name ms).get? key = h.get? key := by
  unfold markAll
  induction ms generalizing h with
  | nil => rfl
  | cons m ms ih =>
    rw [List.foldl_cons, ih, mark, Dictionary.get?_insert, if_neg other]

/-! ## A fleet under way -/

namespace Fleet

inductive Move where
  | signal (now : String) (i : Nat) (s : Signal)
  | event (e : Event)
  | report (now component : String) (m : Mark)
  | refresh (now : String)

def Move.actor? : Move → Option Nat
  | .signal _ i _ => some i
  | .event e => some e.dispatcher
  | .report _ _ _ => none
  | .refresh _ => none

def move (f : Fleet) : Move → Fleet
  | .signal now i s => f.signals now i [s]
  | .event e => { f with shop := f.shop.step e }
  | .report now component m => f.report now component m
  | .refresh now => f.refresh now

def follow (f : Fleet) (moves : List Move) : Fleet := moves.foldl move f

def Writes (f : Fleet) (i : Nat) (key : String) : Prop :=
  ∃ now s, (f.move (.signal now i s)).health.get? key ≠ f.health.get? key

def signs (f : Fleet) : List (String × Nat × Protocol) :=
  f.connections.map fun c => (c.name, c.dispatcher, c.protocol)

variable {f : Fleet}

theorem move_signal (f : Fleet) (now : String) (i : Nat) (s : Signal) :
    f.move (.signal now i s) = f ∨ ∃ c d, f.connections[i]? = some c ∧ f.dispatcher? c = some d ∧
      f.move (.signal now i s) =
        { connections := f.connections.set i (c.signal d s).1
          shop := { f.shop with world := f.shop.world.run (c.signal d s).2.events }
          health := f.health.markAll now (c.signal d s).1.name (c.signal d s).2.reports } := by
  rw [show f.move (.signal now i s) = f.act now i (fun c d => c.signal d s) from rfl]
  unfold act
  split
  · exact .inl rfl
  · rename_i c member
    split
    · exact .inl rfl
    · rename_i d here
      exact .inr ⟨c, d, member, here, rfl⟩

theorem signs_move (f : Fleet) (m : Move) : (f.move m).signs = f.signs := by
  cases m with
  | signal now i s =>
    rcases f.move_signal now i s with same | ⟨c, d, member, -, same⟩
    · rw [same]
    · have keeps := c.keeps (d := d) s
      rw [same, signs, List.map_set, keeps.name, keeps.dispatcher, keeps.protocol, signs]
      exact World.set_same (by rw [List.getElem?_map, member]; rfl)
  | _ => rfl

theorem signs_follow (f : Fleet) (moves : List Move) : (f.follow moves).signs = f.signs := by
  induction moves generalizing f with
  | nil => rfl
  | cons m moves ih => exact (ih _).trans (f.signs_move m)

theorem world_move (f : Fleet) (m : Move) :
    ∃ events, (f.move m).shop.world = f.shop.world.run events := by
  cases m with
  | signal now i s =>
    rcases f.move_signal now i s with same | ⟨c, d, -, -, same⟩
    · exact ⟨[], by rw [same]; rfl⟩
    · exact ⟨(c.signal d s).2.events, by rw [same]⟩
  | event e => exact ⟨[e], rfl⟩
  | report | refresh => exact ⟨[], rfl⟩

theorem world_follow (f : Fleet) (moves : List Move) :
    ∃ events, (f.follow moves).shop.world = f.shop.world.run events := by
  induction moves generalizing f with
  | nil => exact ⟨[], rfl⟩
  | cons m moves ih =>
    obtain ⟨first, here⟩ := f.world_move m
    obtain ⟨second, behind⟩ := ih (f.move m)
    refine ⟨first ++ second, ?_⟩
    rw [World.run_append, ← here, ← behind]
    rfl

theorem connections_follow {moves : List Move} {i : Nat} {c : Connection}
    (member : (f.follow moves).connections[i]? = some c) : ∃ before,
      f.connections[i]? = some before ∧ c.name = before.name ∧
      c.dispatcher = before.dispatcher ∧ c.protocol = before.protocol := by
  have same := congrArg (fun signs => signs[i]?) (f.signs_follow moves)
  simp only [signs, List.getElem?_map, member, Option.map_some] at same
  obtain ⟨before, there, sign⟩ := Option.map_eq_some_iff.mp same.symm
  simp only [Prod.mk.injEq] at sign
  exact ⟨before, there, sign.1.symm, sign.2.1.symm, sign.2.2.symm⟩

def Placed (f : Fleet) : Prop :=
  ∀ (i : Nat) (c : Connection), f.connections[i]? = some c → c.dispatcher = i

theorem placed_follow (placed : f.Placed) (moves : List Move) : (f.follow moves).Placed := by
  intro i c member
  obtain ⟨before, there, _, dispatcher, _⟩ := connections_follow member
  exact dispatcher.trans (placed i before there)

theorem dispatchers_move (placed : f.Placed) {m : Move} {j : Nat} (other : m.actor? ≠ some j) :
    (f.move m).shop.world.dispatchers[j]? = f.shop.world.dispatchers[j]? := by
  cases m with
  | signal now i s =>
    rcases f.move_signal now i s with same | ⟨c, d, member, -, same⟩
    · rw [same]
    · rw [same]
      refine World.dispatchers_run_other fun e at' here => other ?_
      have concern := (c.keeps (d := d) s).concern e at'
      rw [← here, Event.dispatcher_of_steers concern, placed i c member]
      rfl
  | event e => exact World.dispatchers_step_other fun here => other (congrArg some here)
  | report | refresh => rfl

theorem Writes.named {i : Nat} {key : String} (writes : f.Writes i key) :
    (f.connections.map Connection.name)[i]? = some key := by
  obtain ⟨now, s, changed⟩ := writes
  rcases f.move_signal now i s with same | ⟨c, d, member, -, same⟩
  · exact absurd (by rw [same]) changed
  · have keeps := c.keeps (d := d) s
    rw [List.getElem?_map, member, Option.map_some, Option.some.injEq, ← keeps.name]
    by_contra other
    refine changed ?_
    rw [same]
    exact Health.get?_markAll_other _ (Ne.symm other) _ _

theorem names_follow (f : Fleet) (moves : List Move) :
    (f.follow moves).connections.map Connection.name = f.connections.map Connection.name := by
  have same := congrArg (List.map Prod.fst) (f.signs_follow moves)
  simpa only [signs, List.map_map, Function.comp_def] using same

/-! ## The connections of some settings -/

/-- The connections that settings ask for, if their pools can be made. -/
def given (s : Settings) (registry : Registry) (handler : Request → Handling) : Fleet :=
  { connections := s.identities.zipIdx.map fun e => .ofIdentity e.1 e.2
    shop := { world := .ofDispatchers registry (s.identities.map fun i =>
                Dispatcher.new i.name i.route s.dispatch.poolSize.toNat)
              handler } }

variable {s : Settings} {handler : Request → Handling} {registry : Registry}

theorem connections_given {i : Nat} {c : Connection} :
    (given s registry handler).connections[i]? = some c ↔
      ∃ identity, s.identities[i]? = some identity ∧ c = .ofIdentity identity i := by
  rw [show (given s registry handler).connections =
    s.identities.zipIdx.map fun e => .ofIdentity e.1 e.2 from rfl]
  rw [List.getElem?_map, List.getElem?_zipIdx, Option.map_map, Option.map_eq_some_iff]
  simp [eq_comm]

theorem map_given (g : Connection → α) (h : Identity → α)
    (same : ∀ identity i, g (.ofIdentity identity i) = h identity) :
    (given s registry handler).connections.map g = s.identities.map h := by
  rw [show (given s registry handler).connections =
    s.identities.zipIdx.map fun e => .ofIdentity e.1 e.2 from rfl, List.map_map]
  rw [show (g ∘ fun e : Identity × Nat => Connection.ofIdentity e.1 e.2) = h ∘ Prod.fst from
    funext fun e => same e.1 e.2, ← List.map_map, List.zipIdx_map_fst]

theorem dispatcher_given {i : Nat} {identity : Identity} (here : s.identities[i]? = some identity) :
    (given s registry handler).shop.world.dispatchers[i]? =
      some (.new identity.name identity.route s.dispatch.poolSize.toNat) := by
  have dispatchers : (given s registry handler).shop.world.dispatchers = s.identities.map
      fun i => .new i.name i.route s.dispatch.poolSize.toNat := rfl
  rw [dispatchers, List.getElem?_map, here]
  rfl

theorem placed_given : (given s registry handler).Placed := by
  intro i c member
  obtain ⟨identity, _, rfl⟩ := connections_given.mp member
  exact Connection.dispatcher_ofIdentity identity

end Fleet

/-- Nothing has happened to a connection and its dispatcher, and all its slots are free. -/
structure Connection.Fresh (c : Connection) (d : Dispatcher) (slots : Nat) : Prop where
  unrun : c.result? = none
  state : d.state = .disconnected
  idle : d.call = none
  capacity : d.pool.capacity = slots
  free : d.pool.free = slots
  tasks : d.pool.tasks = []

namespace Fleet

variable {s : Settings} {handler : Request → Handling} {registry : Registry}

theorem dispatchers_given {i : Nat} {c : Connection}
    (member : (given s registry handler).connections[i]? = some c) :
    ∃ d, (given s registry handler).shop.world.dispatchers[i]? = some d ∧
      d.route.protocol = c.protocol ∧ c.Fresh d (max 1 s.dispatch.poolSize.toNat) := by
  obtain ⟨identity, here, rfl⟩ := connections_given.mp member
  refine ⟨_, dispatcher_given here, ?_, ?_⟩
  · rw [Connection.protocol_ofIdentity]
    rfl
  · refine ⟨?_, rfl, rfl, Nat.max_comm _ _, Nat.max_comm _ _, rfl⟩
    unfold Connection.ofIdentity
    split <;> rfl

/-- What it means for the dispatcher `d` at the position `i` that its registry is shared: an id that
anybody has accepted is refused, as long as it is neither evicted nor released, and accepted after
that. -/
structure Shares (w : World) (i : Nat) (d : Dispatcher) : Prop where
  refuses : ∀ m id worked, d.Takes m id → Standing id w.history →
    (w.dispatch i m worked).history = [.decided w.issued .rejected,
      .rejected w.issued worked, .received w.issued i m] ++ w.history ∧
    Standing id (w.dispatch i m worked).history
  accepts : ∀ m id worked, d.Takes m id → Cleared id w.history →
    .accepted w.issued id ∈ (w.dispatch i m worked).history

theorem shares_run {dispatchers : List Dispatcher} {i : Nat} {d : Dispatcher} {events : List Event}
    (here : ((World.ofDispatchers registry dispatchers).run events).dispatchers[i]? = some d)
    (amqp : d.route.protocol = .amqp) :
    Shares ((World.ofDispatchers registry dispatchers).run events) i d where
  refuses m id worked takes standing := by
    have known := (World.contains_of_history registry dispatchers events).1 standing
    have history := (World.dispatch_duplicate here amqp takes known worked).1
    rw [history]
    refine ⟨rfl, standing.onward fun r member => ?_⟩
    simp only [List.mem_cons, List.not_mem_nil, or_false] at member
    rcases member with rfl | rfl | rfl <;> exact nofun
  accepts m id worked takes cleared := by
    have unknown := (World.contains_of_history registry dispatchers events).2 cleared
    exact World.dispatch_new here amqp takes unknown worked

/-- Connections of some settings that have names, entries, dispatchers and pools of their own, and
share the registry that they are given. -/
structure Apart (s : Settings) (registry : Registry) (start : Fleet) : Prop where
  protocols : start.connections.map Connection.protocol =
    List.replicate s.amqpCount .amqp ++ List.replicate s.mqttCount .mqtt
  names : (start.connections.map Connection.name ++ [daemonComponent, registryComponent]).Nodup
  fresh : ∀ (i : Nat) (c : Connection), start.connections[i]? = some c →
    ∃ d, start.dispatcher? c = some d ∧ c.Fresh d (max 1 s.dispatch.poolSize.toNat)
  registry : start.shop.world.registry = registry
  entries : ∀ moves i key, (start.follow moves).Writes i key →
    key ∉ [daemonComponent, registryComponent] ∧
      ∀ others j, (start.follow others).Writes j key → j = i
  dispatchers : ∀ moves m j, m.actor? ≠ some j →
    ((start.follow moves).move m).shop.world.dispatchers[j]? =
      (start.follow moves).shop.world.dispatchers[j]?
  shared : ∀ moves (i : Nat) (c : Connection), (start.follow moves).connections[i]? = some c →
    c.dispatcher = i ∧ ∃ d, (start.follow moves).dispatcher? c = some d ∧
      (c.protocol = .amqp → Shares (start.follow moves).shop.world i d)

theorem apart_given (s : Settings) (registry : Registry) (handler : Request → Handling) :
    Apart s registry (given s registry handler) := by
  have names : (given s registry handler).connections.map Connection.name =
      s.identities.map Identity.name := map_given _ _ fun _ _ => Connection.name_ofIdentity _
  have distinct := s.nodup_names
  rw [← names] at distinct
  constructor
  case protocols =>
    rw [← s.protocols]
    exact map_given _ _ fun _ _ => Connection.protocol_ofIdentity _
  case names => exact distinct
  case fresh =>
    intro i c member
    obtain ⟨d, here, _, fresh⟩ := dispatchers_given member
    exact ⟨d, by rwa [dispatcher?, placed_given i c member], fresh⟩
  case registry => rfl
  case entries =>
    intro moves i key writes
    have named := writes.named
    rw [names_follow] at named
    refine ⟨?_, fun others j again => ?_⟩
    · have apart := (List.nodup_append.mp distinct).2.2
      exact fun other => apart key (List.mem_of_getElem? named) key other rfl
    · have same := again.named
      rw [names_follow] at same
      have nodup := (List.nodup_append.mp distinct).1
      obtain ⟨there, value⟩ := List.getElem?_eq_some_iff.mp named
      obtain ⟨there', value'⟩ := List.getElem?_eq_some_iff.mp same
      exact (nodup.getElem_inj_iff).mp (value'.trans value.symm)
  case dispatchers =>
    exact fun moves m j other => dispatchers_move (placed_follow placed_given moves) other
  case shared =>
    intro moves i c member
    obtain ⟨before, there, _, dispatcher, protocol⟩ := connections_follow member
    obtain ⟨first, here, route, _⟩ := dispatchers_given there
    obtain ⟨events, world⟩ := (given s registry handler).world_follow moves
    obtain ⟨d, found, kept⟩ := World.route_run here events
    have own : c.dispatcher = i := dispatcher.trans (placed_given i before there)
    refine ⟨own, d, by rw [dispatcher?, own, Workshop.dispatcher?, world, found], fun amqp => ?_⟩
    rw [world]
    exact shares_run found (by rw [kept, route, ← protocol, amqp])

theorem ofSettings_of_fits (fits : ¬ s.Overflows) :
    ofSettings s registry handler = .ok (given s registry handler) := by
  rw [ofSettings, s.dispatchers_of_fits fits]
  rfl

theorem ofSettings_of_overflows (overflows : s.Overflows) :
    ofSettings s registry handler = .error Pool.tooManySlots := by
  rw [ofSettings, s.dispatchers_of_overflows overflows]
  rfl

/-- The connections that settings ask for are there and do not get into each other's way, unless
their pools would have more slots than a pool can. -/
theorem connections_apart (s : Settings) (registry : Registry) (handler : Request → Handling) :
    (¬ s.Overflows → ∃ start, ofSettings s registry handler = .ok start ∧
      Apart s registry start) ∧
    (s.Overflows → ofSettings s registry handler = .error Pool.tooManySlots) :=
  ⟨fun fits => ⟨_, ofSettings_of_fits fits, apart_given s registry handler⟩,
    ofSettings_of_overflows⟩

def pair : Settings := { amqp := some { AmqpSettings.example with consumers := 2 } }

def crowded : Settings :=
  { mqtt := some MqttSettings.example, dispatch := { poolSize := 2305843009213693952 } }

def asked : Message :=
  { body := Utf8.encode "\x7b\"id\":\"r\"\x7d", replyTo := some "q" }

def pairAtWork : World :=
  ((given pair (.ofCapacity 1) fun _ => .crashes).follow
    [.event (.receive 0 asked), .event (.resume 0 true)]).shop.world

/-- The second connection refuses what the first one has taken; one slot too many, and there are
no connections. -/
theorem connections_apart_of_pair :
    ofSettings pair (.ofCapacity 1) (fun _ => .crashes) =
      .ok (given pair (.ofCapacity 1) fun _ => .crashes) ∧
    pairAtWork.history = [.decided 0 .submitted, .acknowledged 0 true, .accepted 0 "r",
      .received 0 0 asked] ∧
    (pairAtWork.dispatch 1 asked true).history =
      [.decided 1 .rejected, .rejected 1 true, .received 1 1 asked] ++ pairAtWork.history ∧
    ofSettings crowded (.ofCapacity 1) (fun _ => .crashes) = .error Pool.tooManySlots := by
  have fits : ¬ pair.Overflows := fun overflows => absurd overflows.2 (by decide)
  have overflows : crowded.Overflows := ⟨.inr rfl, by decide⟩
  obtain ⟨start, built, apart⟩ := (connections_apart pair (.ofCapacity 1) fun _ => .crashes).1 fits
  obtain rfl : start = given pair (.ofCapacity 1) fun _ => .crashes :=
    Except.ok.inj (built.symm.trans (ofSettings_of_fits fits))
  obtain ⟨-, d, here, shares⟩ :=
    apart.shared [.event (.receive 0 asked), .event (.resume 0 true)] 1
      (.amqp { name := "amqp-" ++ Decimal.natText 1, dispatcher := 1 }) rfl
  have away : ∀ e ∈ [Event.receive 0 asked, .resume 0 true], e.dispatcher ≠ 1 := by
    simp [Event.dispatcher]
  have same : d = Dispatcher.new ("amqp-" ++ Decimal.natText 1) (.amqp "cse-ext") 8 :=
    Option.some.inj (here.symm.trans (World.dispatchers_run_other away))
  have takes : d.Takes asked "r" := by
    rw [same]
    exact ⟨rfl, rfl, rfl, by decide +kernel⟩
  have history : pairAtWork.history = [.decided 0 .submitted, .acknowledged 0 true,
      .accepted 0 "r", .received 0 0 asked] := by decide +kernel
  have standing : Standing "r" pairAtWork.history :=
    ⟨[.decided 0 .submitted, .acknowledged 0 true], 0, _, history, by decide, by simp⟩
  have issued : pairAtWork.issued = 1 := by decide +kernel
  have refused := ((shares rfl).refuses asked "r" true takes standing).1
  rw [← pairAtWork, issued] at refused
  exact ⟨built, history, refused, (connections_apart crowded _ _).2 overflows⟩

/-- Settings that pass the check, and for which there are no connections. -/
theorem no_connections_of_crowded :
    crowded.validate = .ok () ∧
    ofSettings crowded (.ofCapacity 1024) (fun _ => .crashes) = .error Pool.tooManySlots := by
  have overflows : crowded.Overflows := ⟨.inr rfl, by decide⟩
  exact ⟨by decide +kernel, ofSettings_of_overflows overflows⟩

end Fleet

end RequestBus
