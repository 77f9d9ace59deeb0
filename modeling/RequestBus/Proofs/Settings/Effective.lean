import Mathlib.Data.Nat.Digits.Defs
import RequestBus.Proofs.Settings.Address
import RequestBus.Proofs.Settings.Sections
import RequestBus.Proofs.Text.Utf8

namespace RequestBus

def NonBlank (text : String) : Prop := ∃ c ∈ text.toList, Text.isBlank c = false

/-- Where a text has the meaning of a value, that value; where nothing is given, or it has no
meaning, the default. -/
inductive Chosen (means : String → α → Prop) (given : Option String) (default : α) : α → Prop
  | given (text : String) {value : α} (present : given = some text) (meant : means text value) :
      Chosen means given default value
  | kept (nothing : ∀ text ∈ given, ∀ value, ¬ means text value) :
      Chosen means given default default

def MeansSecret (text secret : String) : Prop := text ≠ "" ∧ secret = text

/-- Blanks around digits, before which there may be a plus sign, and which stand for a positive
number of 64 bits. -/
def MeansSize (text : String) (n : UInt64) : Prop :=
  ∃ before sign digits after, text.toList = before ++ (sign ++ digits) ++ after ∧
    (∀ c ∈ before, Text.isBlank c = true) ∧ (∀ c ∈ after, Text.isBlank c = true) ∧
    (sign = [] ∨ sign = ['+']) ∧ digits ≠ [] ∧ (∀ c ∈ digits, '0' ≤ c ∧ c ≤ '9') ∧
    Nat.ofDigits 10 (digits.map fun c => c.toNat - '0'.toNat).reverse = n.toNat ∧ 0 < n

namespace Decimal

theorem digit?_eq_some {c : Char} {d : Nat} :
    digit? c = some d ↔ ('0' ≤ c ∧ c ≤ '9') ∧ d = c.toNat - '0'.toNat := by
  unfold digit?
  split
  · rename_i digit
    simp [digit, eq_comm]
  · rename_i other
    simp [other]

theorem valueFrom_eq_some {cs : List Char} {start n : Nat} : valueFrom start cs = some n ↔
    (∀ c ∈ cs, '0' ≤ c ∧ c ≤ '9') ∧
      Nat.ofDigits 10 ((cs.map fun c => c.toNat - '0'.toNat).reverse ++ [start]) = n := by
  induction cs generalizing start with
  | nil => simp [valueFrom]
  | cons c cs ih =>
    have place (d : Nat) : Nat.ofDigits 10
          ((cs.map fun c => c.toNat - '0'.toNat).reverse ++ [start * 10 + d]) =
        Nat.ofDigits 10 ((cs.map fun c => c.toNat - '0'.toNat).reverse ++ [d] ++ [start]) := by
      rw [List.append_assoc, Nat.ofDigits_append, Nat.ofDigits_append, Nat.ofDigits_append]
      simp only [Nat.ofDigits_singleton, List.length_singleton, pow_one]
      ring
    rw [valueFrom, Option.bind_eq_some_iff, List.map_cons, List.reverse_cons, List.forall_mem_cons]
    constructor
    · rintro ⟨d, found, value⟩
      obtain ⟨digit, rfl⟩ := digit?_eq_some.mp found
      obtain ⟨digits, rfl⟩ := ih.mp value
      exact ⟨⟨digit, digits⟩, (place _).symm⟩
    · rintro ⟨⟨digit, digits⟩, rfl⟩
      exact ⟨_, digit?_eq_some.mpr ⟨digit, rfl⟩, ih.mpr ⟨digits, place _⟩⟩

theorem value?_eq_some {cs : List Char} {n : Nat} : value? cs = some n ↔
    cs ≠ [] ∧ (∀ c ∈ cs, '0' ≤ c ∧ c ≤ '9') ∧
      Nat.ofDigits 10 (cs.map fun c => c.toNat - '0'.toNat).reverse = n := by
  unfold value?
  split
  · rename_i empty
    simp [empty]
  · rename_i some
    rw [valueFrom_eq_some, Nat.ofDigits_append]
    simp [some]

end Decimal

theorem notBlank_of_digit {c : Char} (digit : '0' ≤ c ∧ c ≤ '9') : Text.isBlank c = false := by
  have low : '0'.toNat ≤ c.toNat := digit.1
  have high : c.toNat ≤ '9'.toNat := digit.2
  simp only [Char.reduceToNat] at low high
  simp only [Text.isBlank, Bool.or_eq_false_iff, Bool.and_eq_false_iff, decide_eq_false_iff_not,
    beq_eq_false_iff_ne]
  omega

namespace Settings

theorem exists_sign (cs : List Char) : ∃ sign, (sign = [] ∨ sign = ['+']) ∧
    cs = sign ++ if cs.head? = some '+' then cs.tail else cs := by
  split
  · rename_i plus
    obtain ⟨rest, rfl⟩ := List.head?_eq_some_iff.mp plus
    exact ⟨['+'], .inr rfl, rfl⟩
  · exact ⟨[], .inl rfl, rfl⟩

theorem behind_sign {sign digits : List Char} (signs : sign = [] ∨ sign = ['+'])
    (number : ∀ c ∈ digits, '0' ≤ c ∧ c ≤ '9') :
    (if (sign ++ digits).head? = some '+' then (sign ++ digits).tail else sign ++ digits) =
      digits := by
  rcases signs with rfl | rfl
  · rw [List.nil_append, if_neg]
    intro plus
    exact absurd (number '+' (List.mem_of_mem_head? plus)) (by decide)
  · exact if_pos rfl

theorem size_eq_some {m : Nat} {n : UInt64} :
    (if 0 < m ∧ m < UInt64.size then some (UInt64.ofNat m) else none) = some n ↔
      m = n.toNat ∧ 0 < n := by
  rw [Option.ite_none_right_eq_some, Option.some.injEq]
  constructor
  · rintro ⟨⟨positive, fits⟩, rfl⟩
    have same : (UInt64.ofNat m).toNat = m := UInt64.toNat_ofNat_of_lt' fits
    exact ⟨same.symm, UInt64.lt_iff_toNat_lt.mpr (by rw [same]; exact positive)⟩
  · rintro ⟨rfl, positive⟩
    exact ⟨⟨UInt64.lt_iff_toNat_lt.mp positive, n.toNat_lt⟩, UInt64.ofNat_toNat⟩

theorem poolSize?_eq_some {text : String} {n : UInt64} :
    poolSize? text = some n ↔ MeansSize text n := by
  rw [poolSize?, Text.trim, String.toList_ofList]
  constructor
  · intro read
    split at read
    · rename_i m value
      obtain ⟨some, number, place⟩ := Decimal.value?_eq_some.mp value
      obtain ⟨same, positive⟩ := size_eq_some.mp read
      obtain ⟨before, after, whole, left, right⟩ :=
        Text.exists_around Text.isBlank text.toList
      obtain ⟨sign, signs, split⟩ := exists_sign (Text.stripChars Text.isBlank text.toList)
      rw [split] at whole
      exact ⟨before, sign, _, after, whole, left, right, signs, some, number, place.trans same,
        positive⟩
    · contradiction
  · rintro ⟨before, sign, digits, after, whole, left, right, signs, some, number, place, positive⟩
    have solid : ∀ c ∈ sign ++ digits, Text.isBlank c = false := by
      intro c member
      rcases List.mem_append.mp member with member | member
      · rcases signs with rfl | rfl
        · exact absurd member List.not_mem_nil
        · rw [List.mem_singleton.mp member]
          decide
      · exact notBlank_of_digit (number c member)
    have tight : Text.Tight Text.isBlank (sign ++ digits) :=
      ⟨fun c first => solid c (List.mem_of_mem_head? first),
        fun c last => solid c (List.mem_of_mem_getLast? last)⟩
    rw [whole, Text.stripChars_around left tight right, behind_sign signs number,
      Decimal.value?_eq_some.mpr ⟨some, number, place⟩]
    exact size_eq_some.mpr ⟨rfl, positive⟩

theorem secret?_eq_some {env : Environment} {name secret : String} :
    secret? env name = some secret ↔ ∃ text, env name = some text ∧ MeansSecret text secret := by
  rw [secret?, Option.filter_eq_some_iff]
  constructor
  · rintro ⟨given, some⟩
    exact ⟨secret, given, by simpa using some, rfl⟩
  · rintro ⟨_, given, some, rfl⟩
    exact ⟨given, by simpa using some⟩

end Settings

theorem chosen_iff {means : String → α → Prop} {given : Option String} {read : Option α}
    (reads : ∀ value, read = some value ↔ ∃ text, given = some text ∧ means text value)
    {default value : α} : Chosen means given default value ↔ value = read.getD default := by
  constructor
  · rintro (⟨text, present, meant⟩ | nothing)
    · rw [(reads value).mpr ⟨text, present, meant⟩]
      rfl
    · cases found : read with
      | none => rfl
      | some other =>
        obtain ⟨text, present, meant⟩ := (reads other).mp found
        exact absurd meant (nothing text present other)
  · rintro rfl
    cases found : read with
    | none =>
      refine .kept fun text present other meant => ?_
      have reading := (reads other).mpr ⟨text, present, meant⟩
      rw [found] at reading
      contradiction
    | some other =>
      obtain ⟨text, present, meant⟩ := (reads other).mp found
      exact .given text present meant

namespace Settings

variable {env : Environment} {s t : Settings}

def Sized (env : Environment) (s : Settings) (n : UInt64) : Prop :=
  Chosen MeansSize (env poolSizeVariable) s.dispatch.poolSize n

/-- Settings of which the environment has replaced no more than two secrets and a size. -/
structure Replaced (env : Environment) (s t : Settings) : Prop where
  path : t.path = s.path
  reliability : t.reliability = s.reliability
  dispatch : ∃ n, Sized env s n ∧ t.dispatch = { s.dispatch with poolSize := n }
  amqp : Option.Rel (fun a b => ∃ password,
    Chosen MeansSecret (env passwordVariable) a.password password ∧
      b = { a with password }) s.amqp t.amqp
  mqtt : Option.Rel (fun m n => ∃ authToken,
    Chosen MeansSecret (env tokenVariable) m.authToken authToken ∧
      n = { m with authToken }) s.mqtt t.mqtt

theorem sized_iff {n : UInt64} :
    Sized env s n ↔ n = ((env poolSizeVariable).bind poolSize?).getD s.dispatch.poolSize := by
  refine chosen_iff fun value => ?_
  simp only [Option.bind_eq_some_iff, poolSize?_eq_some]

theorem chosen_secret_iff {name default secret : String} :
    Chosen MeansSecret (env name) default secret ↔ secret = (secret? env name).getD default :=
  chosen_iff fun _ => secret?_eq_some

theorem optionRel_iff {R : α → β → Prop} {f : α → β} (only : ∀ a b, R a b ↔ b = f a)
    {a : Option α} {b : Option β} : Option.Rel R a b ↔ b = a.map f := by
  cases a <;> cases b <;> simp [only]

theorem replaced_iff : Replaced env s t ↔ t = s.override env := by
  have amqp := optionRel_iff (a := s.amqp) (b := t.amqp) (f := fun a =>
    { a with password := (secret? env passwordVariable).getD a.password }) (R := fun a b =>
      ∃ password, Chosen MeansSecret (env passwordVariable) a.password password ∧
        b = { a with password }) fun a b => by simp [chosen_secret_iff]
  have mqtt := optionRel_iff (a := s.mqtt) (b := t.mqtt) (f := fun m =>
    { m with authToken := (secret? env tokenVariable).getD m.authToken }) (R := fun m n =>
      ∃ authToken, Chosen MeansSecret (env tokenVariable) m.authToken authToken ∧
        n = { m with authToken }) fun a b => by simp [chosen_secret_iff]
  constructor
  · rintro ⟨path, reliability, ⟨n, sized, dispatch⟩, password, token⟩
    obtain rfl := sized_iff.mp sized
    rw [override, ← path, ← reliability, ← dispatch, ← amqp.mp password, ← mqtt.mp token]
  · rintro rfl
    exact ⟨rfl, rfl, ⟨_, sized_iff.mpr rfl, rfl⟩, amqp.mpr rfl, mqtt.mpr rfl⟩

theorem override_override : (s.override env).override env = s.override env := by
  have again {α : Type} (given : Option α) (default : α) :
      given.getD (given.getD default) = given.getD default := by cases given <;> rfl
  simp only [override, Option.map_map, Function.comp_def, again]

end Settings

structure AmqpSettings.Complete (a : AmqpSettings) : Prop where
  host : NonBlank a.host
  username : NonBlank a.username
  exchange : NonBlank a.exchange
  routingKey : NonBlank a.routingKey
  port : 0 < a.port
  consumers : 0 < a.consumers

structure MqttSettings.Complete (m : MqttSettings) : Prop where
  brokerUrl : NonBlank m.brokerUrl
  brokerHost : m.brokerHost ≠ ""
  listenTopic : NonBlank m.listenTopic
  respondTopic : NonBlank m.respondTopic
  username : NonBlank m.username
  port : 0 < m.port
  clientId : ∀ id ∈ m.clientId, NonBlank id

theorem nonBlank_iff {text : String} : NonBlank text ↔ Text.allBlank text = false := by
  rw [NonBlank, Text.allBlank, List.all_eq_false]
  simp

theorem firstOf_eq_ok {complaints : List (Bool × Invalid)} :
    Invalid.firstOf complaints = .ok () ↔ ∀ c ∈ complaints, c.1 = false := by
  induction complaints with
  | nil => simp [Invalid.firstOf]
  | cons c more ih =>
    obtain ⟨applies, complaint⟩ := c
    cases applies <;> simp [Invalid.firstOf, ih]

theorem then_eq_ok {first second : Except ε Unit} :
    (do first; second) = .ok () ↔ first = .ok () ∧ second = .ok () := by
  cases first with
  | error _ => exact iff_of_false nofun fun both => nomatch both.1
  | ok _ => exact ⟨fun passes => ⟨rfl, passes⟩, And.right⟩

theorem AmqpSettings.validate_eq_ok {a : AmqpSettings} : a.validate = .ok () ↔ a.Complete := by
  simp only [validate, firstOf_eq_ok, List.forall_mem_cons, ← nonBlank_iff,
    beq_eq_false_iff_ne, ← UInt64.pos_iff_ne_zero, ← UInt16.pos_iff_ne_zero]
  constructor
  · rintro ⟨host, username, exchange, routingKey, port, consumers, -⟩
    exact ⟨host, username, exchange, routingKey, port, consumers⟩
  · rintro ⟨host, username, exchange, routingKey, port, consumers⟩
    exact ⟨host, username, exchange, routingKey, port, consumers, nofun⟩

namespace MqttSettings

theorem nonBlank_of_brokerHost {m : MqttSettings} (host : m.brokerHost ≠ "") :
    NonBlank m.brokerUrl := by
  rw [nonBlank_iff, ← Bool.not_eq_true]
  intro blank
  have nothing : Text.stripChars Text.isBlank m.brokerUrl.toList = [] := by
    rw [Text.stripChars_eq, List.dropWhile_eq_nil_iff.mpr (List.all_eq_true.mp blank)]
    rfl
  exact host (by rw [brokerHost_eq, nothing]; rfl)

theorem validate_eq_ok {m : MqttSettings} : m.validate = .ok () ↔ m.Complete := by
  have clientId : m.clientId.any Text.allBlank = false ↔ ∀ id ∈ m.clientId, NonBlank id := by
    cases m.clientId <;> simp [nonBlank_iff]
  simp only [validate, firstOf_eq_ok, List.forall_mem_cons, ← nonBlank_iff, clientId,
    beq_eq_false_iff_ne, ← UInt16.pos_iff_ne_zero]
  constructor
  · rintro ⟨host, listenTopic, respondTopic, username, port, id, -⟩
    exact ⟨nonBlank_of_brokerHost host, host, listenTopic, respondTopic, username, port, id⟩
  · rintro ⟨-, host, listenTopic, respondTopic, username, port, id⟩
    exact ⟨host, listenTopic, respondTopic, username, port, id, nofun⟩

end MqttSettings

namespace Settings

variable {env : Environment} {s : Settings}

/-- What a check of settings asks for apart from the size of the pools. -/
structure Complete (s : Settings) : Prop where
  registry : 0 < s.dispatch.registryCapacity
  transport : s.amqp.isSome ∨ s.mqtt.isSome
  amqp : ∀ a ∈ s.amqp, a.Complete
  mqtt : ∀ m ∈ s.mqtt, m.Complete

theorem validate_eq (s : Settings) : s.validate = (do
    Invalid.firstOf
      [ (s.dispatch.poolSize == 0, .zero "dispatch.worker_pool_size"),
        (s.dispatch.registryCapacity == 0, .zero "dispatch.dedup_registry_capacity"),
        (s.amqp.isNone && s.mqtt.isNone, .noTransport) ]
    s.amqp.elim (.ok ()) AmqpSettings.validate
    s.mqtt.elim (.ok ()) MqttSettings.validate) := by
  unfold validate
  generalize Invalid.firstOf _ = first, AmqpSettings.validate = amqp, MqttSettings.validate = mqtt
  cases s.amqp <;> cases s.mqtt <;> rfl

theorem validate_eq_ok : s.validate = .ok () ↔ 0 < s.dispatch.poolSize ∧ s.Complete := by
  have amqp : s.amqp.elim (.ok ()) AmqpSettings.validate = .ok () ↔ ∀ a ∈ s.amqp, a.Complete := by
    cases s.amqp <;> simp [AmqpSettings.validate_eq_ok]
  have mqtt : s.mqtt.elim (.ok ()) MqttSettings.validate = .ok () ↔ ∀ m ∈ s.mqtt, m.Complete := by
    cases s.mqtt <;> simp [MqttSettings.validate_eq_ok]
  have transport : (s.amqp.isNone && s.mqtt.isNone) = false ↔
      s.amqp.isSome ∨ s.mqtt.isSome := by
    cases s.amqp <;> cases s.mqtt <;> simp
  rw [validate_eq, then_eq_ok, then_eq_ok, amqp, mqtt, firstOf_eq_ok]
  simp only [List.forall_mem_cons, transport, beq_eq_false_iff_ne, ← UInt64.pos_iff_ne_zero]
  constructor
  · rintro ⟨⟨size, registry, transport, -⟩, amqp, mqtt⟩
    exact ⟨size, registry, transport, amqp, mqtt⟩
  · rintro ⟨size, registry, transport, amqp, mqtt⟩
    exact ⟨⟨size, registry, transport, nofun⟩, amqp, mqtt⟩

theorem complete_override : (s.override env).Complete ↔ s.Complete := by
  have amqp (password : AmqpSettings → String) :
      (∀ a ∈ s.amqp.map fun a => { a with password := password a }, a.Complete) ↔
        ∀ a ∈ s.amqp, a.Complete := by
    rw [Option.forall_mem_map]
    refine forall₂_congr fun a _ => ⟨fun h => ?_, fun h => ?_⟩
    · exact ⟨h.host, h.username, h.exchange, h.routingKey, h.port, h.consumers⟩
    · exact ⟨h.host, h.username, h.exchange, h.routingKey, h.port, h.consumers⟩
  have mqtt (token : MqttSettings → String) :
      (∀ m ∈ s.mqtt.map fun m => { m with authToken := token m }, m.Complete) ↔
        ∀ m ∈ s.mqtt, m.Complete := by
    rw [Option.forall_mem_map]
    refine forall₂_congr fun m _ => ⟨fun h => ?_, fun h => ?_⟩
    · exact ⟨h.brokerUrl, h.brokerHost, h.listenTopic, h.respondTopic, h.username, h.port,
        h.clientId⟩
    · exact ⟨h.brokerUrl, h.brokerHost, h.listenTopic, h.respondTopic, h.username, h.port,
        h.clientId⟩
  constructor
  · rintro ⟨registry, transport, brokers, others⟩
    exact ⟨registry, by simpa [override] using transport, (amqp _).mp brokers, (mqtt _).mp others⟩
  · rintro ⟨registry, transport, brokers, others⟩
    exact ⟨registry, by simpa [override] using transport, (amqp _).mpr brokers,
      (mqtt _).mpr others⟩

theorem sized_override : Sized env s (s.override env).dispatch.poolSize := sized_iff.mpr rfl

/-- Settings that pass the check once the environment has had its say. -/
structure Accepted (env : Environment) (s : Settings) : Prop where
  size : ∀ n, Sized env s n → 0 < n
  complete : s.Complete

theorem validate_override_eq_ok : (s.override env).validate = .ok () ↔ s.Accepted env := by
  rw [validate_eq_ok, complete_override]
  constructor
  · rintro ⟨positive, complete⟩
    exact ⟨fun n sized => sized_iff.mp sized ▸ positive, complete⟩
  · rintro ⟨size, complete⟩
    exact ⟨size _ sized_override, complete⟩

theorem Sized.pos {n : UInt64} (sized : Sized env s n) (positive : 0 < s.dispatch.poolSize) :
    0 < n := by
  cases sized with
  | given _ _ meant =>
    obtain ⟨_, _, _, _, _, _, _, _, _, _, _, some⟩ := meant
    exact some
  | kept => exact positive

theorem ofContent_eq_ok {path text : String} {content : Bytes} {t : Settings}
    (decoded : Utf8.decode? content = some text) (parsed : parse text = .ok s) :
    ofContent env path content = .ok t ↔
      (override env { s with path }).validate = .ok () ∧ t = override env { s with path } := by
  unfold ofContent
  simp only [decoded, parsed, Except.bind, Bind.bind, Pure.pure, Except.pure]
  cases (override env { s with path }).validate with
  | error complaint => exact iff_of_false nofun fun valid => nomatch valid.1
  | ok _ =>
    exact ⟨fun same => ⟨rfl, (Except.ok.inj same).symm⟩, fun same => congrArg _ same.2.symm⟩

/-- What the environment changes, and which settings are accepted then. -/
theorem effective_settings (env : Environment) (s : Settings) :
    (∀ t, Replaced env s t ↔ t = s.override env) ∧
    (s.override env).override env = s.override env ∧
    (s.validate = .ok () → (s.override env).validate = .ok ()) ∧
    ((s.override env).validate = .ok () ↔ s.Accepted env) ∧
    ∀ path content text, Utf8.decode? content = some text → parse text = .ok s →
      ∀ t, ofContent env path content = .ok t ↔
        s.Accepted env ∧ t = override env { s with path } := by
  refine ⟨fun t => replaced_iff, override_override, fun valid => ?_, validate_override_eq_ok, ?_⟩
  · obtain ⟨positive, complete⟩ := validate_eq_ok.mp valid
    exact validate_override_eq_ok.mpr ⟨fun n sized => sized.pos positive, complete⟩
  · intro path content text decoded parsed t
    rw [ofContent_eq_ok decoded parsed, validate_override_eq_ok]
    refine and_congr_left fun _ => ⟨fun h => ?_, fun h => ?_⟩
    · exact ⟨h.size, h.complete.registry, h.complete.transport, h.complete.amqp, h.complete.mqtt⟩
    · exact ⟨h.size, h.complete.registry, h.complete.transport, h.complete.amqp, h.complete.mqtt⟩

def sparse : Settings :=
  { amqp := some
      { host := "h", username := "u", password := "p", exchange := "e", routingKey := "k" } }

def signedSize : Environment := fun name => if name = poolSizeVariable then some " +16\n" else none

theorem effective_settings_of_signed :
    ofContent signedSize "c" (Utf8.encode (render sparse)) =
        .ok (override signedSize { sparse with path := "c" }) ∧
      (override signedSize { sparse with path := "c" }).dispatch.poolSize = 16 := by
  obtain ⟨-, -, kept, accepted, loaded⟩ := effective_settings signedSize sparse
  have fine : sparse.Accepted signedSize := accepted.mp (kept (by decide))
  have read := Utf8.decode?_encode (render sparse)
  exact ⟨(loaded _ _ _ read (parse_render sparse) _).mpr ⟨fine, rfl⟩, by decide⟩

end Settings

end RequestBus
