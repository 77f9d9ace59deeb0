import Mathlib.Data.List.DropRight
import RequestBus.Mqtt.Client
import RequestBus.Proofs.Text.Blank
import RequestBus.Proofs.Text.Percent
import RequestBus.Proofs.Text.Split
import RequestBus.Settings.Address

namespace RequestBus

def schemeMark : List Char := [':', '/', '/']

structure UriParts where
  scheme : String
  username : String
  password : String
  host : String
  port : String
  vhost : String
  deriving DecidableEq

/-- Takes a URI apart: behind the scheme at the next colon, at sign, colon and slash. -/
def UriParts.ofUri? (uri : String) : Option UriParts := do
  let (scheme, rest) ← Text.cutAtText schemeMark uri.toList
  let (username, rest) ← Text.cutAt ':' rest
  let (password, rest) ← Text.cutAt '@' rest
  let (host, rest) ← Text.cutAt ':' rest
  let (port, vhost) ← Text.cutAt '/' rest
  return {
    scheme := String.ofList scheme
    username := String.ofList (← Text.Percent.decodeChars username)
    password := String.ofList (← Text.Percent.decodeChars password)
    host := String.ofList host
    port := String.ofList port
    vhost := String.ofList (← Text.Percent.decodeChars vhost) }

namespace Decimal

theorem digit_of_valueFrom {cs : List Char} {start n : Nat} (value : valueFrom start cs = some n)
    {c : Char} (member : c ∈ cs) : (digit? c).isSome := by
  induction cs generalizing start with
  | nil => exact absurd member List.not_mem_nil
  | cons d cs ih =>
    obtain ⟨digit, found, rest⟩ := Option.bind_eq_some_iff.mp value
    rcases List.mem_cons.mp member with rfl | behind
    · rw [found]
      rfl
    · exact ih rest behind

theorem digits_injective {m n : Nat} (same : digits m = digits n) : m = n := by
  have value := valueFrom_digits m
  rw [same, valueFrom_digits] at value
  exact (Option.some.inj value).symm

end Decimal

namespace AmqpSettings

/-- The host holds none of the marks that divide an address. -/
def PlainHost (a : AmqpSettings) : Prop :=
  ':' ∉ (Text.trim a.host).toList ∧ '/' ∉ (Text.trim a.host).toList ∧
    '@' ∉ (Text.trim a.host).toList

def parts (a : AmqpSettings) : UriParts where
  scheme := if a.usesTls then "amqps" else "amqp"
  username := a.username
  password := a.password
  host := Text.trim a.host
  port := Decimal.natText a.port.toNat
  vhost := a.vhost

theorem notMem_encode {mark : Char} (text : String)
    (divides : mark = ':' ∨ mark = '/' ∨ mark = '@') :
    mark ∉ Text.Percent.encodeChars text.toList := by
  intro member
  rcases Text.Percent.mem_encodeChars member with same | plain
  · rcases divides with rfl | rfl | rfl <;> exact absurd same (by decide)
  · rcases divides with rfl | rfl | rfl <;> exact absurd plain (by decide)

theorem toList_uri (a : AmqpSettings) : a.uri.toList =
    a.scheme.toList ++ schemeMark ++ (Text.Percent.encodeChars a.username.toList ++ ':' ::
      (Text.Percent.encodeChars a.password.toList ++ '@' :: ((Text.trim a.host).toList ++ ':' ::
        (Decimal.digits a.port.toNat ++ '/' :: Text.Percent.encodeChars a.vhost.toList)))) := by
  simp [uri, authority, schemeMark, Text.Percent.encode, Decimal.natText]

theorem ofUri?_uri (a : AmqpSettings) (plain : a.PlainHost) :
    UriParts.ofUri? a.uri = some a.parts := by
  have scheme : ¬ schemeMark <:+: a.scheme.toList ++ schemeMark.dropLast := by
    unfold AmqpSettings.scheme
    split <;> decide
  have port : '/' ∉ Decimal.digits a.port.toNat := by
    intro member
    have digit := Decimal.digit_of_valueFrom (Decimal.valueFrom_digits a.port.toNat) member
    exact absurd digit (by decide)
  have username : ':' ∉ Text.Percent.encodeChars a.username.toList :=
    notMem_encode a.username (.inl rfl)
  have password : '@' ∉ Text.Percent.encodeChars a.password.toList :=
    notMem_encode a.password (.inr (.inr rfl))
  -- Each cut is at the mark that ends its part, since the part itself does not hold that mark.
  rw [UriParts.ofUri?, toList_uri, Text.cutAtText_append (by decide) scheme]
  simp only [Option.bind_eq_bind, Option.bind_some, Text.cutAt_append _ _ _ username,
    Text.cutAt_append _ _ _ password, Text.cutAt_append _ _ _ plain.1,
    Text.cutAt_append _ _ _ port, Text.Percent.decodeChars_encodeChars, String.ofList_toList]
  rfl

/-- A URI tells all its parts. So whoever sets the credentials and the virtual host cannot lead the
connection to another host. -/
theorem uri_reads_back (a : AmqpSettings) (plain : a.PlainHost) :
    UriParts.ofUri? a.uri = some a.parts ∧
    (∀ b : AmqpSettings, b.PlainHost → a.uri = b.uri →
      a.usesTls = b.usesTls ∧ a.username = b.username ∧ a.password = b.password ∧
        Text.trim a.host = Text.trim b.host ∧ a.port = b.port ∧ a.vhost = b.vhost) ∧
    ∀ username password vhost,
      (UriParts.ofUri? { a with username, password, vhost }.uri).map UriParts.host =
        some (Text.trim a.host) := by
  refine ⟨ofUri?_uri a plain, fun b plain' same => ?_, fun username password vhost => ?_⟩
  · have read := ofUri?_uri a plain
    rw [same, ofUri?_uri b plain'] at read
    obtain ⟨scheme, username, password, host, port, vhost⟩ :=
      UriParts.mk.inj (Option.some.inj read)
    refine ⟨?_, username.symm, password.symm, host.symm, ?_, vhost.symm⟩
    · cases one : a.usesTls <;> cases two : b.usesTls <;> simp_all
    · have digits := Decimal.digits_injective (String.ofList_injective port)
      exact (UInt16.toNat_inj.mp digits).symm
  · rw [ofUri?_uri { a with username, password, vhost } plain]
    rfl

def marked : AmqpSettings where
  host := " mq "
  port := 5671
  username := "a:b@c"
  password := "://%"
  usesTls := true

theorem uri_reads_back_of_marked :
    marked.PlainHost ∧ marked.uri = "amqps://a%3Ab%40c:%3A%2F%2F%25@mq:5671/%2F" ∧
      UriParts.ofUri? marked.uri = some marked.parts := by
  have plain : marked.PlainHost := ⟨by decide, by decide, by decide⟩
  have port : Decimal.natText marked.port.toNat = "5671" := by
    simp [marked, Decimal.natText, Decimal.digits, Decimal.digitChar]
  have text : marked.uri = "amqps://a%3Ab%40c:%3A%2F%2F%25@mq:5671/%2F" := by
    rw [uri, authority, port]
    decide
  exact ⟨plain, text, (uri_reads_back marked plain).1⟩

end AmqpSettings

/-- A broker's URL in parts: a host without marks in it and blanks around it, before it a scheme and
behind it a port and a path, or any of them left out. Of a scheme nothing counts but that no colon
is in it, and of a port nothing at all. -/
structure BrokerUrl where
  scheme : Option (List Char)
  host : List Char
  port : Option (List Char)
  path : List Char
  word : ∀ s ∈ scheme, ':' ∉ s
  given : host ≠ []
  plain : '/' ∉ host ∧ ':' ∉ host
  tight : Text.Tight Text.isBlank host
  rooted : ∀ c ∈ path.head?, c = '/'

namespace BrokerUrl

variable (u : BrokerUrl)

def front : List Char := u.scheme.elim [] (· ++ schemeMark)

def tail : List Char := u.port.elim [] (':' :: ·) ++ u.path

def text : String := String.ofList (u.front ++ u.host ++ u.tail)

/-- No scheme seems to begin behind the host, or the URL has one of its own. -/
def Clear : Prop := u.scheme.isSome ∨ ¬ schemeMark <:+: u.tail

theorem clear_iff (number : ∀ p ∈ u.port, p ≠ [] ∧ ∀ c ∈ p, c.isDigit) (bare : u.scheme = none) :
    u.Clear ↔ ¬ schemeMark <:+: u.path := by
  have same : schemeMark <:+: u.tail ↔ schemeMark <:+: u.path := by
    unfold tail
    cases port : u.port with
    | none => rfl
    | some p =>
      obtain ⟨some, digits⟩ := number p port
      have free : ':' ∉ p := fun member => absurd (digits ':' member) (by decide)
      have behind : ¬ schemeMark <+: ':' :: (p ++ u.path) := by
        obtain ⟨d, p, rfl⟩ := List.exists_cons_of_ne_nil some
        intro starts
        have slash := (List.cons_prefix_cons.mp (List.cons_prefix_cons.mp starts).2).1
        exact absurd (digits d List.mem_cons_self) (by rw [← slash]; decide)
      rw [Option.elim_some, List.cons_append, List.infix_cons_iff, or_iff_right behind, schemeMark,
        Text.infix_append_iff free]
  rw [Clear, same, bare]
  simp

theorem head_tail : ∀ c ∈ u.tail.head?, c = '/' ∨ c = ':' := by
  unfold tail
  cases u.port with
  | none => exact fun c first => .inl (u.rooted c first)
  | some p =>
    rintro c ⟨⟩
    exact .inr rfl

theorem dropWhile_front (rest : List Char) (solid : ∀ c ∈ rest.head?, Text.isBlank c = false) :
    ∃ front, (u.front ++ rest).dropWhile Text.isBlank = front ++ rest ∧
      (u.scheme = none ∧ front = [] ∨
        ∃ s, u.scheme.isSome ∧ front = s ++ schemeMark ∧ ':' ∉ s) := by
  unfold front
  cases scheme : u.scheme with
  | none => exact ⟨[], Text.dropWhile_of_head solid, .inl ⟨rfl, rfl⟩⟩
  | some s =>
    have colon : ∀ c ∈ (schemeMark ++ rest).head?, Text.isBlank c = false := by
      rintro c ⟨⟩
      decide
    refine ⟨s.dropWhile Text.isBlank ++ schemeMark, ?_, .inr ⟨_, rfl, rfl, ?_⟩⟩
    · rw [Option.elim_some, List.append_assoc, Text.dropWhile_append s colon, List.append_assoc]
    · exact fun member => u.word s scheme (List.dropWhile_subset _ member)

theorem solid_front : ∀ c ∈ (u.host ++ u.tail).head?, Text.isBlank c = false := by
  rw [List.head?_append_of_ne_nil _ u.given]
  exact u.tight.1

theorem trimmed : ∃ front, Text.stripChars Text.isBlank (u.front ++ u.host ++ u.tail) =
    front ++ (u.host ++ u.tail.rdropWhile Text.isBlank) ∧
      (u.scheme = none ∧ front = [] ∨
        ∃ s, u.scheme.isSome ∧ front = s ++ schemeMark ∧ ':' ∉ s) := by
  obtain ⟨front, dropped, kinds⟩ := u.dropWhile_front (u.host ++ u.tail) u.solid_front
  refine ⟨front, ?_, kinds⟩
  have last : ∀ c ∈ (front ++ u.host).getLast?, Text.isBlank c = false := by
    rw [List.getLast?_append_of_ne_nil _ u.given]
    exact u.tight.2
  rw [Text.stripChars_eq, List.append_assoc, dropped, ← List.append_assoc,
    Text.rdropWhile_append last, List.append_assoc]

end BrokerUrl

namespace MqttSettings

theorem behind?_eq (cs : List Char) :
    behindScheme.behind? cs = (Text.cutAtText schemeMark cs).map (·.2) := by
  fun_induction behindScheme.behind? cs with
  | case1 rest => simp [Text.cutAtText, schemeMark]
  | case2 c rest other ih =>
    have elsewhere : ¬ schemeMark <+: c :: rest := by
      rintro ⟨behind, same⟩
      obtain ⟨rfl, rfl⟩ := List.cons.inj same.symm
      exact other behind rfl rfl
    rw [ih, Text.cutAtText, if_neg elsewhere, Option.map_map]
    rfl
  | case3 => rfl

def hostIn (cs : List Char) : List Char := cs.takeWhile fun c => c != '/' && c != ':'

theorem brokerHost_eq (m : MqttSettings) : m.brokerHost =
    String.ofList (hostIn (behindScheme (Text.stripChars Text.isBlank m.brokerUrl.toList))) := by
  rw [brokerHost, Text.trim, String.toList_ofList]
  rfl

end MqttSettings

namespace BrokerUrl

open MqttSettings

variable (u : BrokerUrl)

theorem hostIn_home : hostIn (u.host ++ u.tail.rdropWhile Text.isBlank) = u.host := by
  apply Text.takeWhile_append
  · intro c member
    have slash : c ≠ '/' := fun same => u.plain.1 (same ▸ member)
    have colon : c ≠ ':' := fun same => u.plain.2 (same ▸ member)
    simp [slash, colon]
  · intro c first
    obtain ⟨rest, whole⟩ := List.rdropWhile_prefix Text.isBlank u.tail
    have begins : c ∈ u.tail.head? := by
      rw [← whole, List.head?_append, Option.mem_def.mp first]
      rfl
    rcases u.head_tail c begins with rfl | rfl <;> decide

theorem behindScheme_named {s : List Char} (free : ':' ∉ s) (rest : List Char) :
    behindScheme (s ++ schemeMark ++ rest) = rest := by
  have first : ¬ schemeMark <:+: s ++ schemeMark.dropLast := by
    rw [schemeMark, Text.infix_append_iff free]
    decide
  rw [behindScheme, behind?_eq, Text.cutAtText_append (by decide) first]
  rfl

theorem behindScheme_clear (absent : ¬ schemeMark <:+: u.tail) :
    behindScheme (u.host ++ u.tail.rdropWhile Text.isBlank) =
      u.host ++ u.tail.rdropWhile Text.isBlank := by
  have nowhere : ¬ schemeMark <:+: u.host ++ u.tail.rdropWhile Text.isBlank := by
    rw [schemeMark, Text.infix_append_iff u.plain.2]
    intro inside
    have shorter := List.rdropWhile_prefix Text.isBlank u.tail
    exact absent (inside.trans shorter.isInfix)
  rw [behindScheme, behind?_eq, (Text.cutAtText_eq_none (by decide)).mpr nowhere]
  rfl

theorem behindScheme_astray {before behind : List Char}
    (cut : Text.cutAtText schemeMark u.tail = some (before, behind)) :
    behindScheme (u.host ++ u.tail.rdropWhile Text.isBlank) = behind.rdropWhile Text.isBlank := by
  obtain ⟨whole, first⟩ := Text.eq_of_cutAtText (by decide) cut
  -- The mark ends with a slash, so what trimming takes from the end lies behind it.
  have last : ∀ c ∈ (before ++ schemeMark).getLast?, Text.isBlank c = false := by
    rw [List.getLast?_append_of_ne_nil _ (by decide)]
    rintro c ⟨⟩
    decide
  have nowhere : ¬ schemeMark <:+: u.host ++ before ++ schemeMark.dropLast := by
    rw [schemeMark, List.append_assoc, Text.infix_append_iff u.plain.2]
    exact first
  rw [whole, Text.rdropWhile_append last, ← List.append_assoc, ← List.append_assoc, behindScheme,
    behind?_eq, Text.cutAtText_append (by decide) nowhere]
  rfl

theorem brokerHost_clear (m : MqttSettings) (clear : u.Clear) :
    { m with brokerUrl := u.text }.brokerHost = String.ofList u.host := by
  obtain ⟨front, trimmed, kinds⟩ := u.trimmed
  rw [brokerHost_eq, text, String.toList_ofList, trimmed]
  rcases kinds with ⟨bare, rfl⟩ | ⟨s, named, rfl, free⟩
  · have absent : ¬ schemeMark <:+: u.tail := clear.resolve_left (by simp [bare])
    rw [List.nil_append, u.behindScheme_clear absent, hostIn_home]
  · rw [behindScheme_named free, hostIn_home]

theorem brokerHost_astray (m : MqttSettings) (bare : u.scheme = none) {before behind : List Char}
    (cut : Text.cutAtText schemeMark u.tail = some (before, behind)) :
    { m with brokerUrl := u.text }.brokerHost =
      String.ofList (hostIn (behind.rdropWhile Text.isBlank)) := by
  obtain ⟨front, trimmed, kinds⟩ := u.trimmed
  rw [brokerHost_eq, text, String.toList_ofList, trimmed]
  rcases kinds with ⟨_, rfl⟩ | ⟨s, named, _, _⟩
  · rw [List.nil_append, u.behindScheme_astray cut]
  · simp [bare] at named

end BrokerUrl

/-- The path of a web socket begins with a slash, which is put before it where it is missing. -/
inductive Slashed : String → String → Prop
  | kept (path : String) : Slashed ("/" ++ path) ("/" ++ path)
  | put {path : String} (missing : ∀ rest, path ≠ "/" ++ rest) : Slashed path ("/" ++ path)

theorem slashed_socketPath (m : MqttSettings) :
    Slashed (Text.trim m.websocketPath) m.socketPath := by
  rw [MqttSettings.socketPath]
  split
  · rename_i first
    obtain ⟨rest, split⟩ := List.head?_eq_some_iff.mp first
    have whole : Text.trim m.websocketPath = "/" ++ String.ofList rest := by
      rw [← String.toList_inj, split]
      simp
    rw [whole]
    exact .kept _
  · rename_i other
    refine .put fun rest same => other ?_
    rw [same]
    simp

/-- The client goes to the host of the URL, with the port and the path of the settings, as long as
the URL is clear; with the digits of a port in it, it is clear unless it has no scheme and something
that looks like one in its path. That is then taken for the scheme, and the client goes to the host
that follows. -/
theorem client_address (m : MqttSettings) (u : BrokerUrl) :
    (u.Clear → { m with brokerUrl := u.text }.brokerHost = String.ofList u.host) ∧
    ((∀ p ∈ u.port, p ≠ [] ∧ ∀ c ∈ p, c.isDigit) → u.scheme = none →
      (u.Clear ↔ ¬ schemeMark <:+: u.path)) ∧
    (∀ before behind, u.scheme = none →
      Text.cutAtText schemeMark u.tail = some (before, behind) →
        { m with brokerUrl := u.text }.brokerHost = String.ofList
          ((behind.rdropWhile Text.isBlank).takeWhile fun c => c != '/' && c != ':')) ∧
    ∃ path, Slashed (Text.trim m.websocketPath) path ∧
      ∀ unique, (Mqtt.Options.ofSettings { m with brokerUrl := u.text } unique).address =
        "wss://" ++ { m with brokerUrl := u.text }.brokerHost ++ ":" ++
          Decimal.natText m.port.toNat ++ path := by
  refine ⟨u.brokerHost_clear m, u.clear_iff, ?_, ?_⟩
  · intro before behind bare cut
    exact u.brokerHost_astray m bare cut
  · exact ⟨m.socketPath, slashed_socketPath m, fun unique => rfl⟩

def cloudUrl : BrokerUrl where
  scheme := some "https".toList
  host := "vcd.example.com".toList
  port := some "8443".toList
  path := "/cloud://other.example".toList
  word := by simp
  given := by simp
  plain := by simp
  tight := ⟨by simp; decide, by simp; decide⟩
  rooted := by simp

theorem client_address_of_cloud :
    cloudUrl.text = "https://vcd.example.com:8443/cloud://other.example" ∧ cloudUrl.Clear ∧
      { MqttSettings.example with brokerUrl := cloudUrl.text }.brokerHost = "vcd.example.com" := by
  have clear : cloudUrl.Clear := .inl rfl
  exact ⟨by decide, clear, (client_address .example cloudUrl).1 clear⟩

def strayUrl : BrokerUrl where
  scheme := none
  host := "vcd.example.com".toList
  port := none
  path := "/login?next=https://other.example/x".toList
  word := by simp
  given := by simp
  plain := by simp
  tight := ⟨by simp; decide, by simp; decide⟩
  rooted := by simp

theorem host_taken_from_path :
    strayUrl.text = "vcd.example.com/login?next=https://other.example/x" ∧
      String.ofList strayUrl.host = "vcd.example.com" ∧
      { MqttSettings.example with brokerUrl := strayUrl.text }.brokerHost = "other.example" := by
  refine ⟨?_, ?_, ?_⟩ <;> decide

end RequestBus
