import RequestBus.Dispatch.Reply
import RequestBus.Settings.Address

namespace RequestBus.Mqtt

structure Options where
  clientId : String
  address : String
  port : UInt16
  username : String
  password : String
  keepAliveSeconds : UInt64
  cleanSession : Bool
  maxPacket : Nat
  verifiesTls : Bool
  deriving DecidableEq, Repr

def clientIdStart : String := "cse-bus-"

def leastKeepAlive : UInt64 := 5

def Options.ofSettings (m : MqttSettings) (unique : String) : Options :=
  { clientId := m.clientId.getD (clientIdStart ++ unique)
    address := m.websocketUrl
    port := m.port
    username := m.username
    password := m.authToken
    keepAliveSeconds := max m.keepAliveSeconds leastKeepAlive
    cleanSession := true
    maxPacket := 8 * 1024 * 1024
    verifiesTls := m.verifiesTls }

inductive ReturnCode where
  | success
  | wrongProtocolVersion
  | badClientId
  | serviceUnavailable
  | badCredentials
  | notAuthorized
  deriving DecidableEq, Repr

def ReturnCode.name : ReturnCode → String
  | .success => "success"
  | .wrongProtocolVersion => "refused_protocol_version"
  | .badClientId => "bad_client_id"
  | .serviceUnavailable => "service_unavailable"
  | .badCredentials => "bad_user_name_password"
  | .notAuthorized => "not_authorized"

def ReturnCode.ofName? (name : String) : Option ReturnCode :=
  [ .success, .wrongProtocolVersion, .badClientId, .serviceUnavailable, .badCredentials,
    .notAuthorized ].find? fun c => c.name == name

def ReturnCode.isCredentialRefusal : ReturnCode → Bool
  | .badCredentials | .notAuthorized => true
  | _ => false

def exactlyOnce : Nat := 2

/-- A topic that a message can be published to: one without wildcards. -/
def isPublishable (topic : String) : Bool := topic.toList.all fun c => c != '+' && c != '#'

def publisher (isOpen : Bool) : Publisher := fun _ dest =>
  match dest with
  | .mqtt topic =>
    if isOpen && isPublishable topic then .ok () else .error (.mqttClient topic)
  | dest => .error (.destination dest.shown)

structure Subscription where
  isPending : Bool := false
  deriving DecidableEq, Repr

namespace Subscription

def connected (_ : Subscription) : Subscription := ⟨true⟩

def lost (_ : Subscription) : Subscription := ⟨false⟩

/-- Subscribes if that is still to be done, by a means that may fail: what came of it, and
whether it was tried. -/
def attempt (s : Subscription) (subscribe : Except ε Unit) :
    Except ε Bool × Bool × Subscription :=
  if s.isPending then
    match subscribe with
    | .ok () => (.ok true, true, ⟨false⟩)
    | .error e => (.error e, true, s)
  else (.ok false, false, s)

end Subscription

inductive SignatureScheme where
  | ecdsaP384Sha384
  | ecdsaP256Sha256
  | ed25519
  | rsaPssSha512
  | rsaPssSha384
  | rsaPssSha256
  | rsaPkcs1Sha512
  | rsaPkcs1Sha384
  | rsaPkcs1Sha256
  deriving DecidableEq, Repr

def SignatureScheme.name : SignatureScheme → String
  | .ecdsaP384Sha384 => "ECDSA_NISTP384_SHA384"
  | .ecdsaP256Sha256 => "ECDSA_NISTP256_SHA256"
  | .ed25519 => "ED25519"
  | .rsaPssSha512 => "RSA_PSS_SHA512"
  | .rsaPssSha384 => "RSA_PSS_SHA384"
  | .rsaPssSha256 => "RSA_PSS_SHA256"
  | .rsaPkcs1Sha512 => "RSA_PKCS1_SHA512"
  | .rsaPkcs1Sha384 => "RSA_PKCS1_SHA384"
  | .rsaPkcs1Sha256 => "RSA_PKCS1_SHA256"

/-- A way to judge the certificate that a server shows, and the schemes of signatures that go
with it, the preferred ones first. -/
structure Verifier where
  accepts : Bytes → Bool
  schemes : List SignatureScheme

def Verifier.trusting : Verifier where
  accepts _ := true
  schemes :=
    [.ecdsaP384Sha384, .ecdsaP256Sha256, .ed25519, .rsaPssSha512, .rsaPssSha384, .rsaPssSha256,
      .rsaPkcs1Sha512, .rsaPkcs1Sha384, .rsaPkcs1Sha256]

end RequestBus.Mqtt
