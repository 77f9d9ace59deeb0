import RequestBus.Decimal.Natural
import RequestBus.Settings.Basic
import RequestBus.Text.Blank
import RequestBus.Text.Percent
import RequestBus.Text.Split

namespace RequestBus

namespace AmqpSettings

def queue (a : AmqpSettings) : String :=
  match (a.queueName.map Text.trim).filter (· ≠ "") with
  | some name => name
  | none => a.routingKey

def scheme (a : AmqpSettings) : String := if a.usesTls then "amqps" else "amqp"

def authority (a : AmqpSettings) : String :=
  Text.trim a.host ++ ":" ++ Decimal.natText a.port.toNat ++ "/" ++ Text.Percent.encode a.vhost

def uri (a : AmqpSettings) : String :=
  a.scheme ++ "://" ++ Text.Percent.encode a.username ++ ":" ++ Text.Percent.encode a.password ++
    "@" ++ a.authority

/-- The URI of the broker as it is shown: with the user, but without the password. -/
def redactedUri (a : AmqpSettings) : String :=
  a.scheme ++ "://" ++ a.username ++ ":***@" ++ a.authority

end AmqpSettings

namespace MqttSettings

def behindScheme : List Char → List Char
  | cs => (behind? cs).getD cs
where
  behind? : List Char → Option (List Char)
    | ':' :: '/' :: '/' :: rest => some rest
    | _ :: rest => behind? rest
    | [] => none

/-- The host in the broker's URL: what stands between the scheme, if there is one, and the first
colon or slash. -/
def brokerHost (m : MqttSettings) : String :=
  String.ofList ((behindScheme (Text.trim m.brokerUrl).toList).takeWhile
    fun c => c != '/' && c != ':')

def socketPath (m : MqttSettings) : String :=
  let path := Text.trim m.websocketPath
  if path.toList.head? = some '/' then path else "/" ++ path

def websocketUrl (m : MqttSettings) : String :=
  "wss://" ++ m.brokerHost ++ ":" ++ Decimal.natText m.port.toNat ++ m.socketPath

end MqttSettings

end RequestBus
