import RequestBus.Settings.Address

namespace RequestBus

inductive Invalid where
  | blank (field : String)
  | zero (field : String)
  | noHost
  | blankClientId
  | noTransport
  deriving DecidableEq, Repr

def Invalid.message : Invalid → String
  | .blank field => field ++ " must not be empty"
  | .zero field => field ++ " must be greater than 0"
  | .noHost => "mqtt.broker_url must contain a host"
  | .blankClientId => "mqtt.client_id must not be empty when set"
  | .noTransport => "at least one transport must be configured ([amqp] or [mqtt])"

def Invalid.firstOf : List (Bool × Invalid) → Except Invalid Unit
  | [] => .ok ()
  | (applies, complaint) :: more => if applies then .error complaint else firstOf more

def AmqpSettings.validate (a : AmqpSettings) : Except Invalid Unit :=
  Invalid.firstOf
    [ (Text.allBlank a.host, .blank "amqp.host"),
      (Text.allBlank a.username, .blank "amqp.username"),
      (Text.allBlank a.exchange, .blank "amqp.exchange_name"),
      (Text.allBlank a.routingKey, .blank "amqp.routing_key"),
      (a.port == 0, .zero "amqp.port"),
      (a.consumers == 0, .zero "amqp.consumer_count") ]

def MqttSettings.validate (m : MqttSettings) : Except Invalid Unit :=
  Invalid.firstOf
    [ (m.brokerHost == "", .noHost),
      (Text.allBlank m.listenTopic, .blank "mqtt.listen_topic"),
      (Text.allBlank m.respondTopic, .blank "mqtt.respond_topic"),
      (Text.allBlank m.username, .blank "mqtt.client_username"),
      (m.port == 0, .zero "mqtt.connect_port"),
      (m.clientId.any Text.allBlank, .blankClientId) ]

namespace Settings

/-- Whether settings can be run; of several complaints the first counts. -/
def validate (s : Settings) : Except Invalid Unit := do
  Invalid.firstOf
    [ (s.dispatch.poolSize == 0, .zero "dispatch.worker_pool_size"),
      (s.dispatch.registryCapacity == 0, .zero "dispatch.dedup_registry_capacity"),
      (s.amqp.isNone && s.mqtt.isNone, .noTransport) ]
  match s.amqp with
  | some a => a.validate
  | none => .ok ()
  match s.mqtt with
  | some m => m.validate
  | none => .ok ()

end Settings

end RequestBus
