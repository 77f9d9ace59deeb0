import RequestBus.Settings.Basic
import RequestBus.Settings.Field

namespace RequestBus.Settings

private def portField (get : σ → UInt16) (set : σ → UInt16 → σ) : Slot σ :=
  .number .port (fun s => (get s).toNat) fun s n => set s (UInt16.ofNat n)

private def longField (word : Word) (get : σ → UInt64) (set : σ → UInt64 → σ) : Slot σ :=
  .number word (fun s => (get s).toNat) fun s n => set s (UInt64.ofNat n)

def dispatchOutline : Outline DispatchSettings :=
  { record := "DispatchConfig"
    name := "dispatch"
    about := "Dispatch sizing (`[dispatch]` section)."
    blank := {}
    fields :=
      [ { name := "worker_pool_size"
          slot := longField .count DispatchSettings.poolSize fun s n => { s with poolSize := n }
          about :=
            "Concurrent requests per bus connection. Overflow is answered with 429." },
        { name := "dedup_registry_capacity"
          slot := longField .count DispatchSettings.registryCapacity
            fun s n => { s with registryCapacity := n }
          about := "In-flight request ids remembered for AMQP duplicate suppression." },
        { name := "write_state_file"
          slot := .flag DispatchSettings.writesStateFile fun s b => { s with writesStateFile := b }
          about := "Write `daemon_state.json` next to the config file." },
        { name := "status_flush_secs"
          slot := longField .seconds DispatchSettings.flushSeconds
            fun s n => { s with flushSeconds := n }
          about := "How often health details and the state file are refreshed." } ] }

def reliabilityOutline : Outline ReliabilitySettings :=
  { record := "ReliabilityConfig"
    name := "reliability"
    about := "Reliability and supervision configuration (`[reliability]` section)."
    blank := {}
    fields :=
      [ { name := "initial_backoff_secs"
          slot := longField .seconds ReliabilitySettings.initialBackoff
            fun s n => { s with initialBackoff := n }
          about := "Initial backoff for restarting a failed connection task." },
        { name := "max_backoff_secs"
          slot := longField .seconds ReliabilitySettings.maxBackoff
            fun s n => { s with maxBackoff := n }
          about := "Max backoff for restarting a failed connection task." },
        { name := "amqp_reconnect_delay_secs"
          slot := longField .seconds ReliabilitySettings.reconnectDelay
            fun s n => { s with reconnectDelay := n }
          about := "Fixed delay before an AMQP reconnect attempt." } ] }

def amqpOutline : Outline AmqpSettings :=
  { record := "AmqpConfig"
    name := "amqp"
    about := "AMQP broker settings (`[amqp]` section)."
    blank := {}
    fields :=
      [ { name := "host"
          slot := .required AmqpSettings.host fun s t => { s with host := t } },
        { name := "port"
          slot := portField AmqpSettings.port fun s n => { s with port := n } },
        { name := "vhost"
          slot := .text AmqpSettings.vhost fun s t => { s with vhost := t } },
        { name := "username"
          slot := .required AmqpSettings.username fun s t => { s with username := t } },
        { name := "password"
          slot := .text AmqpSettings.password fun s t => { s with password := t }
          about := "Overridden by `CSE_BUS_AMQP_PASSWORD`." },
        { name := "exchange_name"
          slot := .required AmqpSettings.exchange fun s t => { s with exchange := t }
          about := "Exchange requests are published to. Must already exist on the broker." },
        { name := "routing_key"
          slot := .required AmqpSettings.routingKey fun s t => { s with routingKey := t } },
        { name := "queue_name"
          slot := .nullable AmqpSettings.queueName fun s t => { s with queueName := t }
          about := "Queue to consume from. Defaults to `routing_key`." },
        { name := "use_ssl"
          slot := .flag AmqpSettings.usesTls fun s b => { s with usesTls := b } },
        { name := "consumer_count"
          slot := longField .count AmqpSettings.consumers fun s n => { s with consumers := n }
          about := "Number of independent consumers sharing one dedup registry." } ] }

def mqttOutline : Outline MqttSettings :=
  { record := "MqttConfig"
    name := "mqtt"
    about :=
      "MQTT broker settings (`[mqtt]` section). The broker is reached over\nsecure WebSockets."
    blank := {}
    fields :=
      [ { name := "broker_url"
          slot := .required MqttSettings.brokerUrl fun s t => { s with brokerUrl := t }
          about := "Broker host, optionally with a scheme (`https://vcd.example.com`)." },
        { name := "connect_port"
          slot := portField MqttSettings.port fun s n => { s with port := n } },
        { name := "websocket_path"
          slot := .text MqttSettings.websocketPath fun s t => { s with websocketPath := t } },
        { name := "listen_topic"
          slot := .required MqttSettings.listenTopic fun s t => { s with listenTopic := t }
          about := "Topic requests arrive on." },
        { name := "respond_topic"
          slot := .required MqttSettings.respondTopic fun s t => { s with respondTopic := t }
          about := "Topic replies are published to." },
        { name := "verify_ssl"
          slot := .flag MqttSettings.verifiesTls fun s b => { s with verifiesTls := b } },
        { name := "auth_token"
          slot := .text MqttSettings.authToken fun s t => { s with authToken := t }
          about :=
            "Bearer token used as the MQTT password. Overridden by `CSE_BUS_MQTT_AUTH_TOKEN`." },
        { name := "client_username"
          slot := .required MqttSettings.username fun s t => { s with username := t } },
        { name := "client_id"
          slot := .nullable MqttSettings.clientId fun s t => { s with clientId := t }
          about := "Client id. A random one is generated when unset." },
        { name := "keep_alive_secs"
          slot := longField .seconds MqttSettings.keepAliveSeconds
            fun s n => { s with keepAliveSeconds := n } } ] }

/-- How each section is read into the settings, in the order of the sections. A transport may be
null, which leaves it out. -/
def sectionReads (exact : Bool) :
    List (String × (Settings → Datum → Except Mismatch Settings)) :=
  [ (dispatchOutline.name, fun s d =>
      (dispatchOutline.read exact d).map fun v => { s with dispatch := v }),
    (reliabilityOutline.name, fun s d =>
      (reliabilityOutline.read exact d).map fun v => { s with reliability := v }),
    (amqpOutline.name, fun s d =>
      (readOptional amqpOutline d).map fun v => { s with amqp := v }),
    (mqttOutline.name, fun s d =>
      (readOptional mqttOutline d).map fun v => { s with mqtt := v }) ]
where
  readOptional {τ : Type} (o : Outline τ) (d : Datum) : Except Mismatch (Option τ) :=
    match d with
    | .null => .ok none
    | d => (o.read exact d).map some

/-- Reads settings from data. `exact` says whether a list with too many items is refused. -/
def ofDatum (exact : Bool) (d : Datum) : Except Mismatch Settings :=
  match d with
  | .table members =>
    readMembers
      (fun s name d => ((sectionReads exact).find? (·.1 == name)).map fun r => r.2 s d) {} members
  | .list items => do
    let s ← readPositions ((sectionReads exact).map (·.2)) {} items
    if exact ∧ (sectionReads exact).length < items.length then .error (.tooLong items.length)
    else return s
  | d => .error (unexpected (.record "Config") d)

def toSections (s : Settings) : List (String × List (String × Datum)) :=
  [ (dispatchOutline.name, dispatchOutline.write s.dispatch),
    (reliabilityOutline.name, reliabilityOutline.write s.reliability) ] ++
  (s.amqp.map fun a => (amqpOutline.name, amqpOutline.write a)).toList ++
  (s.mqtt.map fun m => (mqttOutline.name, mqttOutline.write m)).toList

def toDatum (s : Settings) : Datum :=
  .table
    [ (dispatchOutline.name, dispatchOutline.datum s.dispatch),
      (reliabilityOutline.name, reliabilityOutline.datum s.reliability),
      (amqpOutline.name, (s.amqp.map amqpOutline.datum).getD .null),
      (mqttOutline.name, (s.mqtt.map mqttOutline.datum).getD .null) ]

end RequestBus.Settings
