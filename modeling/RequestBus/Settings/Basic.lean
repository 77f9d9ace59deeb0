namespace RequestBus

structure DispatchSettings where
  /-- Requests handled at once per connection. -/
  poolSize : UInt64 := 8
  registryCapacity : UInt64 := 1024
  writesStateFile : Bool := true
  flushSeconds : UInt64 := 5
  deriving DecidableEq, Repr

structure ReliabilitySettings where
  initialBackoff : UInt64 := 2
  maxBackoff : UInt64 := 60
  reconnectDelay : UInt64 := 5
  deriving DecidableEq, Repr

structure AmqpSettings where
  host : String := ""
  port : UInt16 := 5672
  vhost : String := "/"
  username : String := ""
  password : String := ""
  exchange : String := ""
  routingKey : String := ""
  /-- The queue to consume from, where it is not named like the routing key. -/
  queueName : Option String := none
  usesTls : Bool := false
  consumers : UInt64 := 1
  deriving DecidableEq, Repr

structure MqttSettings where
  brokerUrl : String := ""
  port : UInt16 := 443
  websocketPath : String := "/messaging/mqtt"
  listenTopic : String := ""
  respondTopic : String := ""
  verifiesTls : Bool := true
  authToken : String := ""
  username : String := ""
  clientId : Option String := none
  keepAliveSeconds : UInt64 := 30
  deriving DecidableEq, Repr

structure Settings where
  path : String := ""
  dispatch : DispatchSettings := {}
  reliability : ReliabilitySettings := {}
  amqp : Option AmqpSettings := none
  mqtt : Option MqttSettings := none
  deriving DecidableEq, Repr

def AmqpSettings.example : AmqpSettings :=
  { host := "amqp.example.com", username := "guest", password := "guest", exchange := "cse-ext",
    routingKey := "cse" }

def MqttSettings.example : MqttSettings :=
  { brokerUrl := "vcd.example.com", listenTopic := "extensions/cse/requests",
    respondTopic := "extensions/cse/responses", username := "cse@system" }

end RequestBus
