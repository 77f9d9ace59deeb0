import RequestBus.Wire.Malformed

namespace RequestBus

inductive BusError where
  | notConnected (connection : String)
  | amqp (text : String)
  | mqttClient (text : String)
  | mqttConnection (text : String)
  | authentication (text : String)
  | destination (shown : String)
  | tls (text : String)
  | codec (m : Malformed)

namespace BusError

def message : BusError → String
  | .notConnected connection => "connection '" ++ connection ++ "' has no open transport"
  | .amqp text => "AMQP error: " ++ text
  | .mqttClient text => "MQTT client error: " ++ text
  | .mqttConnection text => "MQTT connection error: " ++ text
  | .authentication text => "authentication rejected by broker: " ++ text
  | .destination shown =>
    "reply destination " ++ shown ++ " cannot be reached over this transport"
  | .tls text => "TLS setup failed: " ++ text
  | .codec m => m.message

def isFatal : BusError → Bool
  | .authentication _ => true
  | _ => false

end BusError

end RequestBus
