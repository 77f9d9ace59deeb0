import RequestBus.Decimal.Natural
import RequestBus.Settings.Basic
import RequestBus.Text.Blank

namespace RequestBus

abbrev Environment := String → Option String

namespace Settings

def passwordVariable : String := "CSE_BUS_AMQP_PASSWORD"

def tokenVariable : String := "CSE_BUS_MQTT_AUTH_TOKEN"

def poolSizeVariable : String := "CSE_BUS_WORKER_POOL_SIZE"

def directoryVariable : String := "CSE_BUS_CONFIG_DIR"

/-- A positive number of 64 bits, blanks around it and a plus sign before it left out. -/
def poolSize? (text : String) : Option UInt64 :=
  let cs := (Text.trim text).toList
  let digits := if cs.head? = some '+' then cs.tail else cs
  match Decimal.value? digits with
  | some n => if 0 < n ∧ n < UInt64.size then some (UInt64.ofNat n) else none
  | none => none

def secret? (env : Environment) (name : String) : Option String :=
  (env name).filter (· ≠ "")

def override (env : Environment) (s : Settings) : Settings :=
  { s with
    amqp := s.amqp.map fun a => { a with password := (secret? env passwordVariable).getD a.password }
    mqtt := s.mqtt.map fun m => { m with authToken := (secret? env tokenVariable).getD m.authToken }
    dispatch := { s.dispatch with
      poolSize := ((env poolSizeVariable).bind poolSize?).getD s.dispatch.poolSize } }

end Settings

end RequestBus
