import RequestBus.Amqp.State
import RequestBus.Dispatch.World
import RequestBus.Health

/-! What happens to a running connection, and what the connection does about it: it reports
about its health, and takes steps in the world of the dispatchers. -/
namespace RequestBus

inductive Signal where
  | start
  | stop
  | proceed
  /-- What was asked of the broker fails. The credentials may be what it refuses. -/
  | failed (refused : Bool) (text : String)
  | elapsed
  | setUp (e : AmqpEvent)
  | opened (publisher : Publisher)
  | consuming
  | lost
  /-- An MQTT client has news: that the broker accepts it, or others. A request to subscribe can be
  queued, or not. -/
  | polled (accepted queued : Bool)

/-- Reports about a connection's health, and its steps in the world, in order. -/
structure Deeds where
  reports : List Mark := []
  events : List Event := []

namespace Deeds

instance : Append Deeds := ⟨fun a b => ⟨a.reports ++ b.reports, a.events ++ b.events⟩⟩

def report (m : Mark) : Deeds := { reports := [m] }

def take (e : Event) : Deeds := { events := [e] }

def showing (i : Nat) (before after : ConnectionState) : Deeds :=
  ⟨Mark.ofChange before after, [.setState i after]⟩

end Deeds

end RequestBus
