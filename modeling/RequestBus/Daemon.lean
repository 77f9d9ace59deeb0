import RequestBus.Connection.Fleet
import RequestBus.Router
import RequestBus.Settings.Store
import RequestBus.Supervisor.Timeline

namespace RequestBus

def statusPath : String := "/api/dispatcher/status"

def statusRouter (snapshot : Json.Value) : Router :=
  Router.empty.register "GET" statusPath fun request => Response.json request.id 200 snapshot

structure ConnectionView where
  name : String
  protocol : Protocol
  state : ConnectionState
  active : Nat
  capacity : Nat

namespace ConnectionView

def pool (v : ConnectionView) : Json.Value :=
  .ofMembers [("active_workers", .nat v.active), ("total_capacity", .nat v.capacity)]

def detail (v : ConnectionView) : Json.Value :=
  .ofMembers
    [("protocol", .text v.protocol.name), ("state", .text v.state.name), ("pool", v.pool)]

end ConnectionView

def registryComponent : String := "dedup"

def daemonComponent : String := "daemon"

def Health.refresh (h : Health) (now : String) (views : List ConnectionView) (r : Registry) :
    Health :=
  (views.foldl (fun h v => h.mark now v.name (.detail v.detail)) h).mark now registryComponent
    (.detail (.ofMembers [("in_flight", .nat r.size), ("capacity", .nat r.capacity)]))

namespace Fleet

def views (f : Fleet) : List ConnectionView :=
  f.connections.filterMap fun c => (f.dispatcher? c).map fun d =>
    ⟨c.name, c.protocol, d.state, d.pool.active, d.pool.capacity⟩

def refresh (f : Fleet) (now : String) : Fleet :=
  { f with health := f.health.refresh now f.views f.shop.world.registry }

def report (f : Fleet) (now component : String) (m : Mark) : Fleet :=
  { f with health := f.health.mark now component m }

def launch (s : Settings) (handler : Request → Handling) (now : String) : Except String Fleet := do
  let f ← ofSettings s s.registry handler
  return ((f.report now daemonComponent .ok).report now registryComponent .ok).signalAll now [.start]

def halt (f : Fleet) (now : String) : Fleet :=
  (f.signalAll now [.stop]).report now daemonComponent (.status "stopping")

end Fleet

def Settings.supervisor (s : Settings) : Supervisor :=
  let initial := max s.reliability.initialBackoff 1
  .start initial (max s.reliability.maxBackoff initial)

def stopReason (signal : Option (Nat × Except String Unit)) (stopping : Bool) :
    Option (Except String Unit) :=
  match signal, stopping with
  | some (0, result), _ => some result
  | _, true => some (.ok ())
  | some (_, result), false => some result
  | none, false => none

end RequestBus
