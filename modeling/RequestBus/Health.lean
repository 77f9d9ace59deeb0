import RequestBus.Connection.State
import RequestBus.Json.Printer

namespace RequestBus

inductive Mark where
  | ok
  | error (text : String)
  | status (text : String)
  | restart
  | detail (value : Json.Value)

/-- The report of a connection that goes from one state to another: none if they are the
same. -/
def Mark.ofChange (before after : ConnectionState) : List Mark :=
  if before = after then [] else [.status after.name]

structure Component where
  status : String := "starting"
  updatedAt : String
  lastOk : Option String := none
  lastError : Option String := none
  restarts : UInt64 := 0
  detail : Json.Value := .null

namespace Component

/-- Takes a report in. The number of restarts stops at its greatest value. -/
def mark (c : Component) (now : String) (m : Mark) : Component :=
  match m with
  | .ok => { c with updatedAt := now, status := "ok", lastOk := some now }
  | .error text => { c with updatedAt := now, status := "error", lastError := some text }
  | .status text => { c with updatedAt := now, status := text }
  | .restart =>
    { c with
      updatedAt := now
      restarts := if c.restarts.toNat + 1 < UInt64.size then c.restarts + 1 else c.restarts }
  | .detail value => { c with updatedAt := now, detail := value }

def toJson (c : Component) : Json.Value :=
  .ofMembers (
    [ ("status", .text c.status), ("updated_at", .text c.updatedAt),
      ("last_ok", .ofText? c.lastOk), ("last_error", .ofText? c.lastError),
      ("restart_count", .nat c.restarts.toNat) ] ++
    match c.detail with
    | .null => []
    | detail => [("detail", detail)])

end Component

abbrev Health := Dictionary Component

namespace Health

def mark (h : Health) (now name : String) (m : Mark) : Health :=
  h.insert name (((h.get? name).getD { updatedAt := now }).mark now m)

def markAll (h : Health) (now name : String) (ms : List Mark) : Health :=
  ms.foldl (fun h m => h.mark now name m) h

def snapshot (h : Health) (pid uptime : Nat) : Json.Value :=
  .ofMembers
    [ ("pid", .nat pid), ("uptime_seconds", .nat uptime),
      ("components", .object (h.entries.map fun e => (e.1, e.2.toJson))) ]

def stateFile (h : Health) (pid uptime : Nat) (now : String) : String :=
  Json.Value.indented (
    match h.snapshot pid uptime with
    | .object members => .ofMembers (members ++ [("written_at", .text now)])
    | v => v)

end Health

end RequestBus
