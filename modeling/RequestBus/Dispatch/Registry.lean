/-! The requests in flight. A registry remembers a bounded number of request ids, so that a
request that is delivered again while it is being processed can be told from a new one. Every
id carries the stamp of its last sighting; when the registry is full, the id that has gone
unseen for longest makes room, even if its request is still being processed. The moment at which an
id was accepted is left out: it is only ever shown, and decides nothing. -/
namespace RequestBus

structure InFlight where
  id : String
  stamp : UInt64
  deriving DecidableEq, Repr

/-- The entry with the least stamp; of several, the first. -/
def InFlight.oldest? : List InFlight → Option InFlight
  | [] => none
  | e :: more =>
    match oldest? more with
    | some m => if m.stamp < e.stamp then some m else some e
    | none => some e

/-- The ids in flight. The clock counts sightings and wraps. -/
structure Registry where
  capacity : Nat
  clock : UInt64 := 0
  entries : List InFlight := []
  deriving DecidableEq, Repr

namespace Registry

def defaultCapacity : Nat := 1024

def ofCapacity (n : Nat) : Registry := { capacity := max n 1 }

def contains (r : Registry) (id : String) : Bool := r.entries.any fun e => e.id == id

/-- The entry of an id, without the moment at which the id was accepted. -/
def entry? (r : Registry) (id : String) : Option InFlight := r.entries.find? fun e => e.id == id

def size (r : Registry) : Nat := r.entries.length

def isEmpty (r : Registry) : Bool := r.entries.isEmpty

def release (r : Registry) (id : String) : Registry :=
  { r with entries := r.entries.filter fun e => e.id != id }

def evicted? (r : Registry) (id : String) : Option String :=
  if r.contains id ∨ r.size < r.capacity then none
  else (InFlight.oldest? r.entries).map InFlight.id

def makeRoom (r : Registry) (id : String) : Registry :=
  match r.evicted? id with
  | some victim => r.release victim
  | none => r

/-- Accepts an id that is not in flight. One that is counts as seen again. -/
def accept (r : Registry) (id : String) : Bool × Registry :=
  let now := r.clock + 1
  if r.contains id then
    (false, { r with
      clock := now
      entries := r.entries.map fun e => if e.id = id then { e with stamp := now } else e })
  else
    let kept := r.makeRoom id
    (true, { kept with clock := now, entries := kept.entries ++ [⟨id, now⟩] })

end Registry

/-- Whoever has a guard keeps an id in flight until the guard is dropped. -/
structure Guard where
  id : String

def Guard.drop (g : Guard) (r : Registry) : Registry := r.release g.id

end RequestBus
