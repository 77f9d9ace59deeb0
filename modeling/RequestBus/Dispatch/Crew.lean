import RequestBus.Dispatch.Turns

namespace RequestBus

inductive Duty where
  | instant
  | patient
  | crashes
  deriving DecidableEq, Repr

structure Crew where
  pool : Pool (String × Duty)
  gate : Gate Nat := {}
  /-- The tickets of those that can go on, in the order of becoming able to. -/
  ready : List Nat := []
  issued : Nat := 0
  said : List String := []
  shutdowns : List Bool := []

namespace Crew

def finish (c : Crew) (ticket : Nat) (words : List String) : Crew × List Nat :=
  ({ c with pool := c.pool.finish ticket, said := c.said ++ words }, c.pool.queue.take 1)

def turn (ticket : Nat) (c : Crew) : Crew × List Nat :=
  match c.pool.task? ticket with
  | none => (c, [])
  | some ⟨_, (id, _), .running⟩ => c.finish ticket ["end " ++ id]
  | some ⟨_, (id, duty), _⟩ =>
    let c := { c with pool := c.pool.advance ticket }
    match (c.pool.task? ticket).map Task.stage with
    | some .running =>
      let c := { c with said := c.said ++ ["start " ++ id] }
      match duty with
      | .crashes => c.finish ticket []
      | .instant => c.finish ticket ["end " ++ id]
      | .patient =>
        let (passed, gate) := c.gate.enter id ticket
        let c := { c with gate }
        if passed then c.finish ticket ["end " ++ id] else (c, [])
    | _ => (c, [])

/-- Lets all take turns until the rest waits. A task takes three turns at most. -/
def settle (c : Crew) : Crew :=
  let (settled, ready) := takeTurns turn (c.ready.length + 3 * c.pool.tasks.length) c.ready c
  { settled with ready }

def submit (c : Crew) (id : String) (duty : Duty) : Bool × Crew :=
  let (taken, pool) := c.pool.submit c.issued (id, duty)
  (taken, { c with
    pool
    issued := c.issued + 1
    ready := if taken then c.ready ++ [c.issued] else c.ready })

def call (c : Crew) (id : String) : Crew :=
  let (who, gate) := c.gate.call id
  { c with gate, ready := c.ready ++ who.toList }

def shutDown (c : Crew) (drain : Bool) : Crew :=
  { c with pool := c.pool.shutDown, shutdowns := c.shutdowns ++ [drain] }

def shutdownsDone (c : Crew) : Nat := c.shutdowns.countP fun drain => !drain || c.pool.isDrained

end Crew

end RequestBus
