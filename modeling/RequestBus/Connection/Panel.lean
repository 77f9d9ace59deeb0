import RequestBus.Health

/-! The health of the program together with the states that are shown in it. A state is held in a
cell, which reports its changes under a name. Other cells, and whatever else is in the program,
may report under the same name. -/
namespace RequestBus

/-- A cell, which a number tells apart from the others of its name. -/
structure StateCell where
  name : String
  number : Nat
  deriving DecidableEq, Repr

@[ext] structure Panel where
  states : StateCell → ConnectionState
  health : Health

namespace Panel

inductive Operation where
  | mark (now name : String) (m : Mark)
  | set (now : String) (cell : StateCell) (next : ConnectionState)

/-- Nothing is on record yet. A cell that nobody has set is disconnected. -/
def fresh : Panel := { states := fun _ => .disconnected, health := Dictionary.empty }

def step (p : Panel) (op : Operation) : Panel :=
  match op with
  | .mark now name m => { p with health := p.health.mark now name m }
  | .set now cell next =>
    { states := fun other => if other = cell then next else p.states other
      health := p.health.markAll now cell.name (Mark.ofChange (p.states cell) next) }

def run (p : Panel) (ops : List Operation) : Panel := ops.foldl step p

end Panel

end RequestBus
