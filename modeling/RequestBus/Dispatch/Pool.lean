/-! Worker pools. A pool has a fixed number of slots. A task that is submitted while a slot is
free holds it at once; one that finds none asks for a slot when it first gets to run, and then
waits its turn. A slot goes from a task that ends to the task that has waited longest. A pool
that is shut down accepts nothing more, but runs what it has accepted to its end. -/
namespace RequestBus

inductive Stage where
  /-- It holds a slot and has not begun. -/
  | granted
  /-- It found no free slot and has not asked for one yet. -/
  | slotless
  | queued
  | running
  deriving DecidableEq, Repr

structure Task (α : Type) where
  ticket : Nat
  job : α
  stage : Stage
  deriving Repr

structure Pool (α : Type) where
  name : String
  capacity : Nat
  free : Nat
  isShutDown : Bool := false
  tasks : List (Task α) := []
  /-- The tickets of the tasks that wait for a slot, the next one first. -/
  queue : List Nat := []
  deriving Repr

namespace Pool

/-- An idle pool with at least one slot. -/
def ofCapacity (name : String) (n : Nat) : Pool α :=
  { name, capacity := max n 1, free := max n 1 }

def maxSlots : Nat := 2305843009213693951

/-- With what the program breaks off that asks for more slots. -/
def tooManySlots : String :=
  "a semaphore may not have more than MAX_PERMITS permits (2305843009213693951)"

def create (name : String) (n : Nat) : Except String (Pool α) :=
  if max n 1 ≤ maxSlots then .ok (ofCapacity name n) else .error tooManySlots

def active (p : Pool α) : Nat := p.capacity - p.free

def isSaturated (p : Pool α) : Bool := p.free == 0

def isDrained (p : Pool α) : Bool := p.isShutDown && p.tasks.isEmpty

def task? (p : Pool α) (ticket : Nat) : Option (Task α) :=
  p.tasks.find? fun t => t.ticket == ticket

def move (p : Pool α) (ticket : Nat) (stage : Stage) : Pool α :=
  { p with tasks := p.tasks.map fun t => if t.ticket = ticket then { t with stage } else t }

def submit (p : Pool α) (ticket : Nat) (job : α) : Bool × Pool α :=
  if p.isShutDown then (false, p)
  else if p.isSaturated then
    (true, { p with tasks := p.tasks ++ [⟨ticket, job, .slotless⟩] })
  else
    (true, { p with tasks := p.tasks ++ [⟨ticket, job, .granted⟩], free := p.free - 1 })

/-- Lets a task run that has not begun: it begins if it has a slot or finds one, and waits its
turn otherwise. -/
def advance (p : Pool α) (ticket : Nat) : Pool α :=
  match (p.task? ticket).map Task.stage with
  | some .granted => p.move ticket .running
  | some .slotless =>
    if p.isSaturated then { p.move ticket .queued with queue := p.queue ++ [ticket] }
    else { p.move ticket .running with free := p.free - 1 }
  | _ => p

def giveBack (p : Pool α) : Pool α :=
  match p.queue with
  | next :: more => { p.move next .granted with queue := more }
  | [] => { p with free := p.free + 1 }

def finish (p : Pool α) (ticket : Nat) : Pool α :=
  match (p.task? ticket).map Task.stage with
  | some .running =>
    { p with tasks := p.tasks.filter fun t => t.ticket != ticket }.giveBack
  | _ => p

def shutDown (p : Pool α) : Pool α := { p with isShutDown := true }

end Pool

end RequestBus
