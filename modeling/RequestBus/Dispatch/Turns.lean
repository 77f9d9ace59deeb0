import RequestBus.Dispatch.World

/-! A fair order of steps. Whoever can go on does so in the order of becoming able to, until all
that is left waits for something from outside. -/
namespace RequestBus

/-- Gives turns to those who are ready, first come, first served. A turn may make others ready. -/
def takeTurns (turn : τ → σ → σ × List τ) : Nat → List τ → σ → σ × List τ
  | 0, ready, s => (s, ready)
  | _, [], s => (s, [])
  | fuel + 1, t :: more, s =>
    let (s, woken) := turn t s
    takeTurns turn fuel (more ++ woken) s

/-- Those who wait until their id is called. A call that nobody waits for is kept. -/
structure Gate (τ : Type) where
  calls : List String := []
  waiting : List (String × τ) := []

namespace Gate

def enter (g : Gate τ) (id : String) (who : τ) : Bool × Gate τ :=
  if g.calls.contains id then (true, { g with calls := g.calls.erase id })
  else (false, { g with waiting := g.waiting ++ [(id, who)] })

def call (g : Gate τ) (id : String) : Option τ × Gate τ :=
  match g.waiting.find? fun e => e.1 == id with
  | some e => (some e.2, { g with waiting := g.waiting.eraseP fun e => e.1 == id })
  | none => (none, { g with calls := g.calls ++ [id] })

end Gate

inductive Handling where
  | answers (reply : Response)
  | waits (reply : Response)
  | crashes

inductive Turn where
  | worker (dispatcher ticket : Nat)
  | answer (dispatcher ticket : Nat)

structure Workshop where
  world : World
  handler : Request → Handling
  gate : Gate Turn := {}
  ready : List Turn := []

namespace Workshop

def dispatcher? (s : Workshop) (i : Nat) : Option Dispatcher := s.world.dispatchers[i]?

def finish (s : Workshop) (i ticket : Nat) (reply : Option Response) : Workshop × List Turn :=
  ({ s with world := s.world.step (.finish i ticket reply) },
    match (s.dispatcher? i).map fun d => d.pool.queue with
    | some (next :: _) => [.worker i next]
    | _ => [])

def serve (s : Workshop) (i ticket : Nat) (job : Job) (called : Bool) : Workshop × List Turn :=
  match job.request with
  | .error _ => s.finish i ticket none
  | .ok request =>
    match s.handler request with
    | .answers reply => s.finish i ticket (some reply)
    | .crashes => s.finish i ticket none
    | .waits reply =>
      if called then s.finish i ticket (some reply)
      else
        let (passed, gate) := s.gate.enter request.id (.worker i ticket)
        let s := { s with gate }
        if passed then s.finish i ticket (some reply) else (s, [])

def turn : Turn → Workshop → Workshop × List Turn
  | .answer i ticket, s => ({ s with world := s.world.step (.send i ticket) }, [])
  | .worker i ticket, s =>
    match (s.dispatcher? i).bind fun d => d.pool.task? ticket with
    | none => (s, [])
    | some task =>
      if task.stage = .running then s.serve i ticket task.job true
      else
        let s := { s with world := s.world.step (.advance i ticket) }
        match (s.dispatcher? i).bind fun d => d.pool.task? ticket with
        | some ⟨_, job, .running⟩ => s.serve i ticket job false
        | _ => (s, [])

/-- Lets all take turns until the rest waits. A worker takes three turns at most. -/
def settle (s : Workshop) : Workshop :=
  let workers := s.world.dispatchers.foldl (fun n d => n + d.pool.tasks.length) 0
  let (settled, ready) := takeTurns turn (s.ready.length + 3 * workers) s.ready s
  { settled with ready }

def deliver (s : Workshop) (i : Nat) (m : Message) (worked : Bool) : Workshop :=
  let ticket := s.world.issued
  let s := { s with world := s.world.dispatch i m worked }
  let woken : List Turn := match s.dispatcher? i with
    | some d =>
      if (d.pool.task? ticket).isSome then [.worker i ticket]
      else if d.outbox.any fun note => note.1 == ticket then [.answer i ticket]
      else []
    | none => []
  { s with ready := s.ready ++ woken }

def call (s : Workshop) (id : String) : Workshop :=
  let (who, gate) := s.gate.call id
  { s with gate, ready := s.ready ++ who.toList }

def step (s : Workshop) (e : Event) : Workshop := { s with world := s.world.step e }

end Workshop

end RequestBus
