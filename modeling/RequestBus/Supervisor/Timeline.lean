import RequestBus.Supervisor.Basic

/-! A supervised connection in time. Given how long its runs take and how they end, the moments
at which they begin are fixed by the waits in between and by the moment at which the program is
to stop. A run beyond the given ones lasts until then. -/
namespace RequestBus

/-- A run: how long it takes, in milliseconds, and how it ends. -/
structure ScriptedRun where
  length : Nat
  outcome : RunEnd

/-- The course of a supervision: when its runs began, how many seconds each wait was to last,
where the supervision stands in the end, and when it asked the whole program to stop, if it
did. -/
structure Timeline where
  starts : List Nat
  waits : List UInt64 := []
  last : Supervisor
  stopped : Option Nat := none

/-- Follows a supervision from a moment at which a run begins. A wait that is over when the
program is to stop has not been cut short. -/
def Supervisor.follow (s : Supervisor) (stop now : Nat) : List ScriptedRun → Timeline
  | [] => { starts := [now], last := s.ended .finished }
  | run :: more =>
    let finish := now + run.length
    let s := s.ended run.outcome
    match s.phase with
    | .waiting seconds =>
      let due := finish + 1000 * seconds.toNat
      if due ≤ stop then
        let rest := s.elapsed.follow stop due more
        { rest with starts := now :: rest.starts, waits := seconds :: rest.waits }
      else { starts := [now], waits := [seconds], last := s.cut }
    | _ => { starts := [now], last := s, stopped := if s.stopsAll then some finish else none }

/-- The course of several supervisions that begin together. Each of them may stop the program
before it is to stop anyway. -/
def Supervisor.followAll (s : Supervisor) (stop : Nat) (scripts : List (List ScriptedRun)) :
    List Timeline :=
  let alone := scripts.map (s.follow stop 0)
  let first := alone.foldl (fun t c => min t (c.stopped.getD t)) stop
  scripts.map (s.follow first 0)

end RequestBus
