import RequestBus.Connection.Error
import RequestBus.Health
import RequestBus.Text.Quoted

/-! Supervision of a connection. A run that fails or crashes is started again after a wait, which
doubles from failure to failure up to a limit. A run that ends well ends the supervision, and so
does a fatal failure, which also asks the whole program to stop; a program that is to stop cuts
the wait short. -/
namespace RequestBus

inductive RunEnd where
  | finished
  | failed (error : BusError)
  | crashed (text : String)

inductive SupervisorPhase where
  | running
  | waiting (seconds : UInt64)
  | ended (result : Except BusError Unit)

structure Supervisor where
  phase : SupervisorPhase := .running
  backoff : UInt64
  longest : UInt64
  stopsAll : Bool := false
  reports : List Mark := []

namespace Supervisor

/-- Twice a number, or the greatest number where that is too large. -/
def doubled (n : UInt64) : UInt64 :=
  if 2 * n.toNat < UInt64.size then 2 * n else UInt64.ofNat (UInt64.size - 1)

/-- A supervision whose first run begins. Every wait is of a second at least. -/
def start (initial longest : UInt64) : Supervisor :=
  { backoff := max initial 1, longest := max longest (max initial 1) }

def crashReport (text : String) : String :=
  "panicked: task N panicked with message " ++ Text.quoted text

def retry (s : Supervisor) (text : String) : Supervisor :=
  { s with
    phase := .waiting s.backoff
    reports := s.reports ++ [.error text, .restart] }

def ended (s : Supervisor) (e : RunEnd) : Supervisor :=
  match s.phase, e with
  | .running, .finished => { s with phase := .ended (.ok ()) }
  | .running, .failed error =>
    if error.isFatal then
      { s with
        phase := .ended (.error error)
        stopsAll := true
        reports := s.reports ++ [.error error.message] }
    else s.retry error.message
  | .running, .crashed text => s.retry (crashReport text)
  | _, _ => s

/-- The wait is over, and the next run begins. The next wait is twice as long. -/
def elapsed (s : Supervisor) : Supervisor :=
  match s.phase with
  | .waiting _ => { s with phase := .running, backoff := min (doubled s.backoff) s.longest }
  | _ => s

def cut (s : Supervisor) : Supervisor :=
  match s.phase with
  | .waiting _ => { s with phase := .ended (.ok ()) }
  | _ => s

end Supervisor

end RequestBus
