import SetScaler.Run.Program

/-!
What a run meets: a backend that answers requests at once and commands after a while, and the events
that the run leaves behind, in order.
-/

namespace SetScaler

/-- A cluster that a run can be carried out on. It may answer in any way and change its state `σ`
with every answer; `time` is in milliseconds. -/
structure Backend (σ : Type) where
  /-- The answer to a request. -/
  reply : (request : Request) → (time : Nat) → σ → request.Result × σ
  /-- How long a command takes, in milliseconds, and what comes of it. -/
  output : (command : BookieCommand) → (time : Nat) → σ → (Nat × Output) × σ

inductive Event where
  | called (time : Nat) (request : Request) (reply : request.Result)
  | sent (time : Nat) (command : BookieCommand)
  /-- The output of a command, or the news that it was interrupted, came back. -/
  | answered (time : Nat) (command : BookieCommand) (output : Output)
  | settled (time : Nat) (cancelled : Bool)

namespace Event

def time : Event → Nat
  | called time .. => time
  | sent time .. => time
  | answered time .. => time
  | settled time .. => time

def request? : Event → Option (Nat × Request)
  | called time request _ => some (time, request)
  | _ => none

def command? : Event → Option (Nat × BookieCommand)
  | sent time command => some (time, command)
  | _ => none

end Event

/-- The events of a run, in the order in which they happened. -/
abbrev Trace := List Event

namespace Trace

def requests (trace : Trace) : List (Nat × Request) := trace.filterMap Event.request?

def commands (trace : Trace) : List (Nat × BookieCommand) := trace.filterMap Event.command?

end Trace
end SetScaler
