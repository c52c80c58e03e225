import SetScaler.Run.Rows

/-!
A whole run: a program carried out on a backend from a given time on, with a cancellation that fires
at a given time or never. Requests take no time, commands take as long as the backend says.
-/

namespace SetScaler

/-- The time at which a run is cancelled, if it is. -/
abbrev Cancellation := Option Nat

/-- Whether the cancellation has fired by a given time. -/
def Cancellation.firedBy (cancellation : Cancellation) (time : Nat) : Bool :=
  cancellation.any fun fires => fires ≤ time

structure Ended (σ α : Type) where
  result : α
  trace : Trace
  time : Nat
  state : σ

namespace Ended

variable {σ α : Type}

/-- Puts events in front of those of a run. -/
def after (events : Trace) (ended : Ended σ α) : Ended σ α :=
  { ended with trace := events ++ ended.trace }

end Ended

/-- Carries out rows of commands until all of them are over. Each round sees at least one command
answered, so the number of commands bounds the rounds. -/
def runRows {σ : Type} (backend : Backend σ) (cancellation : Cancellation) :
    Nat → Nat → List Row → σ → Ended σ (List Row)
  | 0, time, rows, state => ⟨rows, [], time, state⟩
  | rounds + 1, time, rows, state =>
    -- before any command that answers at the same time
    if cancellation.firedBy time then
      let (rows, trace) := Row.cancelAll time rows
      ⟨rows, trace, time, state⟩
    else
      let (rows, trace, state) := Row.advanceAll backend time rows state
      match Row.nextDue? rows with
      | none => ⟨rows, trace, time, state⟩
      | some due =>
        let next := match cancellation with
          | none => due
          | some fires => min due fires
        (runRows backend cancellation rounds next rows state).after trace

def commandCount (rows : List (List BookieCommand)) : Nat := rows.flatten.length

/-- The end of a wait, and whether cancellation ended it. A cancellation that fires at its end comes
first. -/
def waitUntil (cancellation : Cancellation) (time delayMs : Nat) : Nat × Bool :=
  match cancellation with
  | none => (time + delayMs, false)
  | some fires => if fires ≤ time + delayMs then (max time fires, true) else (time + delayMs, false)

namespace Program

variable {σ α : Type}

def run (backend : Backend σ) (cancellation : Cancellation) : Program α → Nat → σ → Ended σ α
  | done result, time, state => ⟨result, [], time, state⟩
  | call request next, time, state =>
    let (reply, state) := backend.reply request time state
    ((next reply).run backend cancellation time state).after [.called time request reply]
  | exec command next, time, state =>
    let ((delay, output), state) := backend.output command time state
    ((next output).run backend cancellation (time + delay) state).after
      [.sent time command, .answered (time + delay) command output]
  | query rows next, time, state =>
    let ended := runRows backend cancellation (commandCount rows + 1) time
      (rows.map Row.ofCommands) state
    ((next (Row.outputsOf ended.result)).run backend cancellation ended.time ended.state).after
      ended.trace
  | settle delayMs next, time, state =>
    let (time, cancelled) := waitUntil cancellation time delayMs
    ((next cancelled).run backend cancellation time state).after [.settled time cancelled]
  | look next, time, state =>
    (next (cancellation.firedBy time)).run backend cancellation time state

end Program
end SetScaler
