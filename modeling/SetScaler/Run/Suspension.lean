import SetScaler.Run.Rows

/-!
A run taken up and put down again: a program is carried out until it has to wait for a command or
for time to pass, and is resumed later. This is how several runs share one backend, and how a run
meets a cancellation whose time is not known beforehand.
-/

namespace SetScaler

/-- A run that is over, or that waits. -/
inductive Suspension (α : Type) where
  | done (result : α)
  | executing (flight : InFlight) (next : Output → Program α)
  | querying (rows : List Row) (next : List (List Output) → Program α)
  /-- A wait until a given time. -/
  | settling (due : Nat) (next : Bool → Program α)

namespace Program

variable {σ α : Type}

/-- Carries out a program at one instant, as far as it goes. -/
def proceed (backend : Backend σ) (time : Nat) (cancelled : Bool) :
    Program α → σ → Suspension α × Trace × σ
  | done result, state => (.done result, [], state)
  | call request next, state =>
    let (reply, state) := backend.reply request time state
    let (rest, trace, state) := (next reply).proceed backend time cancelled state
    (rest, .called time request reply :: trace, state)
  | exec command next, state =>
    let ((delay, output), state) := backend.output command time state
    if delay = 0 then
      let (rest, trace, state) := (next output).proceed backend time cancelled state
      (rest, .sent time command :: .answered time command output :: trace, state)
    else (.executing ⟨time + delay, command, output⟩ next, [.sent time command], state)
  | query rows next, state =>
    let rows := rows.map Row.ofCommands
    let (rows, first, state) :=
      if cancelled then
        let (rows, trace) := Row.cancelAll time rows
        (rows, trace, state)
      else Row.advanceAll backend time rows state
    if Row.allOver rows then
      let (rest, trace, state) := (next (Row.outputsOf rows)).proceed backend time cancelled state
      (rest, first ++ trace, state)
    else (.querying rows next, first, state)
  | settle delayMs next, state =>
    if cancelled || delayMs = 0 then
      let (rest, trace, state) := (next cancelled).proceed backend time cancelled state
      (rest, .settled time cancelled :: trace, state)
    else (.settling (time + delayMs) next, [], state)
  | look next, state => (next cancelled).proceed backend time cancelled state

end Program

namespace Suspension

variable {σ α : Type}

/-- The time at which a run can go on by itself; a run that is over needs none. -/
def due? : Suspension α → Option Nat
  | done _ => none
  | executing flight _ => some flight.due
  | querying rows _ => Row.nextDue? rows
  | settling due _ => some due

/-- Resumes a run at an instant. It stays as it is when nothing it waits for has happened. -/
def resume (backend : Backend σ) (time : Nat) (cancelled : Bool) :
    Suspension α → σ → Suspension α × Trace × σ
  | done result, state => (done result, [], state)
  | executing flight next, state =>
    if flight.due ≤ time then
      let (rest, trace, state) := (next flight.output).proceed backend time cancelled state
      (rest, .answered time flight.command flight.output :: trace, state)
    else (executing flight next, [], state)
  | querying rows next, state =>
    let (rows, first, state) :=
      if cancelled then
        let (rows, trace) := Row.cancelAll time rows
        (rows, trace, state)
      else Row.advanceAll backend time rows state
    if Row.allOver rows then
      let (rest, trace, state) := (next (Row.outputsOf rows)).proceed backend time cancelled state
      (rest, first ++ trace, state)
    else (querying rows next, first, state)
  | settling due next, state =>
    if cancelled || due ≤ time then
      let (rest, trace, state) := (next cancelled).proceed backend time cancelled state
      (rest, .settled time cancelled :: trace, state)
    else (settling due next, [], state)

end Suspension
end SetScaler
