import SetScaler.Run.Backend

/-!
Rows of commands that run side by side. Within a row a command is sent as soon as the one before it
has answered. When several rows can go on at one instant they do so in their order.
-/

namespace SetScaler

/-- A command that has been sent: when its output arrives, and what that is. -/
structure InFlight where
  due : Nat
  command : BookieCommand
  output : Output

/-- How far one row of commands has come. -/
structure Row where
  /-- The outputs so far, in the order of the commands. -/
  outputs : List Output
  inFlight : Option InFlight
  waiting : List BookieCommand

namespace Row

variable {σ : Type}

/-- A row of which no command has been sent. -/
def ofCommands (commands : List BookieCommand) : Row := ⟨[], none, commands⟩

/-- The number of commands that have not answered. -/
def pending (row : Row) : Nat := row.inFlight.toList.length + row.waiting.length

def isOver (row : Row) : Bool := row.inFlight.isNone && row.waiting.isEmpty

/-- Sends commands one after the other, until one takes time to answer. -/
def send (backend : Backend σ) (time : Nat) (outputs : List Output) :
    List BookieCommand → σ → Row × Trace × σ
  | [], state => (⟨outputs, none, []⟩, [], state)
  | command :: rest, state =>
    let ((delay, output), state) := backend.output command time state
    if delay = 0 then
      let (row, trace, state) := send backend time (outputs ++ [output]) rest state
      (row, .sent time command :: .answered time command output :: trace, state)
    else (⟨outputs, some ⟨time + delay, command, output⟩, rest⟩, [.sent time command], state)

/-- Brings a row up to an instant at which it has not been cancelled. -/
def advance (backend : Backend σ) (time : Nat) (row : Row) (state : σ) : Row × Trace × σ :=
  match row.inFlight with
  | none => send backend time row.outputs row.waiting state
  | some flight =>
    if flight.due ≤ time then
      let (next, trace, state) :=
        send backend time (row.outputs ++ [flight.output]) row.waiting state
      (next, .answered time flight.command flight.output :: trace, state)
    else (row, [], state)

/-- Ends a row on cancellation: the command in flight is interrupted and no further one is sent. -/
def cancel (time : Nat) (row : Row) : Row × Trace :=
  (⟨row.outputs ++ List.replicate row.pending (.error .cancelled), none, []⟩,
    row.inFlight.toList.map fun flight => .answered time flight.command (.error .cancelled))

/-- When a row can go on next; `none` when it is over. -/
def due? (row : Row) : Option Nat := row.inFlight.map fun flight => flight.due

/-- Brings all rows up to an instant, in their order. -/
def advanceAll (backend : Backend σ) (time : Nat) : List Row → σ → List Row × Trace × σ
  | [], state => ([], [], state)
  | row :: rest, state =>
    let (row, first, state) := row.advance backend time state
    let (rest, later, state) := advanceAll backend time rest state
    (row :: rest, first ++ later, state)

/-- Ends all rows on cancellation. -/
def cancelAll (time : Nat) (rows : List Row) : List Row × Trace :=
  (rows.map fun row => (row.cancel time).1, rows.flatMap fun row => (row.cancel time).2)

/-- The next instant at which one of several rows can go on. -/
def nextDue? (rows : List Row) : Option Nat := (rows.filterMap due?).min?

def allOver (rows : List Row) : Bool := rows.all isOver

def outputsOf (rows : List Row) : List (List Output) := rows.map fun row => row.outputs

end Row
end SetScaler
