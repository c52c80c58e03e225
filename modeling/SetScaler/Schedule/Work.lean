import SetScaler.Run.Suspension
import SetScaler.Run.Task
import SetScaler.Schedule.Machine

/-!
Two workloads for the tasks: evaluations of sets on a shared backend, and scripted runs of given
lengths and outcomes.
-/

namespace SetScaler.Schedule

def RunEnd.ofResult : Except Failure Unit → RunEnd
  | .ok () => .ok
  | .error .cancelled => .cancelled
  | .error (.invalidSpec _) => .invalid
  | .error _ => .failed

/-- What evaluations share: the backend's state, and the events of all of them so far. -/
structure Shared (σ : Type) where
  state : σ
  trace : Trace := []

/-- One step of an evaluation, its events put behind the earlier ones. -/
def stepOf {σ : Type} (trace : Trace)
    (step : Suspension (Except Failure Unit) × Trace × σ) :
    RunStep (Suspension (Except Failure Unit)) × Shared σ :=
  let (suspension, events, state) := step
  let shared : Shared σ := ⟨state, trace ++ events⟩
  match suspension with
  | .done result => (.ended (.ofResult result), shared)
  | waiting => (.going waiting, shared)

def evaluations {σ : Type} (backend : Backend σ) (settings : ScalingSettings) :
    Workload (Shared σ) (Suspension (Except Failure Unit)) where
  start task _ time shared :=
    stepOf shared.trace
      ((task.spec.run task.key settings).proceed backend time false shared.state)
  resume time cancelled suspension shared :=
    stepOf shared.trace (suspension.resume backend time cancelled shared.state)
  due? suspension := suspension.due?

/-- How the runs of a task go: each takes `runMs`, and they end with `outcomes` in turn, the last
one over and over. With `stopOnCancel` a run that is cancelled ends at once. -/
structure ScriptedRuns where
  runMs : Nat := 0
  outcomes : List RunEnd := [.ok]
  stopOnCancel : Bool := false
deriving Repr, Inhabited

structure ScriptedRun where
  due : Nat
  outcome : RunEnd
  stopOnCancel : Bool
deriving Repr

/-- Runs that only take time. -/
def scripted (runsOf : SetKey → ScriptedRuns) : Workload Unit ScriptedRun where
  start task earlier time state :=
    let runs := runsOf task.key
    let outcome := (runs.outcomes[min earlier (runs.outcomes.length - 1)]?).getD .ok
    if runs.runMs = 0 then (.ended outcome, state)
    else (.going ⟨time + runs.runMs, outcome, runs.stopOnCancel⟩, state)
  resume time cancelled run state :=
    if cancelled && run.stopOnCancel then (.ended .cancelled, state)
    else if run.due ≤ time then (.ended run.outcome, state)
    else (.going run, state)
  due? run := some run.due

end SetScaler.Schedule
