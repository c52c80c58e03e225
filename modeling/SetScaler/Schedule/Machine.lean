import SetScaler.Schedule.Registry

/-!
The tasks at work. Each task waits for its predecessor, then runs over and over: one period of
waiting, one run, whatever comes of it, until it is cancelled. Time is virtual, in milliseconds, and
jumps from one instant at which something is due to the next. What a run does is left to a workload.
-/

namespace SetScaler.Schedule

inductive RunEnd where
  | ok
  | failed
  | cancelled
  | invalid
  | panicked
deriving DecidableEq, Repr

def RunEnd.name : RunEnd → String
  | ok => "ok"
  | failed => "fail"
  | cancelled => "cancelled"
  | invalid => "invalid"
  | panicked => "panic"

/-- A run that has ended, or one that goes on from `state`. -/
inductive RunStep (ρ : Type) where
  | ended (outcome : RunEnd)
  | going (state : ρ)

/-- What the runs of tasks do. `σ` is what all runs share, `ρ` the state of one run in progress. -/
structure Workload (σ ρ : Type) where
  /-- Begins a run of a task; `earlier` is the number of runs the task has begun before. -/
  start : (task : Scheduled) → (earlier : Nat) → (time : Nat) → σ → RunStep ρ × σ
  /-- Goes on with a run, and tells it whether its task has been cancelled. -/
  resume : (time : Nat) → (cancelled : Bool) → ρ → σ → RunStep ρ × σ
  /-- When a run can go on by itself. -/
  due? : ρ → Option Nat

inductive Phase (ρ : Type) where
  /-- Waits for the task of that generation to finish. -/
  | waiting (predecessor : Nat)
  | sleeping (due : Nat)
  | running (state : ρ)
  | finished

structure Task (ρ : Type) where
  scheduled : Scheduled
  cancelled : Bool := false
  runs : Nat := 0
  phase : Phase ρ

inductive Note where
  | built (periodMs : Nat)
  | started
  | ended (outcome : RunEnd)
deriving DecidableEq, Repr

structure Entry where
  time : Nat
  key : SetKey
  generation : Nat
  note : Note
deriving DecidableEq, Repr

namespace Task

variable {σ ρ : Type}

def isFinished (task : Task ρ) : Bool :=
  match task.phase with
  | .finished => true
  | _ => false

def entry (task : Task ρ) (time : Nat) (note : Note) : Entry :=
  ⟨time, task.scheduled.key, task.scheduled.generation, note⟩

/-- The top of a task's loop: it ends when cancelled, and otherwise sleeps for one period. -/
def rest (task : Task ρ) (time : Nat) : Task ρ :=
  if task.cancelled then { task with phase := .finished }
  else { task with phase := .sleeping (time + task.scheduled.spec.periodMs) }

/-- What a task does after a step of its run. -/
def afterStep (task : Task ρ) (time : Nat) : RunStep ρ → Task ρ × List Entry
  | .ended outcome => (task.rest time, [task.entry time (.ended outcome)])
  | .going state => ({ task with phase := .running state }, [])

/-- Brings a task that waits or runs up to an instant. -/
def settle (work : Workload σ ρ) (time : Nat) (finished : Nat → Bool) (task : Task ρ) (state : σ) :
    Task ρ × List Entry × σ :=
  match task.phase with
  | .waiting predecessor =>
    (if finished predecessor then task.rest time else task, [], state)
  | .running run =>
    let (step, state) := work.resume time task.cancelled run state
    let (task, entries) := task.afterStep time step
    (task, entries, state)
  | .sleeping _ | .finished => (task, [], state)

/-- Wakes a task that sleeps: cancelled it ends, and when its time has come it begins a run. -/
def wake (work : Workload σ ρ) (time : Nat) (task : Task ρ) (state : σ) : Task ρ × List Entry × σ :=
  match task.phase with
  | .sleeping due =>
    if task.cancelled then ({ task with phase := .finished }, [], state)
    else if due ≤ time then
      let (step, state) := work.start task.scheduled task.runs time state
      let task := { task with runs := task.runs + 1 }
      let (after, entries) := task.afterStep time step
      (after, task.entry time .started :: entries, state)
    else (task, [], state)
  | _ => (task, [], state)

/-- Brings a task up to an instant. It begins at most one run there. -/
def poll (work : Workload σ ρ) (time : Nat) (finished : Nat → Bool) (task : Task ρ) (state : σ) :
    Task ρ × List Entry × σ :=
  let (task, first, state) := task.settle work time finished state
  let (task, later, state) := task.wake work time state
  (task, first ++ later, state)

/-- When a task can go on by itself. -/
def due? (work : Workload σ ρ) (task : Task ρ) : Option Nat :=
  match task.phase with
  | .sleeping due => some due
  | .running state => work.due? state
  | .waiting _ | .finished => none

end Task

/-- The registry, all tasks there have ever been in the order of their generations, the time, what
was noted, and what the runs share. -/
structure Machine (σ ρ : Type) where
  registry : Registry := {}
  tasks : List (Task ρ) := []
  time : Nat := 0
  log : List Entry := []
  state : σ

namespace Machine

variable {σ ρ : Type}

def hasFinished (tasks : List (Task ρ)) (generation : Nat) : Bool :=
  tasks.any fun task => task.scheduled.generation == generation && task.isFinished

def obey (machine : Machine σ ρ) : Order → Machine σ ρ
  | .cancel generation =>
    { machine with
      tasks := machine.tasks.map fun task =>
        if task.scheduled.generation = generation then { task with cancelled := true } else task }
  | .start scheduled after =>
    let phase : Phase ρ := match after with
      | some predecessor => .waiting predecessor
      | none => .sleeping (machine.time + scheduled.spec.periodMs)
    let task : Task ρ := { scheduled, phase }
    { machine with
      tasks := machine.tasks ++ [task]
      log := machine.log ++ [task.entry machine.time (.built scheduled.spec.periodMs)] }

/-- Takes in a new registry and carries out its orders. -/
def update (machine : Machine σ ρ) (registry : Registry) (orders : List Order) : Machine σ ρ :=
  orders.foldl obey { machine with registry }

def observe (machine : Machine σ ρ) (ns cluster : String)
    (specs : List (SetKey × AutoscalerSpec)) : Machine σ ρ :=
  let (registry, orders) := machine.registry.observe (hasFinished machine.tasks) ns cluster specs
  machine.update registry orders

@[simp]
theorem obey_time (machine : Machine σ ρ) (order : Order) :
    (machine.obey order).time = machine.time := by
  cases order <;> rfl

@[simp]
theorem update_time (machine : Machine σ ρ) (registry : Registry) (orders : List Order) :
    (machine.update registry orders).time = machine.time := by
  have fold (orders : List Order) (start : Machine σ ρ) :
      (orders.foldl obey start).time = start.time := by
    induction orders generalizing start with
    | nil => rfl
    | cons order rest ih => rw [List.foldl_cons, ih, obey_time]
  exact fold _ _

@[simp]
theorem observe_time (machine : Machine σ ρ) (ns cluster : String)
    (specs : List (SetKey × AutoscalerSpec)) :
    (machine.observe ns cluster specs).time = machine.time := by
  simp [observe]

def forget (machine : Machine σ ρ) (ns cluster : String) : Machine σ ρ :=
  machine.observe ns cluster []

/-- Brings tasks up to an instant, one after the other; `done` are those already brought there. A
predecessor comes before its successor, which therefore sees it finish at the same instant. -/
def pollAll (work : Workload σ ρ) (time : Nat) (done : List (Task ρ)) :
    List (Task ρ) → σ → List (Task ρ) × List Entry × σ
  | [], state => (done, [], state)
  | task :: rest, state =>
    let (task, first, state) := task.poll work time (hasFinished done) state
    let (tasks, later, state) := pollAll work time (done ++ [task]) rest state
    (tasks, first ++ later, state)

def poll (work : Workload σ ρ) (machine : Machine σ ρ) : Machine σ ρ :=
  let (tasks, entries, state) := pollAll work machine.time [] machine.tasks machine.state
  { machine with tasks, state, log := machine.log ++ entries }

/-- The next instant after the present one at which a task can go on by itself. -/
def next? (work : Workload σ ρ) (machine : Machine σ ρ) : Option Nat :=
  -- a task that could go on at once does so a millisecond later
  ((machine.tasks.filterMap (Task.due? work)).min?).map fun due => max due (machine.time + 1)

def jump (machine : Machine σ ρ) (time : Nat) : Machine σ ρ := { machine with time }

theorem poll_time (work : Workload σ ρ) (machine : Machine σ ρ) :
    (machine.poll work).time = machine.time := rfl

theorem time_lt_of_next? {work : Workload σ ρ} {machine : Machine σ ρ} {due : Nat}
    (h : machine.next? work = some due) : machine.time < due := by
  obtain ⟨_, _, rfl⟩ := Option.map_eq_some_iff.mp h
  omega

/-- Lets time pass up to an instant, which itself is left to the next step. -/
def advanceTo (work : Workload σ ρ) (limit : Nat) (machine : Machine σ ρ) : Machine σ ρ :=
  let polled := machine.poll work
  match _later : polled.next? work with
  | none => polled.jump (max machine.time limit)
  | some due =>
    if due < limit then advanceTo work limit (polled.jump due)
    else polled.jump (max machine.time limit)
termination_by limit - machine.time
decreasing_by
  have later := time_lt_of_next? _later
  rw [poll_time] at later
  simp only [jump]
  omega

theorem advanceTo_time (work : Workload σ ρ) (limit : Nat) (machine : Machine σ ρ) :
    (machine.advanceTo work limit).time = max machine.time limit := by
  fun_induction advanceTo work limit machine with
  | case1 => rfl
  | case2 machine polled due later before ih =>
    have := time_lt_of_next? later
    rw [ih]
    simp only [jump]
    change machine.time < due at this
    omega
  | case3 => rfl

def advance (work : Workload σ ρ) (ms : Nat) (machine : Machine σ ρ) : Machine σ ρ :=
  if ms = 0 then machine else machine.advanceTo work (machine.time + ms)

/-- A wait that has returned, or that was given up before. -/
structure Wait (σ ρ : Type) where
  machine : Machine σ ρ
  returned : Bool

/-- Lets time pass until the tasks of given generations have finished. The wait is given up after so
many instants, or when nothing would happen any more. -/
def awaitAll (work : Workload σ ρ) (generations : List Nat) : Nat → Machine σ ρ → Wait σ ρ
  | 0, machine => ⟨machine, false⟩
  | instants + 1, machine =>
    let polled := machine.poll work
    if generations.all (hasFinished polled.tasks) then ⟨polled, true⟩
    else match polled.next? work with
      | none => ⟨polled, false⟩
      | some due => awaitAll work generations instants (polled.jump due)

/-- Cancels every task for good and waits until all of them have finished; `instants` bounds the
wait. -/
def stop (work : Workload σ ρ) (instants : Nat) (machine : Machine σ ρ) : Wait σ ρ :=
  let (registry, orders, awaited) := machine.registry.close
  (machine.update registry orders).awaitAll work awaited instants

def shutdown (work : Workload σ ρ) (instants : Nat) (machine : Machine σ ρ) : Machine σ ρ :=
  (machine.stop work instants).machine

end Machine
end SetScaler.Schedule
