import SetScaler.Schedule.Machine

/-!
# What becomes of one task

A step of a task is one of a few (`Becomes`), whatever its runs do: it is freed from its wait, a run
of it begins, goes on or returns, or it leaves. None of them brings a task back from its end, or past
a predecessor that has not finished (`Becomes.follows`).
-/

namespace SetScaler.Schedule.Task

variable {σ ρ : Type}

abbrev key (task : Task ρ) : SetKey := task.scheduled.key

abbrev generation (task : Task ρ) : Nat := task.scheduled.generation

/-- The task that a task waits for. -/
def predecessor? (task : Task ρ) : Option Nat :=
  match task.phase with
  | .waiting predecessor => some predecessor
  | _ => none

/-- Whether a run of a task is in progress. -/
def isRunning (task : Task ρ) : Bool :=
  match task.phase with
  | .running _ => true
  | _ => false

/-- Whether a task may begin a run, or is in the middle of one. -/
def isActive (task : Task ρ) : Bool :=
  match task.phase with
  | .sleeping _ | .running _ => true
  | .waiting _ | .finished => false

/-- A new task, which waits for its predecessor or sleeps until it is due. -/
def fresh (scheduled : Scheduled) (predecessor : Option Nat) (due : Nat) : Task ρ where
  scheduled
  phase := match predecessor with
    | some generation => .waiting generation
    | none => .sleeping due

theorem fresh_predecessor (scheduled : Scheduled) (predecessor : Option Nat) (due : Nat) :
    (fresh scheduled predecessor due : Task ρ).predecessor? = predecessor := by
  cases predecessor <;> rfl

theorem fresh_isRunning (scheduled : Scheduled) (predecessor : Option Nat) (due : Nat) :
    (fresh scheduled predecessor due : Task ρ).isRunning = false := by
  cases predecessor <;> rfl

/-- What can become of a task at an instant, and what is noted of it. -/
inductive Becomes (time : Nat) (finished : Nat → Bool) (task : Task ρ) :
    Task ρ → List Entry → Prop where
  | unchanged : Becomes time finished task task []
  | freed {predecessor : Nat} : task.phase = .waiting predecessor → finished predecessor = true →
      Becomes time finished task (task.rest time) []
  | resumed {run later : ρ} : task.phase = .running run →
      Becomes time finished task { task with phase := .running later } []
  | returned {run : ρ} {outcome : RunEnd} : task.phase = .running run →
      Becomes time finished task (task.rest time) [task.entry time (.ended outcome)]
  | left {due : Nat} : task.phase = .sleeping due →
      Becomes time finished task { task with phase := .finished } []
  | began {due : Nat} {run : ρ} : task.phase = .sleeping due → task.cancelled = false →
      Becomes time finished task { task with runs := task.runs + 1, phase := .running run }
        [task.entry time .started]
  | passed {due next : Nat} {outcome : RunEnd} : task.phase = .sleeping due → task.cancelled = false →
      Becomes time finished task { task with runs := task.runs + 1, phase := .sleeping next }
        [task.entry time .started, task.entry time (.ended outcome)]

theorem settle_becomes (work : Workload σ ρ) (time : Nat) (finished : Nat → Bool) (task : Task ρ)
    (state : σ) :
    task.Becomes time finished (task.settle work time finished state).1
      (task.settle work time finished state).2.1 := by
  unfold settle
  cases phase : task.phase with
  | waiting predecessor =>
      by_cases free : finished predecessor = true
      · simpa [free] using Becomes.freed phase free
      · simpa [free] using Becomes.unchanged
  | sleeping due => exact .unchanged
  | running run =>
      dsimp only
      cases (work.resume time task.cancelled run state).1 with
      | ended outcome => exact .returned phase
      | going later => exact .resumed phase
  | finished => exact .unchanged

theorem rest_of_wanted (task : Task ρ) (wanted : task.cancelled = false) (time : Nat) :
    task.rest time = { task with phase := .sleeping (time + task.scheduled.spec.periodMs) } := by
  simp [rest, wanted]

theorem wake_becomes (work : Workload σ ρ) (time : Nat) (finished : Nat → Bool) (task : Task ρ)
    (state : σ) :
    task.Becomes time finished (task.wake work time state).1 (task.wake work time state).2.1 := by
  unfold wake
  split
  · rename_i due phase
    by_cases cancelled : task.cancelled = true
    · rw [if_pos cancelled]
      exact .left phase
    · have wanted : task.cancelled = false := by simpa using cancelled
      rw [if_neg cancelled]
      by_cases late : due ≤ time
      · rw [if_pos late]
        rcases work.start task.scheduled task.runs time state with ⟨outcome | run, later⟩
        · have rested := rest_of_wanted { task with runs := task.runs + 1 } wanted time
          simp only [afterStep, rested]
          exact .passed phase wanted
        · exact .began phase wanted
      · rw [if_neg late]
        exact .unchanged
  · exact .unchanged

/-- What no step and no order takes back. -/
structure Follows (known : Nat → Bool) (task after : Task ρ) : Prop where
  scheduled : after.scheduled = task.scheduled
  runs : task.runs ≤ after.runs
  finished : task.isFinished = true → after.isFinished = true
  waiting : ∀ predecessor, after.predecessor? = some predecessor →
    task.predecessor? = some predecessor ∧ after.runs = task.runs
  freed : ∀ predecessor, task.predecessor? = some predecessor → after.predecessor? = none →
    known predecessor = true

theorem Follows.key {known : Nat → Bool} {task after : Task ρ} (follows : task.Follows known after) :
    after.key = task.key := by
  rw [Task.key, follows.scheduled]

theorem Follows.generation {known : Nat → Bool} {task after : Task ρ}
    (follows : task.Follows known after) : after.generation = task.generation := by
  rw [Task.generation, follows.scheduled]

theorem Follows.refl (known : Nat → Bool) (task : Task ρ) : task.Follows known task where
  scheduled := rfl
  runs := Nat.le_refl _
  finished := id
  waiting _ waits := ⟨waits, rfl⟩
  freed _ waits free := by
    rw [waits] at free
    cases free

theorem Follows.mono {known heard : Nat → Bool} {task after : Task ρ}
    (follows : task.Follows heard after)
    (true_news : ∀ generation, heard generation = true → known generation = true) :
    task.Follows known after where
  scheduled := follows.scheduled
  runs := follows.runs
  finished := follows.finished
  waiting := follows.waiting
  freed predecessor waits free := true_news predecessor (follows.freed predecessor waits free)

/-- A task that waits for nobody and has not finished may become anything that waits for nobody. -/
theorem Follows.of_active {known : Nat → Bool} {task after : Task ρ} (active : task.isActive = true)
    (scheduled : after.scheduled = task.scheduled) (runs : task.runs ≤ after.runs)
    (free : after.predecessor? = none) : task.Follows known after where
  scheduled := scheduled
  runs := runs
  finished ended := by
    cases phase : task.phase <;> simp_all [isActive, isFinished]
  waiting _ waits := by
    rw [free] at waits
    cases waits
  freed _ waits := by
    cases phase : task.phase <;> simp_all [isActive, predecessor?]

theorem rest_scheduled (task : Task ρ) (time : Nat) : (task.rest time).scheduled = task.scheduled := by
  unfold rest
  split <;> rfl

theorem rest_runs (task : Task ρ) (time : Nat) : (task.rest time).runs = task.runs := by
  unfold rest
  split <;> rfl

theorem rest_predecessor (task : Task ρ) (time : Nat) : (task.rest time).predecessor? = none := by
  unfold rest
  split <;> rfl

theorem rest_cancelled (task : Task ρ) (time : Nat) : (task.rest time).cancelled = task.cancelled := by
  unfold rest
  split <;> rfl

theorem rest_isRunning (task : Task ρ) (time : Nat) : (task.rest time).isRunning = false := by
  unfold rest
  split <;> rfl

theorem Becomes.follows {time : Nat} {finished : Nat → Bool} {task after : Task ρ}
    {entries : List Entry} (becomes : task.Becomes time finished after entries) :
    task.Follows finished after := by
  cases becomes with
  | unchanged => exact .refl finished task
  | @freed predecessor phase free =>
      have waits : task.predecessor? = some predecessor := by simp [predecessor?, phase]
      have unfinished : task.isFinished = false := by simp [isFinished, phase]
      refine ⟨task.rest_scheduled time, Nat.le_of_eq (task.rest_runs time).symm, ?_, ?_, ?_⟩
      · intro ended
        rw [unfinished] at ended
        cases ended
      · intro other waiting
        rw [rest_predecessor] at waiting
        cases waiting
      · intro other waiting _
        rw [waits] at waiting
        exact Option.some.inj waiting ▸ free
  | resumed phase => exact .of_active (by simp [isActive, phase]) rfl (Nat.le_refl _) rfl
  | returned phase =>
      exact .of_active (by simp [isActive, phase]) (task.rest_scheduled time)
        (Nat.le_of_eq (task.rest_runs time).symm) (task.rest_predecessor time)
  | left phase => exact .of_active (by simp [isActive, phase]) rfl (Nat.le_refl _) rfl
  | began phase => exact .of_active (by simp [isActive, phase]) rfl (Nat.le_succ _) rfl
  | passed phase => exact .of_active (by simp [isActive, phase]) rfl (Nat.le_succ _) rfl

/-- What becomes of a task when the task of a generation is cancelled. -/
def cancelFor (generation : Nat) (task : Task ρ) : Task ρ :=
  if task.scheduled.generation = generation then { task with cancelled := true } else task

section Cancel

variable (generation : Nat) (task : Task ρ)

@[simp]
theorem cancelFor_scheduled : (task.cancelFor generation).scheduled = task.scheduled := by
  unfold cancelFor
  split <;> rfl

@[simp]
theorem cancelFor_runs : (task.cancelFor generation).runs = task.runs := by
  unfold cancelFor
  split <;> rfl

@[simp]
theorem cancelFor_phase : (task.cancelFor generation).phase = task.phase := by
  unfold cancelFor
  split <;> rfl

theorem map_cancelFor_scheduled (tasks : List (Task ρ)) :
    (tasks.map (cancelFor generation)).map scheduled = tasks.map scheduled := by
  rw [List.map_map]
  exact List.map_congr_left fun task _ => task.cancelFor_scheduled generation

theorem cancelFor_cancelled :
    (task.cancelFor generation).cancelled = (task.cancelled || task.generation == generation) := by
  unfold cancelFor
  split
  · simp [*]
  · simp [*]

/-- A cancellation changes nothing about what a task is doing. -/
theorem cancelFor_follows (known : Nat → Bool) : task.Follows known (task.cancelFor generation) := by
  have ends : (task.cancelFor generation).isFinished = task.isFinished := by simp [isFinished]
  have waits : (task.cancelFor generation).predecessor? = task.predecessor? := by simp [predecessor?]
  refine ⟨task.cancelFor_scheduled generation, Nat.le_of_eq (task.cancelFor_runs generation).symm,
    ends.trans, fun predecessor waiting => ⟨waits.symm.trans waiting, task.cancelFor_runs generation⟩, ?_⟩
  intro predecessor waiting free
  rw [waits, waiting] at free
  cases free

end Cancel

section Becomes

variable {time : Nat} {finished : Nat → Bool} {task after : Task ρ} {entries : List Entry}

theorem Becomes.cancelled_eq (becomes : task.Becomes time finished after entries) :
    after.cancelled = task.cancelled := by
  cases becomes with
  | freed | returned => exact task.rest_cancelled time
  | unchanged | resumed | left | began | passed => rfl

/-- A cancelled task begins no run. -/
theorem Becomes.of_cancelled (becomes : task.Becomes time finished after entries)
    (cancelled : task.cancelled = true) :
    after.runs = task.runs ∧ ∀ entry ∈ entries, ∃ outcome, entry.note = .ended outcome := by
  cases becomes with
  | unchanged | resumed | left => exact ⟨rfl, by simp⟩
  | freed => exact ⟨task.rest_runs time, by simp⟩
  | returned => exact ⟨task.rest_runs time, by simp [Task.entry]⟩
  | began _ wanted | passed _ wanted =>
      rw [cancelled] at wanted
      cases wanted

theorem Becomes.of_finished (becomes : task.Becomes time finished after entries)
    (ended : task.isFinished = true) : after = task ∧ entries = [] := by
  cases becomes with
  | unchanged => exact ⟨rfl, rfl⟩
  | freed phase | resumed phase | returned phase | left phase | began phase | passed phase =>
      simp [isFinished, phase] at ended

end Becomes

end SetScaler.Schedule.Task
