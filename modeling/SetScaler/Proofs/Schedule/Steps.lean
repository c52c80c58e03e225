import SetScaler.Schedule.Machine

/-!
# The tasks, step by step

Tasks go on side by side, so that a step is that of a single task, and steps come in any order
(`Step`). Whatever is asked of the machine comes down to such steps (`reaches_calls`).
-/

namespace SetScaler.Schedule

/-- What can happen next. -/
inductive Step where
  | observe (ns cluster : String) (specs : List (SetKey × AutoscalerSpec))
  | close
  | elapse (ms : Nat)
  /-- A task goes on with its wait for its predecessor or with its run. Of the tasks that have
  finished it has heard of those that are `known`. -/
  | settle (index : Nat) (known : Nat → Bool)
  /-- A task goes on with its sleep. -/
  | wake (index : Nat)

/-- Whether a step is one of time or of a task. -/
def Step.isWork : Step → Bool
  | observe .. | close => false
  | elapse _ | settle .. | wake _ => true

/-- Whether a step is one of a task. -/
def Step.isTask : Step → Bool
  | settle .. | wake _ => true
  | observe .. | close | elapse _ => false

theorem Step.isWork_of_isTask {step : Step} (own : step.isTask = true) : step.isWork = true := by
  cases step with
  | settle | wake => rfl
  | observe | close | elapse => cases own

/-- What is asked of the machine. -/
inductive Call where
  | observe (ns cluster : String) (specs : List (SetKey × AutoscalerSpec))
  | forget (ns cluster : String)
  | advance (ms : Nat)
  | shutdown (instants : Nat)

def bookies (cluster : String) : SetKey := ⟨"ns", cluster, .bookkeeper, defaultSet⟩

/-- Runs that end at once. -/
def Workload.prompt : Workload Unit Unit where
  start _ _ _ state := (.ended .ok, state)
  resume _ _ _ state := (.ended .ok, state)
  due? _ := none

namespace Machine

variable {σ ρ : Type} (work : Workload σ ρ)

/-- Takes in what has become of one task. -/
def put (machine : Machine σ ρ) (index : Nat) (after : Task ρ × List Entry × σ) : Machine σ ρ :=
  { machine with
    tasks := machine.tasks.set index after.1
    log := machine.log ++ after.2.1
    state := after.2.2 }

def step (machine : Machine σ ρ) : Step → Machine σ ρ
  | .observe ns cluster specs => machine.observe ns cluster specs
  | .close => machine.update machine.registry.close.1 machine.registry.close.2.1
  | .elapse ms => machine.jump (machine.time + ms)
  | .settle index known =>
    match machine.tasks[index]? with
    | none => machine
    | some task =>
      machine.put index (task.settle work machine.time
        (fun generation => known generation && hasFinished machine.tasks generation) machine.state)
  | .wake index =>
    match machine.tasks[index]? with
    | none => machine
    | some task => machine.put index (task.wake work machine.time machine.state)

def call (machine : Machine σ ρ) : Call → Machine σ ρ
  | .observe ns cluster specs => machine.observe ns cluster specs
  | .forget ns cluster => machine.forget ns cluster
  | .advance ms => machine.advance work ms
  | .shutdown instants => machine.shutdown work instants

/-- Some steps lead from one machine to another. -/
def Reaches (machine after : Machine σ ρ) : Prop :=
  ∃ steps : List Step, steps.foldl (step work) machine = after

/-- Steps of time and of tasks lead from one machine to another. -/
def Works (machine after : Machine σ ρ) : Prop :=
  ∃ steps : List Step, (∀ step ∈ steps, step.isWork = true) ∧ steps.foldl (step work) machine = after

namespace Reaches

variable {work}

theorem refl (machine : Machine σ ρ) : machine.Reaches work machine := ⟨[], rfl⟩

theorem trans {first second third : Machine σ ρ} (early : first.Reaches work second)
    (late : second.Reaches work third) : first.Reaches work third := by
  obtain ⟨steps, rfl⟩ := early
  obtain ⟨others, rfl⟩ := late
  exact ⟨steps ++ others, List.foldl_append⟩

theorem single (machine : Machine σ ρ) (next : Step) : machine.Reaches work (machine.step work next) :=
  ⟨[next], rfl⟩

end Reaches

namespace Works

variable {work}

theorem refl (machine : Machine σ ρ) : machine.Works work machine := ⟨[], by simp, rfl⟩

theorem trans {first second third : Machine σ ρ} (early : first.Works work second)
    (late : second.Works work third) : first.Works work third := by
  obtain ⟨steps, works, rfl⟩ := early
  obtain ⟨others, also, rfl⟩ := late
  exact ⟨steps ++ others, List.forall_mem_append.mpr ⟨works, also⟩, List.foldl_append⟩

theorem jump (machine : Machine σ ρ) {time : Nat} (later : machine.time ≤ time) :
    machine.Works work (machine.jump time) := by
  have elapsed : machine.time + (time - machine.time) = time := by omega
  exact ⟨[.elapse (time - machine.time)], by simp [Step.isWork], by simp [step, elapsed]⟩

theorem reaches {machine after : Machine σ ρ} (works : machine.Works work after) :
    machine.Reaches work after := by
  obtain ⟨steps, -, same⟩ := works
  exact ⟨steps, same⟩

end Works

theorem hasFinished_append (first second : List (Task ρ)) (generation : Nat) :
    hasFinished (first ++ second) generation =
      (hasFinished first generation || hasFinished second generation) :=
  List.any_append

/-- Bringing a task up to the present takes two steps of it. -/
theorem poll_task_steps (machine : Machine σ ρ) {done rest : List (Task ρ)} {task : Task ρ}
    (present : machine.tasks = done ++ task :: rest) :
    ∃ steps : List Step, (∀ step ∈ steps, step.isTask = true) ∧ steps.foldl (step work) machine =
      machine.put done.length (task.poll work machine.time (hasFinished done) machine.state) := by
  have heard : (fun generation => hasFinished done generation && hasFinished machine.tasks generation) =
      hasFinished done := by
    funext generation
    rw [present, hasFinished_append]
    cases hasFinished done generation <;> rfl
  refine ⟨[.settle done.length (hasFinished done), .wake done.length], by simp [Step.isTask], ?_⟩
  simp only [List.foldl_cons, List.foldl_nil, step, heard]
  simp [present, put, Task.poll]

theorem pollAll_steps (done rest : List (Task ρ)) (machine : Machine σ ρ)
    (present : machine.tasks = done ++ rest) :
    ∃ steps : List Step, (∀ step ∈ steps, step.isTask = true) ∧ steps.foldl (step work) machine =
      { machine with
        tasks := (pollAll work machine.time done rest machine.state).1
        log := machine.log ++ (pollAll work machine.time done rest machine.state).2.1
        state := (pollAll work machine.time done rest machine.state).2.2 } := by
  induction rest generalizing done machine with
  | nil =>
      have kept : done = machine.tasks := by simp [present]
      exact ⟨[], by simp, by simp [pollAll, kept]⟩
  | cons task rest ih =>
      obtain ⟨steps, own, polled⟩ := poll_task_steps work machine present
      rcases became : task.poll work machine.time (hasFinished done) machine.state with
        ⟨after, entries, state⟩
      rw [became] at polled
      obtain ⟨others, also, reached⟩ := ih (done ++ [after])
        (machine.put done.length (after, entries, state)) (by simp [put, present])
      refine ⟨steps ++ others, List.forall_mem_append.mpr ⟨own, also⟩, ?_⟩
      rw [List.foldl_append, polled, reached]
      simp [pollAll, became, put]

/-- Bringing all tasks up to the present takes steps of theirs only. -/
theorem poll_steps (machine : Machine σ ρ) : ∃ steps : List Step,
    (∀ step ∈ steps, step.isTask = true) ∧ steps.foldl (step work) machine = machine.poll work :=
  pollAll_steps work [] machine.tasks machine rfl

theorem works_poll (machine : Machine σ ρ) : machine.Works work (machine.poll work) := by
  obtain ⟨steps, own, polled⟩ := poll_steps work machine
  exact ⟨steps, fun step mem => Step.isWork_of_isTask (own step mem), polled⟩

theorem works_advanceTo (limit : Nat) (machine : Machine σ ρ) :
    machine.Works work (machine.advanceTo work limit) := by
  fun_induction advanceTo work limit machine with
  | case1 machine polled =>
      exact (works_poll work machine).trans (.jump polled (Nat.le_max_left _ _))
  | case2 machine polled due later before ih =>
      have jumped : polled.Works work (polled.jump due) :=
        .jump polled (Nat.le_of_lt (time_lt_of_next? later))
      exact ((works_poll work machine).trans jumped).trans ih
  | case3 machine polled =>
      exact (works_poll work machine).trans (.jump polled (Nat.le_max_left _ _))

theorem advanceTo_registry (limit : Nat) (machine : Machine σ ρ) :
    (machine.advanceTo work limit).registry = machine.registry := by
  fun_induction advanceTo work limit machine with
  | case1 | case3 => rfl
  | case2 machine polled due later before ih => exact ih

theorem works_awaitAll (generations : List Nat) (instants : Nat) (machine : Machine σ ρ) :
    machine.Works work (machine.awaitAll work generations instants).machine := by
  induction instants generalizing machine with
  | zero => exact .refl machine
  | succ instants ih =>
      have polled := works_poll work machine
      unfold awaitAll
      dsimp only
      split
      · exact polled
      · split
        · exact polled
        · rename_i due later
          have jumped : (machine.poll work).Works work ((machine.poll work).jump due) :=
            .jump _ (Nat.le_of_lt (time_lt_of_next? later))
          exact (polled.trans jumped).trans (ih _)

/-- A shutdown closes the registry and then lets tasks go on. -/
theorem reaches_shutdown (instants : Nat) (machine : Machine σ ρ) :
    (machine.step work .close).Reaches work (machine.shutdown work instants) :=
  (works_awaitAll work _ instants _).reaches

theorem reaches_call (machine : Machine σ ρ) (call : Call) :
    machine.Reaches work (machine.call work call) := by
  cases call with
  | observe ns cluster specs => exact .single machine (.observe ns cluster specs)
  | forget ns cluster => exact .single machine (.observe ns cluster [])
  | advance ms =>
      by_cases none : ms = 0
      · have kept : machine.call work (.advance ms) = machine := if_pos none
        rw [kept]
        exact .refl machine
      · have moved : machine.call work (.advance ms) = machine.advanceTo work (machine.time + ms) :=
          if_neg none
        rw [moved]
        exact (works_advanceTo work _ machine).reaches
  | shutdown instants =>
      exact Reaches.trans (.single machine .close) (reaches_shutdown work instants machine)

theorem reaches_calls (calls : List Call) (machine : Machine σ ρ) :
    machine.Reaches work (calls.foldl (call work) machine) := by
  induction calls generalizing machine with
  | nil => exact .refl machine
  | cons first rest ih => exact (reaches_call work machine first).trans (ih _)

end Machine
end SetScaler.Schedule
