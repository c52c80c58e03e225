import SetScaler.Proofs.Schedule.Live

/-!
# What a step makes of each task

A step takes at most one task further and notes what that does, with the guards that let it do so
(`Task.Goes`). An order of the registry notes nothing of the tasks there are, and new ones begin with a note
that they were built (`Machine.step_came`).
-/

namespace SetScaler.Schedule

variable {σ ρ : Type} {work : Workload σ ρ}

/-- What is noted of a task that is built. -/
def Scheduled.builtAt (scheduled : Scheduled) (time : Nat) : Entry :=
  ⟨time, scheduled.key, scheduled.generation, .built scheduled.spec.periodMs⟩

/-- What is noted of the task of a generation. -/
def Machine.history (machine : Machine σ ρ) (generation : Nat) : List Entry :=
  machine.log.filter fun entry => entry.generation == generation

namespace Task

/-- A task that does the same as before, and may have been cancelled meanwhile. -/
structure Keeps (task after : Task ρ) : Prop where
  scheduled : after.scheduled = task.scheduled
  phase : after.phase = task.phase
  cancelled : task.cancelled = true → after.cancelled = true

theorem Keeps.refl (task : Task ρ) : task.Keeps task := ⟨rfl, rfl, id⟩

theorem Keeps.trans {task middle after : Task ρ} (early : task.Keeps middle) (late : middle.Keeps after) :
    task.Keeps after where
  scheduled := late.scheduled.trans early.scheduled
  phase := late.phase.trans early.phase
  cancelled cancelled := late.cancelled (early.cancelled cancelled)

theorem cancelFor_keeps (generation : Nat) (task : Task ρ) : task.Keeps (task.cancelFor generation) where
  scheduled := task.cancelFor_scheduled generation
  phase := task.cancelFor_phase generation
  cancelled cancelled := by rw [cancelFor_cancelled, cancelled, Bool.true_or]

/-- What a task does in a step, and what is noted of it. It is woken only when it is due. -/
inductive Goes (work : Workload σ ρ) (time : Nat) (finished : Nat → Bool) (task : Task ρ) :
    Task ρ → List Entry → Prop where
  | kept {after : Task ρ} : task.Keeps after → Goes work time finished task after []
  | freed {predecessor : Nat} : task.phase = .waiting predecessor → finished predecessor = true →
      Goes work time finished task (task.rest time) []
  | resumed {run later : ρ} {state : σ} : task.phase = .running run →
      (work.resume time task.cancelled run state).1 = .going later →
      Goes work time finished task { task with phase := .running later } []
  | returned {run : ρ} {outcome : RunEnd} {state : σ} : task.phase = .running run →
      (work.resume time task.cancelled run state).1 = .ended outcome →
      Goes work time finished task (task.rest time) [task.entry time (.ended outcome)]
  | left {due : Nat} : task.phase = .sleeping due → task.cancelled = true →
      Goes work time finished task { task with phase := .finished } []
  | began {due : Nat} {run : ρ} {state : σ} : task.phase = .sleeping due → task.cancelled = false →
      due ≤ time → (work.start task.scheduled task.runs time state).1 = .going run →
      Goes work time finished task { task with runs := task.runs + 1, phase := .running run }
        [task.entry time .started]
  | passed {due : Nat} {outcome : RunEnd} : task.phase = .sleeping due → task.cancelled = false →
      due ≤ time →
      Goes work time finished task
        { task with runs := task.runs + 1, phase := .sleeping (time + task.scheduled.spec.periodMs) }
        [task.entry time .started, task.entry time (.ended outcome)]

theorem settle_goes (work : Workload σ ρ) (time : Nat) {finished heard : Nat → Bool}
    (true_news : ∀ generation, heard generation = true → finished generation = true) (task : Task ρ)
    (state : σ) : task.Goes work time finished (task.settle work time heard state).1
      (task.settle work time heard state).2.1 := by
  unfold settle
  cases phase : task.phase with
  | waiting predecessor =>
      by_cases news : heard predecessor = true
      · simpa [news] using Goes.freed phase (true_news predecessor news)
      · simpa [news] using Goes.kept (.refl task)
  | sleeping due => exact .kept (.refl task)
  | running run =>
      dsimp only
      cases step : (work.resume time task.cancelled run state).1 with
      | ended outcome => exact .returned phase step
      | going later => exact .resumed phase step
  | finished => exact .kept (.refl task)

theorem wake_goes (work : Workload σ ρ) (time : Nat) (finished : Nat → Bool) (task : Task ρ) (state : σ) :
    task.Goes work time finished (task.wake work time state).1 (task.wake work time state).2.1 := by
  unfold wake
  split
  · rename_i due phase
    by_cases cancelled : task.cancelled = true
    · rw [if_pos cancelled]
      exact .left phase cancelled
    · have wanted : task.cancelled = false := by simpa using cancelled
      rw [if_neg cancelled]
      by_cases late : due ≤ time
      · rw [if_pos late]
        rcases step : work.start task.scheduled task.runs time state with ⟨outcome | run, later⟩
        · have rested := rest_of_wanted { task with runs := task.runs + 1 } wanted time
          simp only [afterStep, rested]
          exact .passed phase wanted late
        · exact .began phase wanted late (congrArg Prod.fst step)
      · rw [if_neg late]
        exact .kept (.refl task)
  · exact .kept (.refl task)

theorem Goes.scheduled {time : Nat} {finished : Nat → Bool} {task after : Task ρ} {entries : List Entry}
    (goes : task.Goes work time finished after entries) : after.scheduled = task.scheduled := by
  cases goes with
  | kept keeps => exact keeps.scheduled
  | freed | returned => exact task.rest_scheduled time
  | resumed | left | began | passed => rfl

theorem Goes.cancelled {time : Nat} {finished : Nat → Bool} {task after : Task ρ} {entries : List Entry}
    (goes : task.Goes work time finished after entries) (cancelled : task.cancelled = true) :
    after.cancelled = true := by
  cases goes with
  | kept keeps => exact keeps.cancelled cancelled
  | freed | returned => rw [rest_cancelled, cancelled]
  | resumed | left | began | passed => exact cancelled

theorem Goes.own {time : Nat} {finished : Nat → Bool} {task after : Task ρ} {entries : List Entry}
    (goes : task.Goes work time finished after entries) :
    ∀ entry ∈ entries, entry.generation = task.generation := by
  cases goes with
  | kept | freed | resumed | left => simp
  | returned | began => simp [Task.entry]
  | passed => simp [Task.entry]

end Task

namespace Machine

/-- Where a task of a machine comes from: it was there before, and has gone on, or it is new. -/
inductive Came (work : Workload σ ρ) (machine after : Machine σ ρ) (later : Task ρ) : Prop where
  | went {task : Task ρ} {entries : List Entry} : task ∈ machine.tasks →
      task.Goes work machine.time (hasFinished machine.tasks) later entries →
      after.history later.generation = machine.history later.generation ++ entries →
      Came work machine after later
  | new {predecessor : Option Nat} : (∀ task ∈ machine.tasks, task.generation < later.generation) →
      later.phase = (Task.fresh (ρ := ρ) later.scheduled predecessor
        (machine.time + later.scheduled.spec.periodMs)).phase →
      after.history later.generation = [later.scheduled.builtAt machine.time] →
      Came work machine after later

section Put

variable {machine : Machine σ ρ} {index : Nat} {task after : Task ρ} {entries : List Entry}

theorem put_history (after : Task ρ) (entries : List Entry) (state : σ) (generation : Nat) :
    (machine.put index (after, entries, state)).history generation =
      machine.history generation ++ entries.filter fun entry => entry.generation == generation :=
  List.filter_append _ _

theorem put_came (ordered : Ordered machine.tasks) (present : machine.tasks[index]? = some task)
    (goes : task.Goes work machine.time (hasFinished machine.tasks) after entries) (state : σ) :
    ∀ later ∈ (machine.put index (after, entries, state)).tasks,
      Came work machine (machine.put index (after, entries, state)) later := by
  obtain ⟨inside, found⟩ := List.getElem?_eq_some_iff.mp present
  obtain ⟨front, back, before, -, now⟩ : ∃ front back,
      machine.tasks = front ++ machine.tasks[index] :: back ∧
        front.length = index ∧ machine.tasks.set index after = front ++ after :: back :=
    List.exists_of_set inside
  rw [found] at before
  intro later mem
  change later ∈ machine.tasks.set index after at mem
  rw [now, List.mem_append, List.mem_cons, or_left_comm] at mem
  rcases mem with rfl | mem
  · refine .went (List.mem_of_getElem? present) goes ?_
    rw [put_history, List.filter_eq_self.mpr fun entry listed => ?_]
    rw [goes.own entry listed, Task.generation, Task.generation, goes.scheduled, beq_self_eq_true]
  · have bystander := List.mem_append.mpr mem
    have apart := Ordered.apart (before ▸ ordered) bystander
    refine .went (before ▸ mem_middle bystander task) (.kept (.refl later)) ?_
    rw [put_history, List.filter_eq_nil_iff.mpr fun entry listed => ?_]
    rw [goes.own entry listed, beq_iff_eq]
    exact apart.symm

end Put

/-- A machine after some orders, which have brought new tasks. -/
structure Extends (machine after : Machine σ ρ) (fresh : List Scheduled) : Prop where
  time : after.time = machine.time
  scheduled : after.tasks.map Task.scheduled = machine.tasks.map Task.scheduled ++ fresh
  log : after.log = machine.log ++ fresh.map fun scheduled => scheduled.builtAt machine.time
  came : ∀ later ∈ after.tasks, (∃ task ∈ machine.tasks, task.Keeps later) ∨
    later.scheduled ∈ fresh ∧ ∃ predecessor, later.phase =
      (Task.fresh (ρ := ρ) later.scheduled predecessor
        (machine.time + later.scheduled.spec.periodMs)).phase

namespace Extends

variable {machine after : Machine σ ρ} {fresh : List Scheduled}

theorem obey (extend : Extends machine after fresh) (order : Order) :
    ∃ more, Extends machine (after.obey order) more := by
  cases order with
  | cancel generation =>
      refine ⟨fresh, extend.time, ?_, extend.log, List.forall_mem_map.mpr fun task mem => ?_⟩
      · exact (Task.map_cancelFor_scheduled generation after.tasks).trans extend.scheduled
      · have keeps := task.cancelFor_keeps generation
        rcases extend.came task mem with ⟨old, present, kept⟩ | ⟨listed, predecessor, phase⟩
        · exact .inl ⟨old, present, kept.trans keeps⟩
        · refine .inr ⟨keeps.scheduled.symm ▸ listed, predecessor, keeps.phase.trans (phase.trans ?_)⟩
          exact (congrArg (fun scheduled : Scheduled => (Task.fresh (ρ := ρ) scheduled predecessor
            (machine.time + scheduled.spec.periodMs)).phase) keeps.scheduled).symm
  | start scheduled predecessor =>
      refine ⟨fresh ++ [scheduled], extend.time, ?_, ?_, fun later mem => ?_⟩
      · simp [Machine.obey, extend.scheduled]
      · simp [Machine.obey, extend.log, extend.time, Scheduled.builtAt, Task.entry]
      · rcases List.mem_append.mp mem with mem | mem
        · exact (extend.came later mem).imp id fun new => ⟨List.mem_append_left _ new.1, new.2⟩
        · obtain rfl := List.mem_singleton.mp mem
          refine .inr ⟨List.mem_append_right _ (List.mem_singleton_self _), predecessor, ?_⟩
          rw [← extend.time]
          rfl

theorem update (machine : Machine σ ρ) (registry : Registry) (orders : List Order) :
    ∃ fresh, Extends machine (machine.update registry orders) fresh := by
  have fold (after : Machine σ ρ) (fresh : List Scheduled) (extend : Extends machine after fresh) :
      ∃ more, Extends machine (orders.foldl Machine.obey after) more := by
    induction orders generalizing after fresh with
    | nil => exact ⟨fresh, extend⟩
    | cons order rest ih =>
        obtain ⟨more, obeyed⟩ := extend.obey order
        exact ih _ more obeyed
  refine fold { machine with registry } [] ⟨rfl, (List.append_nil _).symm, (List.append_nil _).symm, ?_⟩
  exact fun task mem => .inl ⟨task, mem, .refl task⟩

theorem came_of (governed : Governed machine.registry machine) (ordered : Ordered after.tasks)
    (extend : Extends machine after fresh) : ∀ later ∈ after.tasks, Came work machine after later := by
  have ascending : (after.tasks.map Task.scheduled).Pairwise fun first second =>
      first.generation < second.generation := List.pairwise_map.mpr ordered.ascending
  rw [extend.scheduled] at ascending
  obtain ⟨-, apart, newer⟩ := List.pairwise_append.mp ascending
  have history (generation : Nat) : after.history generation = machine.history generation ++
      (fresh.filter fun scheduled => scheduled.generation == generation).map fun scheduled =>
        scheduled.builtAt machine.time := by
    rw [Machine.history, extend.log, List.filter_append, List.filter_map]
    rfl
  intro later mem
  rcases extend.came later mem with ⟨task, present, keeps⟩ | ⟨listed, predecessor, phase⟩
  · refine .went present (.kept keeps) ?_
    rw [history, List.filter_eq_nil_iff.mpr fun scheduled new => ?_]
    · rfl
    · have lower := newer task.scheduled (List.mem_map_of_mem present) scheduled new
      rw [beq_iff_eq, Task.generation, keeps.scheduled]
      exact Nat.ne_of_gt lower
  · have above : ∀ task ∈ machine.tasks, task.generation < later.generation := fun task present =>
      newer task.scheduled (List.mem_map_of_mem present) later.scheduled listed
    refine .new above phase ?_
    have unnoted : machine.history later.generation = [] := by
      refine List.filter_eq_nil_iff.mpr fun entry noted => ?_
      obtain ⟨task, present, -, own, -⟩ := governed.noted.known entry noted
      rw [beq_iff_eq, ← own]
      exact Nat.ne_of_lt (above task present)
    obtain ⟨front, back, rfl⟩ := List.append_of_mem listed
    obtain ⟨-, higher, lower⟩ := List.pairwise_append.mp apart
    have earlier : (front.filter fun scheduled => scheduled.generation == later.generation) = [] :=
      List.filter_eq_nil_iff.mpr fun scheduled early => by
        rw [beq_iff_eq]
        exact Nat.ne_of_lt (lower scheduled early later.scheduled List.mem_cons_self)
    have others : (back.filter fun scheduled => scheduled.generation == later.generation) = [] :=
      List.filter_eq_nil_iff.mpr fun scheduled late => by
        rw [beq_iff_eq]
        exact Nat.ne_of_gt (List.rel_of_pairwise_cons higher late)
    rw [history, unnoted, List.filter_append, List.filter_cons, if_pos (beq_self_eq_true later.generation),
      earlier, others]
    rfl

end Extends

theorem step_came (work : Workload σ ρ) {machine : Machine σ ρ} (governed : Governed machine.registry machine)
    (next : Step) (instant : ∀ ms, next ≠ .elapse ms) :
    ∀ later ∈ (machine.step work next).tasks, Came work machine (machine.step work next) later := by
  have unmoved : ∀ later ∈ machine.tasks, Came work machine machine later := fun later mem =>
    .went mem (.kept (.refl later)) (List.append_nil _).symm
  have ordered := (Governed.upheld.step work governed next).ordered
  cases next with
  | observe ns cluster specs =>
      obtain ⟨fresh, extend⟩ := Extends.update machine _ _
      exact extend.came_of governed ordered
  | close =>
      obtain ⟨fresh, extend⟩ := Extends.update machine _ _
      exact extend.came_of governed ordered
  | elapse ms => exact absurd rfl (instant ms)
  | settle index known =>
      simp only [step] at *
      split
      · exact unmoved
      · rename_i task present
        refine put_came governed.ordered present (task.settle_goes work machine.time ?_ machine.state) _
        exact fun generation heard => (Bool.and_eq_true_iff.mp heard).2
  | wake index =>
      simp only [step]
      split
      · exact unmoved
      · rename_i task present
        exact put_came governed.ordered present (task.wake_goes work machine.time _ machine.state) _

end Machine
end SetScaler.Schedule
