import SetScaler.Proofs.Schedule.Clock
import SetScaler.Proofs.Schedule.Predecessors

/-!
# What time brings about

Time passes in rounds, each of which brings all tasks up to the next instant at which one of them can go on.
What must come about after some rounds (`Machine.Soon`) is stated of machines that have just been brought up to
the present (`Underway`). If every run returns, a cancelled task finishes (`Underway.finishes`), and a live one
begins a run over and over (`Underway.begins`).
-/

namespace SetScaler.Schedule

variable {σ ρ : Type} {work : Workload σ ρ}

namespace Task

variable {time : Nat} {heard : Nat → Bool} {task : Task ρ} {state : σ}

theorem poll_standing : (task.poll work time heard state).1.standing = task.standing :=
  (wake_becomes work time heard _ _).standing.trans (task.settle_becomes work time heard state).standing

theorem poll_due {due : Nat} (sleeps : task.phase = .sleeping due) (wanted : task.cancelled = false)
    (late : due ≤ time) : task.entry time .started ∈ (task.poll work time heard state).2.1 := by
  simp [poll, settle, wake, entry, sleeps, wanted, late]

theorem poll_early {due : Nat} (sleeps : task.phase = .sleeping due) (wanted : task.cancelled = false)
    (early : time < due) : (task.poll work time heard state).1 = task := by
  simp [poll, settle, wake, sleeps, wanted, Nat.not_le_of_lt early]

theorem poll_finished (ended : task.isFinished = true) :
    (task.poll work time heard state).1.isFinished = true :=
  (wake_becomes work time heard _ _).follows.finished
    ((task.settle_becomes work time heard state).follows.finished ended)

/-- A task that rests is not woken at once, unless it is to sleep for no time at all. -/
theorem wake_rest (rests : task.cancelled = false → 0 < task.scheduled.spec.periodMs) :
    ((task.rest time).wake work time state).1 = task.rest time := by
  cases cancelled : task.cancelled with
  | true => simp [rest, wake, cancelled]
  | false =>
      have early : ¬time + task.scheduled.spec.periodMs ≤ time :=
        Nat.not_le_of_lt (Nat.lt_add_of_pos_right (rests cancelled))
      simp [rest, wake, cancelled, early]

/-- A run in progress is taken further, and once it has returned its task rests. -/
theorem poll_running (task : Task ρ) (heard : Nat → Bool) (state : σ) {run : ρ} (runs : task.phase = .running run)
    (rests : task.cancelled = false → 0 < task.scheduled.spec.periodMs) :
    (task.poll work time heard state).1 = task.rest time ∨
      ∃ later, (work.resume time task.cancelled run state).1 = .going later ∧
        (task.poll work time heard state).1.phase = .running later := by
  unfold poll settle
  simp only [runs]
  cases (work.resume time task.cancelled run state).1 with
  | ended outcome => exact .inl (wake_rest rests)
  | going later => exact .inr ⟨later, rfl, rfl⟩

/-- Something holds of a task as it is at another machine. -/
def At (task : Task ρ) (holds : Task ρ → Prop) (machine : Machine σ ρ) : Prop :=
  ∃ later ∈ machine.tasks, later.standing = task.standing ∧ holds later

theorem at_congr {later : Task ρ} (stands : later.standing = task.standing) (holds : Task ρ → Prop) :
    (later.At holds : Machine σ ρ → Prop) = task.At holds := by
  funext machine
  rw [At, At, stands]

/-- A run of a task has begun at an instant or later. -/
def BegunSince (task : Task ρ) (instant : Nat) (machine : Machine σ ρ) : Prop :=
  ∃ time, instant ≤ time ∧ task.entry time .started ∈ machine.log

theorem BegunSince.mono {later : Task ρ} {machine : Machine σ ρ} {instant earlier : Nat}
    (begun : later.BegunSince instant machine) (stands : later.standing = task.standing)
    (upto : earlier ≤ instant) : task.BegunSince earlier machine := by
  obtain ⟨time, since, noted⟩ := begun
  rw [entry, standing_scheduled stands] at noted
  exact ⟨time, Nat.le_trans upto since, noted⟩

/-- A task between two runs, or after its last one. -/
structure Rests (task : Task ρ) : Prop where
  finished : task.cancelled = true → task.isFinished = true
  sleeping : task.cancelled = false → ∃ due, task.phase = .sleeping due

theorem rest_rests (task : Task ρ) (time : Nat) : (task.rest time).Rests := by
  cases cancelled : task.cancelled with
  | true => exact ⟨fun _ => by simp [rest, cancelled, isFinished], fun wanted => by simp_all [rest]⟩
  | false => exact ⟨fun ended => by simp_all [rest], fun _ => ⟨_, by simp [rest, cancelled]; rfl⟩⟩

/-- A task whose run in progress returns, and that has finished only if it was cancelled. -/
structure Lively (work : Workload σ ρ) (task : Task ρ) : Prop where
  returns : ∀ run, task.phase = .running run → work.Returns run
  cancelled : task.isFinished = true → task.cancelled = true

theorem Lively.rest : (task.rest time).Lively work := by
  refine ⟨fun run runs => absurd runs not_running_of_rest, ?_⟩
  unfold Task.rest
  split <;> simp_all [isFinished]

theorem Lively.goes (allReturn : work.AllReturn) (lively : task.Lively work) {after : Task ρ}
    {entries : List Entry} (goes : task.Goes work time heard after entries) : after.Lively work := by
  cases goes with
  | kept keeps =>
      refine ⟨fun run runs => lively.returns run (keeps.phase.symm.trans runs), fun ended => ?_⟩
      rw [isFinished, keeps.phase] at ended
      exact keeps.cancelled (lively.cancelled ended)
  | freed | returned => exact .rest
  | resumed phase going =>
      refine ⟨fun run runs => ?_, fun ended => by cases ended⟩
      obtain rfl := Phase.running.inj runs
      exact (lively.returns _ phase).resume going
  | left _ cancelled =>
      refine ⟨fun _ runs => ?_, fun _ => cancelled⟩
      cases runs
  | began _ _ _ going =>
      refine ⟨fun run runs => ?_, fun ended => by cases ended⟩
      obtain rfl := Phase.running.inj runs
      exact allReturn _ _ _ _ _ going
  | passed =>
      refine ⟨fun _ runs => ?_, fun ended => ?_⟩
      · cases runs
      · cases ended

theorem Lively.fresh {scheduled : Scheduled} {predecessor : Option Nat} {due : Nat}
    (phase : task.phase = (Task.fresh (ρ := ρ) scheduled predecessor due).phase) : task.Lively work := by
  refine ⟨fun run runs => ?_, fun ended => ?_⟩
  · cases predecessor <;> cases phase.symm.trans runs
  · rw [isFinished, phase] at ended
    cases predecessor <;> cases ended

end Task

namespace Machine

theorem step_lively (allReturn : work.AllReturn) {machine : Machine σ ρ}
    (governed : Governed machine.registry machine) (lively : ∀ task ∈ machine.tasks, task.Lively work)
    (next : Step) : ∀ task ∈ (machine.step work next).tasks, task.Lively work := by
  by_cases passes : ∃ ms, next = .elapse ms
  · obtain ⟨ms, rfl⟩ := passes
    exact lively
  · intro task mem
    cases step_came work governed next (fun ms same => passes ⟨ms, same⟩) task mem with
    | went present goes _ => exact (lively _ present).goes allReturn goes
    | new _ phase _ => exact .fresh phase

theorem steps_lively (allReturn : work.AllReturn) {machine : Machine σ ρ}
    (governed : Governed machine.registry machine) (lively : ∀ task ∈ machine.tasks, task.Lively work)
    (steps : List Step) : ∀ task ∈ (steps.foldl (step work) machine).tasks, task.Lively work := by
  induction steps generalizing machine with
  | nil => exact lively
  | cons next rest ih =>
      exact ih (Governed.upheld.step work governed next) (step_lively allReturn governed lively next)

theorem lively_steps (allReturn : work.AllReturn) (steps : List Step) (state : σ) :
    ∀ task ∈ (steps.foldl (step work) { state }).tasks, task.Lively work :=
  steps_lively allReturn (.initial state) (by simp) steps

theorem mem_pollAll {time : Nat} {done : List (Task ρ)} {task : Task ρ} (mem : task ∈ done)
    (rest : List (Task ρ)) (state : σ) : task ∈ (pollAll work time done rest state).1 := by
  induction rest generalizing done state with
  | nil => exact mem
  | cons next rest ih => exact ih (List.mem_append_left _ mem) _

theorem pollAll_mem (work : Workload σ ρ) {time : Nat} {task : Task ρ} {rest : List (Task ρ)} (mem : task ∈ rest)
    (done : List (Task ρ)) (state : σ) : ∃ heard before,
      (task.poll work time heard before).1 ∈ (pollAll work time done rest state).1 ∧
      (task.poll work time heard before).2.1 ⊆ (pollAll work time done rest state).2.1 := by
  induction rest generalizing done state with
  | nil => cases mem
  | cons next rest ih =>
      rcases List.mem_cons.mp mem with rfl | later
      · refine ⟨hasFinished done, state, mem_pollAll ?_ rest _, List.subset_append_left _ _⟩
        exact List.mem_append_right _ (List.mem_singleton_self _)
      · obtain ⟨heard, before, present, noted⟩ := ih later (done ++ [_]) _
        exact ⟨heard, before, present, List.subset_append_of_subset_right _ noted⟩

theorem poll_mem (work : Workload σ ρ) {machine : Machine σ ρ} {task : Task ρ} (mem : task ∈ machine.tasks) :
    ∃ heard state, (task.poll work machine.time heard state).1 ∈ (machine.poll work).tasks ∧
      (task.poll work machine.time heard state).2.1 ⊆ (machine.poll work).log := by
  obtain ⟨heard, state, present, noted⟩ := pollAll_mem work mem [] machine.state
  exact ⟨heard, state, present, List.subset_append_of_subset_right _ noted⟩

theorem pollAll_standing {time : Nat} (done rest : List (Task ρ)) (state : σ) :
    (pollAll work time done rest state).1.map Task.standing = (done ++ rest).map Task.standing := by
  induction rest generalizing done state with
  | nil => rw [List.append_nil]; rfl
  | cons task rest ih =>
      refine (ih (done ++ [(task.poll work time (hasFinished done) state).1]) _).trans ?_
      simp only [List.map_append, List.map_cons, List.append_assoc, List.cons_append, List.nil_append,
        Task.poll_standing]

theorem poll_standing (machine : Machine σ ρ) :
    (machine.poll work).tasks.map Task.standing = machine.tasks.map Task.standing :=
  pollAll_standing [] machine.tasks machine.state

theorem poll_hasFinished {machine : Machine σ ρ} {generation : Nat}
    (ended : hasFinished machine.tasks generation = true) :
    hasFinished (machine.poll work).tasks generation = true := by
  obtain ⟨task, mem, rfl, finished⟩ := finished_of_hasFinished ended
  obtain ⟨heard, state, present, -⟩ := poll_mem work mem
  rw [← Task.standing_generation (Task.poll_standing : (task.poll work machine.time heard state).1.standing = _)]
  exact hasFinished_of_mem present (Task.poll_finished finished)

theorem round_mem (work : Workload σ ρ) {machine : Machine σ ρ} {task : Task ρ} (mem : task ∈ machine.tasks)
    (next : Nat) :
    ∃ heard state, (task.poll work next heard state).1 ∈ ((machine.jump next).poll work).tasks ∧
      (task.poll work next heard state).2.1 ⊆ ((machine.jump next).poll work).log :=
  (machine.jump next).poll_mem work mem

/-- What must come about when time passes, in rounds. -/
inductive Soon (work : Workload σ ρ) (goal : Machine σ ρ → Prop) : Machine σ ρ → Prop where
  | now {machine : Machine σ ρ} : goal machine → Soon work goal machine
  | later {machine : Machine σ ρ} {due : Nat} : machine.next? work = some due →
      Soon work goal ((machine.jump due).poll work) → Soon work goal machine

/-- What no round takes back still holds by then. -/
theorem Soon.keep {machine : Machine σ ρ} {goal kept : Machine σ ρ → Prop} (soon : machine.Soon work goal)
    (holds : kept machine) (stable : ∀ machine due, kept machine → kept ((machine.jump due).poll work)) :
    machine.Soon work fun after => kept after ∧ goal after := by
  induction soon with
  | now reached => exact .now ⟨holds, reached⟩
  | @later machine due upcoming _ ih => exact .later upcoming (ih (stable machine due holds))

theorem Soon.mono {machine : Machine σ ρ} {goal other : Machine σ ρ → Prop} (soon : machine.Soon work goal)
    (weaker : ∀ after, goal after → other after) : machine.Soon work other := by
  induction soon with
  | now reached => exact .now (weaker _ reached)
  | later upcoming _ ih => exact .later upcoming ih

end Machine

/-- A machine whose tasks have just been brought up to the present. -/
structure Underway (work : Workload σ ρ) (machine : Machine σ ρ) : Prop where
  linked : Linked machine.registry machine
  idle : machine.IdleUntil work (machine.time + 1)
  lively : ∀ task ∈ machine.tasks, task.Lively work

namespace Underway

variable {machine : Machine σ ρ} {task : Task ρ}

/-- While a task has not finished, there is an instant at which some task can go on. -/
theorem next? (underway : Underway work machine) (mem : task ∈ machine.tasks)
    (unfinished : task.isFinished = false) : ∃ due, machine.next? work = some due := by
  have goes {other : Task ρ} (present : other ∈ machine.tasks) {due : Nat}
      (able : other.due? work = some due) : ∃ due, machine.next? work = some due := by
    obtain ⟨first, found, -⟩ := Machine.next?_le work present able
    exact ⟨first, found⟩
  -- on the generation: a task that waits does so for an earlier one
  induction number : task.generation using Nat.strongRecOn generalizing task with
  | _ number ih =>
      cases phase : task.phase with
      | sleeping due => exact goes mem (by simp only [Task.due?, phase]; rfl)
      | running run =>
          obtain ⟨due, ready⟩ := ((underway.lively task mem).returns run phase).due
          exact goes mem (by simpa only [Task.due?, phase] using ready)
      | finished => simp [Task.isFinished, phase] at unfinished
      | waiting predecessor =>
          have waits : task.predecessor? = some predecessor := by simp [Task.predecessor?, phase]
          obtain ⟨other, present, rfl⟩ := List.mem_map.mp (underway.linked.awaited task mem predecessor waits)
          have lower := (underway.linked.ordered.waiting task mem _ waits).2.1
          refine ih other.generation (number ▸ lower) present ?_ rfl
          refine (Bool.eq_false_or_eq_true _).resolve_left fun ended => ?_
          cases ((underway.idle task mem).waits _ waits).symm.trans (hasFinished_of_mem present ended)

section

variable (timely : work.Timely) (allReturn : work.AllReturn)

include timely allReturn

theorem poll (linked : Linked machine.registry machine) (lively : ∀ task ∈ machine.tasks, task.Lively work) :
    Underway work (machine.poll work) := by
  refine ⟨?_, machine.poll_idle work timely linked.toGoverned, ?_⟩
  · obtain ⟨steps, -, polled⟩ := Machine.poll_steps work machine
    exact polled ▸ Linked.upheld.steps work steps linked
  · obtain ⟨steps, -, polled⟩ := Machine.poll_steps work machine
    exact polled ▸ Machine.steps_lively allReturn linked.toGoverned lively steps

theorem round (underway : Underway work machine) (due : Nat) :
    Underway work ((machine.jump due).poll work) :=
  poll timely allReturn (Linked.upheld.pass (.elapsed due) underway.linked) underway.lively

/-- Something comes about once what it takes has come about. -/
theorem soon {goal other : Machine σ ρ → Prop} (underway : Underway work machine)
    (first : machine.Soon work goal)
    (second : ∀ after, Underway work after →
      after.tasks.map Task.standing = machine.tasks.map Task.standing → machine.time ≤ after.time →
      goal after → after.Soon work other) :
    machine.Soon work other := by
  induction first with
  | now reached => exact second _ underway rfl (Nat.le_refl _) reached
  | @later machine due upcoming _ ih =>
      refine .later upcoming (ih (underway.round timely allReturn due) fun after arrived same upto => ?_)
      have earlier := Nat.le_of_lt (Machine.time_lt_of_next? upcoming)
      exact second after arrived (same.trans (Machine.poll_standing _)) (Nat.le_trans earlier upto)

/-- A run in progress returns, and then its task rests. -/
theorem returns {run : ρ} (returns : work.Returns run) (underway : Underway work machine)
    (mem : task ∈ machine.tasks) (runs : task.phase = .running run)
    (rests : task.cancelled = false → 0 < task.scheduled.spec.periodMs) :
    machine.Soon work (task.At Task.Rests) := by
  induction returns generalizing machine task with
  | @intro run due ready further ih =>
      -- the run is left as it is until it is due at the latest, and then it is another one
      induction left : due - machine.time using Nat.strongRecOn generalizing machine task with
      | _ left wait =>
          obtain ⟨next, upcoming⟩ := underway.next? mem (by simp [Task.isFinished, runs])
          have passed := Machine.time_lt_of_next? upcoming
          have round := underway.round timely allReturn next
          obtain ⟨heard, state, present, -⟩ := Machine.round_mem work mem next
          have standing : (task.poll work next heard state).1.standing = task.standing := Task.poll_standing
          have still : (task.poll work next heard state).1.cancelled = false →
              0 < (task.poll work next heard state).1.scheduled.spec.periodMs := by
            rw [Task.standing_cancelled standing, Task.standing_scheduled standing]
            exact rests
          refine .later upcoming ?_
          rw [← Task.at_congr standing]
          rcases task.poll_running heard state runs rests with rested | ⟨later, going, goes⟩
          · exact .now ⟨_, present, rfl, rested ▸ task.rest_rests next⟩
          · by_cases early : later = run ∧ next < due
            · refine wait (due - next) (by omega) round present (early.1 ▸ goes) still rfl
            · refine ih next task.cancelled state later going (fun same => ?_) round present goes still
              exact Nat.le_of_not_lt fun before => early ⟨same, before⟩

theorem finishes_freed (underway : Underway work machine) (mem : task ∈ machine.tasks)
    (cancelled : task.cancelled = true) (free : task.predecessor? = none) :
    machine.Soon work (task.At fun later => later.isFinished = true) := by
  cases phase : task.phase with
  | waiting predecessor => simp [Task.predecessor?, phase] at free
  | finished => exact .now ⟨task, mem, rfl, by simp [Task.isFinished, phase]⟩
  | sleeping due => cases cancelled.symm.trans ((underway.idle task mem).wanted due phase)
  | running run =>
      have returning := underway.returns timely allReturn ((underway.lively task mem).returns run phase) mem phase
        fun wanted => by cases cancelled.symm.trans wanted
      refine underway.soon timely allReturn returning fun after _ _ _ rested => ?_
      obtain ⟨later, present, stands, rests⟩ := rested
      exact .now ⟨later, present, stands, rests.finished ((Task.standing_cancelled stands).trans cancelled)⟩

/-- The task that another one waits for has been cancelled, and once it has finished, the other one waits for
nobody any more. -/
theorem soon_freed {goal : Machine σ ρ → Prop} (underway : Underway work machine) (mem : task ∈ machine.tasks)
    {predecessor : Nat} (waits : task.predecessor? = some predecessor)
    (ends : ∀ other ∈ machine.tasks, other.generation < task.generation → other.cancelled = true →
      machine.Soon work (other.At fun later => later.isFinished = true))
    (freed : ∀ after, Underway work after → machine.time ≤ after.time → ∀ later ∈ after.tasks,
      later.standing = task.standing → later.predecessor? = none → after.Soon work goal) :
    machine.Soon work goal := by
  have previous := underway.linked.previous? mem waits
  obtain ⟨other, present, rfl⟩ := List.mem_map.mp (underway.linked.awaited task mem predecessor waits)
  obtain ⟨-, lower, owns, -⟩ := underway.linked.ordered.waiting task mem _ waits
  have cancelled := underway.linked.superseded other present task mem (owns other present rfl).symm lower
  refine underway.soon timely allReturn (ends other present lower cancelled) ?_
  rintro after arrived standing upto ⟨ended, there, same, finished⟩
  obtain ⟨later, listed, stands⟩ := Task.exists_standing standing mem
  refine freed after arrived upto later listed stands ?_
  cases waiting : later.predecessor? with
  | none => rfl
  | some last =>
      -- it could only wait for the same task as before, which has finished
      have issued : after.tasks.map Task.scheduled = machine.tasks.map Task.scheduled := by
        simpa [Task.standing, Function.comp_def] using congrArg (List.map Prod.fst) standing
      have its := arrived.linked.previous? listed waiting
      rw [issued, Task.standing_scheduled stands, previous] at its
      have unfinished := (arrived.idle later listed).waits last waiting
      rw [← Option.some.inj its, ← Task.standing_generation same, hasFinished_of_mem there finished] at unfinished
      cases unfinished

/-- A cancelled task finishes. -/
theorem finishes (underway : Underway work machine) (mem : task ∈ machine.tasks)
    (cancelled : task.cancelled = true) :
    machine.Soon work (task.At fun later => later.isFinished = true) := by
  -- on the generation again, so that the task that this one waits for finishes first
  induction number : task.generation using Nat.strongRecOn generalizing machine task with
  | _ number ih =>
      cases waits : task.predecessor? with
      | none => exact underway.finishes_freed timely allReturn mem cancelled waits
      | some predecessor =>
          refine underway.soon_freed timely allReturn mem waits (fun other present lower ended => ?_) ?_
          · exact ih other.generation (number ▸ lower) underway present ended rfl
          · intro after arrived _ later listed stands free
            rw [← Task.at_congr stands]
            exact arrived.finishes_freed timely allReturn listed
              ((Task.standing_cancelled stands).trans cancelled) free

/-- Cancelled tasks finish, all of them. -/
theorem all_finish {generations : List Nat} (underway : Underway work machine)
    (cancelled : ∀ generation ∈ generations, ∃ task ∈ machine.tasks,
      task.generation = generation ∧ task.cancelled = true) :
    machine.Soon work fun after => generations.all (Machine.hasFinished after.tasks) = true := by
  induction generations generalizing machine with
  | nil => exact .now rfl
  | cons first rest ih =>
      obtain ⟨⟨task, mem, rfl, ended⟩, others⟩ := List.forall_mem_cons.mp cancelled
      -- one after the other: those that have finished stay so while the rest is waited for
      refine underway.soon timely allReturn (underway.finishes timely allReturn mem ended) ?_
      rintro after arrived standing - ⟨later, present, stands, finished⟩
      have gone : Machine.hasFinished after.tasks task.generation = true := by
        rw [← Task.standing_generation stands]
        exact hasFinished_of_mem present finished
      have remaining := ih arrived fun generation listed => by
        obtain ⟨other, found, rfl, stopped⟩ := others generation listed
        obtain ⟨same, there, stays⟩ := Task.exists_standing standing found
        exact ⟨same, there, Task.standing_generation stays, (Task.standing_cancelled stays).trans stopped⟩
      have stable (machine : Machine σ ρ) (due : Nat)
          (gone : Machine.hasFinished machine.tasks task.generation = true) :
          Machine.hasFinished ((machine.jump due).poll work).tasks task.generation = true :=
        Machine.poll_hasFinished gone
      refine (remaining.keep gone stable).mono fun last done => ?_
      rw [List.all_cons, done.1, done.2, Bool.and_self]

theorem begins_asleep {due : Nat} (underway : Underway work machine) (mem : task ∈ machine.tasks)
    (wanted : task.cancelled = false) (sleeps : task.phase = .sleeping due) :
    machine.Soon work (task.BegunSince machine.time) := by
  induction left : due - machine.time using Nat.strongRecOn generalizing machine with
  | _ left wait =>
      obtain ⟨next, upcoming⟩ := underway.next? mem (by simp [Task.isFinished, sleeps])
      have passed := Machine.time_lt_of_next? upcoming
      obtain ⟨heard, state, present, noted⟩ := Machine.round_mem work mem next
      refine .later upcoming ?_
      by_cases late : due ≤ next
      · exact .now ⟨next, Nat.le_of_lt passed, noted (Task.poll_due sleeps wanted late)⟩
      · rw [Task.poll_early sleeps wanted (Nat.lt_of_not_le late)] at present
        have round := underway.round timely allReturn next
        refine (wait (due - next) (by omega) round present rfl).mono fun _ begun => ?_
        exact begun.mono rfl (Nat.le_of_lt passed)

theorem begins_freed (underway : Underway work machine) (mem : task ∈ machine.tasks)
    (wanted : task.cancelled = false) (regular : 0 < task.scheduled.spec.periodMs)
    (free : task.predecessor? = none) : machine.Soon work (task.BegunSince machine.time) := by
  cases phase : task.phase with
  | waiting predecessor => simp [Task.predecessor?, phase] at free
  | sleeping due => exact underway.begins_asleep timely allReturn mem wanted phase
  | finished =>
      cases wanted.symm.trans ((underway.lively task mem).cancelled (by simp [Task.isFinished, phase]))
  | running run =>
      have returning := underway.returns timely allReturn ((underway.lively task mem).returns run phase) mem phase
        fun _ => regular
      refine underway.soon timely allReturn returning fun after arrived _ upto rested => ?_
      obtain ⟨later, present, stands, rests⟩ := rested
      have still := (Task.standing_cancelled stands).trans wanted
      obtain ⟨due, sleeps⟩ := rests.sleeping still
      exact (arrived.begins_asleep timely allReturn present still sleeps).mono fun _ begun =>
        begun.mono stands upto

/-- A live task begins a run, not before the present. -/
theorem begins (underway : Underway work machine) (mem : task ∈ machine.tasks)
    (wanted : task.cancelled = false) (regular : 0 < task.scheduled.spec.periodMs) :
    machine.Soon work (task.BegunSince machine.time) := by
  cases waits : task.predecessor? with
  | none => exact underway.begins_freed timely allReturn mem wanted regular waits
  | some predecessor =>
      refine underway.soon_freed timely allReturn mem waits (fun other present _ cancelled => ?_) ?_
      · exact underway.finishes timely allReturn present cancelled
      · intro after arrived upto later listed stands free
        have still := (Task.standing_cancelled stands).trans wanted
        refine (arrived.begins_freed timely allReturn listed still ?_ free).mono fun _ begun => begun.mono stands upto
        exact Task.standing_scheduled stands ▸ regular

/-- A live task begins a run after any instant. -/
theorem recurs (underway : Underway work machine) (mem : task ∈ machine.tasks)
    (wanted : task.cancelled = false) (regular : 0 < task.scheduled.spec.periodMs) (instant : Nat) :
    machine.Soon work (task.BegunSince instant) := by
  -- rounds pass until the instant is in the past, and the next run is one that is asked for
  induction left : instant - machine.time using Nat.strongRecOn generalizing machine task with
  | _ left wait =>
      by_cases past : instant ≤ machine.time
      · exact (underway.begins timely allReturn mem wanted regular).mono fun _ begun => begun.mono rfl past
      · have unfinished : task.isFinished = false := by
          refine (Bool.eq_false_or_eq_true _).resolve_left fun ended => ?_
          cases wanted.symm.trans ((underway.lively task mem).cancelled ended)
        obtain ⟨next, upcoming⟩ := underway.next? mem unfinished
        have passed := Machine.time_lt_of_next? upcoming
        obtain ⟨heard, state, present, -⟩ := Machine.round_mem work mem next
        have stands : (task.poll work next heard state).1.standing = task.standing := Task.poll_standing
        have still := (Task.standing_cancelled stands).trans wanted
        have further := wait (instant - next) (by omega) (underway.round timely allReturn next) present still
          (Task.standing_scheduled stands ▸ regular) rfl
        exact .later upcoming (further.mono fun _ begun => begun.mono stands (Nat.le_refl _))

end
end Underway

namespace Machine

variable {machine : Machine σ ρ}

theorem poll_log (machine : Machine σ ρ) : machine.log <+: (machine.poll work).log :=
  List.prefix_append _ _

theorem advanceTo_log (limit : Nat) (machine : Machine σ ρ) :
    (machine.poll work).log <+: (machine.advanceTo work limit).log := by
  fun_induction advanceTo work limit machine with
  | case1 | case3 => exact List.prefix_rfl
  | case2 machine polled due later before ih => exact (poll_log (polled.jump due)).trans ih

/-- What comes about in some rounds has been noted once enough time has passed. -/
theorem Soon.advanceTo {goal : Machine σ ρ → Prop} (soon : (machine.poll work).Soon work goal) :
    ∃ enough, ∀ limit, enough ≤ limit → ∃ after, goal after ∧
      after.log <+: (machine.advanceTo work limit).log := by
  generalize now : machine.poll work = polled at soon
  induction soon generalizing machine with
  | @now polled reached => exact ⟨0, fun limit _ => ⟨polled, reached, now ▸ advanceTo_log limit machine⟩⟩
  | @later polled due upcoming _ ih =>
      obtain ⟨enough, reach⟩ := ih rfl
      refine ⟨max enough (due + 1), fun limit later => ?_⟩
      obtain ⟨after, reached, noted⟩ := reach limit (by omega)
      refine ⟨after, reached, ?_⟩
      subst now
      rw [Machine.advanceTo]
      split
      · rename_i none
        cases none.symm.trans upcoming
      · rename_i next found
        obtain rfl := Option.some.inj (found.symm.trans upcoming)
        rwa [if_pos (by omega)]

/-- A wait for tasks that come to finish is over after enough instants. -/
theorem Soon.awaitAll {generations : List Nat} (soon : (machine.poll work).Soon work fun after =>
      generations.all (hasFinished after.tasks) = true) :
    ∃ enough after, ∀ instants, enough ≤ instants →
      machine.awaitAll work generations instants = ⟨after, true⟩ := by
  have at_once {machine : Machine σ ρ} (ended : generations.all (hasFinished (machine.poll work).tasks) = true) :
      ∃ enough after, ∀ instants, enough ≤ instants →
        machine.awaitAll work generations instants = ⟨after, true⟩ := by
    refine ⟨1, machine.poll work, fun instants some => ?_⟩
    obtain ⟨more, rfl⟩ := Nat.exists_eq_add_of_le' some
    rw [Machine.awaitAll, if_pos ended]
  generalize now : machine.poll work = polled at soon
  induction soon generalizing machine with
  | now ended => exact at_once (now ▸ ended)
  | @later polled due upcoming _ ih =>
      subst now
      cases ended : generations.all (hasFinished (machine.poll work).tasks) with
      | true => exact at_once ended
      | false =>
          obtain ⟨enough, after, waits⟩ := ih rfl
          refine ⟨enough + 1, after, fun instants more => ?_⟩
          obtain ⟨rest, rfl⟩ := Nat.exists_eq_add_of_le' (Nat.le_trans (Nat.le_add_left 1 enough) more)
          rw [Machine.awaitAll]
          simp only [ended, upcoming, Bool.false_eq_true, if_false]
          exact waits rest (by omega)

end Machine
end SetScaler.Schedule
