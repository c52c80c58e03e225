import SetScaler.Proofs.Schedule.Progress
import SetScaler.Proofs.Schedule.Workload

/-!
# The clock

Tasks go on in any order and at any pace, but the clock waits for them: it moves on only as long as no task
could have gone on before (`Clocked`). Whatever is asked of the machine keeps to that (`runsTo_calls`).
-/

namespace SetScaler.Schedule

variable {σ ρ : Type} (work : Workload σ ρ)

namespace Task

/-- A task that has nothing to do before an instant. One that sleeps for no time at all is not waited for. -/
structure IdleUntil (tasks : List (Task ρ)) (instant : Nat) (task : Task ρ) : Prop where
  waits : ∀ predecessor, task.predecessor? = some predecessor →
    Machine.hasFinished tasks predecessor = false
  wanted : ∀ due, task.phase = .sleeping due → task.cancelled = false
  sleeps : ∀ due, task.phase = .sleeping due → 0 < task.scheduled.spec.periodMs → instant ≤ due
  runs : ∀ run due, task.phase = .running run → work.due? run = some due → instant ≤ due

variable {work} {time : Nat} {task after : Task ρ}

theorem Goes.predecessor {finished : Nat → Bool} {entries : List Entry}
    (goes : task.Goes work time finished after entries) {predecessor : Nat}
    (waits : after.predecessor? = some predecessor) : task.predecessor? = some predecessor := by
  cases goes with
  | kept keeps => rwa [predecessor?, keeps.phase] at waits
  | freed | returned =>
      rw [rest_predecessor] at waits
      cases waits
  | resumed | left | began | passed => cases waits

theorem not_running_of_rest {run : ρ} : (task.rest time).phase ≠ .running run := by
  unfold rest
  split <;> nofun

/-- A run that is in progress after a step was left like that just now, or has not been touched. -/
theorem Goes.runs (timely : work.Timely) {finished : Nat → Bool} {entries : List Entry}
    (goes : task.Goes work time finished after entries) {run : ρ} {due : Nat}
    (runs : after.phase = .running run) (later : work.due? run = some due) :
    time < due ∨ task.phase = .running run := by
  cases goes with
  | kept keeps => exact .inr (keeps.phase.symm.trans runs)
  | freed | returned => exact absurd runs not_running_of_rest
  | resumed _ going =>
      obtain rfl := Phase.running.inj runs
      exact .inl (timely.resume going later)
  | began _ _ _ going =>
      obtain rfl := Phase.running.inj runs
      exact .inl (timely.start going later)
  | left | passed => cases runs

variable (work)

theorem settle_waits {heard : Nat → Bool} {state : σ} {predecessor : Nat}
    (waits : (task.settle work time heard state).1.predecessor? = some predecessor) :
    heard predecessor = false := by
  have waited := (task.settle_goes work time (fun _ news => news) state).predecessor waits
  cases phase : task.phase with
  | waiting other =>
      simp only [predecessor?, phase, Option.some.injEq] at waited
      subst waited
      refine (Bool.eq_false_or_eq_true _).resolve_left fun news => ?_
      simp [settle, phase, news, rest_predecessor] at waits
  | sleeping | running | finished => simp [predecessor?, phase] at waited

/-- A run in progress is taken further, and so it is due later if it goes on. -/
theorem settle_runs (timely : work.Timely) {heard : Nat → Bool} {state : σ} {run : ρ} {due : Nat}
    (runs : (task.settle work time heard state).1.phase = .running run)
    (later : work.due? run = some due) : time < due := by
  unfold settle at runs
  cases phase : task.phase with
  | waiting predecessor =>
      simp only [phase] at runs
      split at runs
      · exact absurd runs not_running_of_rest
      · cases phase.symm.trans runs
  | sleeping | finished =>
      simp only [phase] at runs
      cases runs
  | running before =>
      simp only [phase] at runs
      cases step : (work.resume time task.cancelled before state).1 with
      | ended outcome =>
          rw [step] at runs
          exact absurd runs not_running_of_rest
      | going rest =>
          rw [step] at runs
          obtain rfl := Phase.running.inj runs
          exact timely.resume step later

theorem wake_sleeps {state : σ} {due : Nat} (sleeps : (task.wake work time state).1.phase = .sleeping due) :
    (task.wake work time state).1.cancelled = false ∧
      (0 < task.scheduled.spec.periodMs → time < due) := by
  cases phase : task.phase with
  | waiting | running | finished => simp [wake, phase] at sleeps
  | sleeping first =>
      cases cancelled : task.cancelled with
      | true => simp [wake, phase, cancelled] at sleeps
      | false =>
          have wakes := task.wake_becomes work time (fun _ => false) state
          refine ⟨wakes.cancelled_eq.trans cancelled, fun regular => ?_⟩
          by_cases late : first ≤ time
          · rcases began : work.start task.scheduled task.runs time state with ⟨outcome | run, later⟩
            · simp only [wake, phase, cancelled, late, began, afterStep, rest, Bool.false_eq_true, if_false,
                if_true, Phase.sleeping.injEq] at sleeps
              omega
            · simp [wake, phase, cancelled, late, began, afterStep] at sleeps
          · simp only [wake, phase, cancelled, late, Bool.false_eq_true, if_false,
              Phase.sleeping.injEq] at sleeps
            omega

/-- A task that has been brought up to an instant has nothing left to do there. -/
theorem poll_idle (timely : work.Timely) (time : Nat) (done : List (Task ρ)) (task : Task ρ) (state : σ) :
    (task.poll work time (Machine.hasFinished done) state).1.IdleUntil work done (time + 1) := by
  let settled := task.settle work time (Machine.hasFinished done) state
  have wakes := settled.1.wake_goes work time (Machine.hasFinished done) settled.2.2
  refine ⟨fun predecessor waits => ?_, fun due sleeps => ?_, fun due sleeps regular => ?_,
    fun run due runs later => ?_⟩
  · exact settle_waits work (wakes.predecessor waits)
  · exact (wake_sleeps work sleeps).1
  · exact (wake_sleeps work sleeps).2 (wakes.scheduled ▸ regular)
  · rcases wakes.runs timely runs later with next | before
    · exact next
    · exact settle_runs work timely before later

end Task

namespace Machine

/-- A machine none of whose tasks has anything to do before an instant. -/
def IdleUntil (machine : Machine σ ρ) (instant : Nat) : Prop :=
  ∀ task ∈ machine.tasks, task.IdleUntil work machine.tasks instant

/-- Tasks that have been brought up to an instant one after the other. -/
inductive Polled (time : Nat) : List (Task ρ) → Prop where
  | nil : Polled time []
  | snoc {done : List (Task ρ)} {task : Task ρ} : Polled time done →
      task.IdleUntil work done (time + 1) → Polled time (done ++ [task])

variable {work}

theorem polled_pollAll (timely : work.Timely) {time : Nat} {done : List (Task ρ)}
    (polled : Polled work time done) (rest : List (Task ρ)) (state : σ) :
    Polled work time (pollAll work time done rest state).1 := by
  induction rest generalizing done state with
  | nil => exact polled
  | cons task rest ih => exact ih (.snoc polled (task.poll_idle work timely time done state)) _

theorem Polled.idle {time : Nat} {tasks : List (Task ρ)} (polled : Polled work time tasks)
    (ascending : tasks.Pairwise fun task other => task.generation < other.generation)
    (lower : ∀ task ∈ tasks, ∀ predecessor, task.predecessor? = some predecessor →
      predecessor < task.generation) :
    ∀ task ∈ tasks, task.IdleUntil work tasks (time + 1) := by
  induction polled with
  | nil => simp
  | @snoc done last polled idle ih =>
      obtain ⟨early, -, above⟩ := List.pairwise_append.mp ascending
      -- a task waits for an earlier one, so that what later ones do is no news to it
      have unheard {predecessor : Nat} (under : predecessor < last.generation) :
          hasFinished (done ++ [last]) predecessor = hasFinished done predecessor := by
        simp [hasFinished, Nat.ne_of_gt under]
      intro task mem
      have idle : task.IdleUntil work done (time + 1) := by
        rcases List.mem_append.mp mem with present | present
        · exact ih early (fun other listed => lower other (List.mem_append_left _ listed)) task present
        · obtain rfl := List.mem_singleton.mp present
          exact idle
      refine ⟨fun predecessor waits => ?_, idle.wanted, idle.sleeps, idle.runs⟩
      have under : predecessor < last.generation := by
        have own := lower task mem predecessor waits
        rcases List.mem_append.mp mem with present | present
        · exact Nat.lt_trans own (above task present last (List.mem_singleton_self _))
        · rwa [List.mem_singleton.mp present] at own
      rw [unheard under]
      exact idle.waits predecessor waits

variable (work)

theorem next?_le {machine : Machine σ ρ} {task : Task ρ} (mem : task ∈ machine.tasks) {due : Nat}
    (goes : task.due? work = some due) :
    ∃ next, machine.next? work = some next ∧ next ≤ max due (machine.time + 1) := by
  have listed : due ∈ machine.tasks.filterMap (Task.due? work) := List.mem_filterMap.mpr ⟨task, mem, goes⟩
  cases first : (machine.tasks.filterMap (Task.due? work)).min? with
  | none => simp [List.min?_eq_none_iff.mp first] at listed
  | some least =>
      have lowest := (List.min?_eq_some_iff.mp first).2 due listed
      exact ⟨max least (machine.time + 1), by simp [next?, first], by omega⟩

end Machine

/-- Steps under a clock that waits for the tasks. -/
inductive Clocked (start : Machine σ ρ) : List Step → Machine σ ρ → Prop where
  | start : Clocked start [] start
  | step {steps : List Step} {machine : Machine σ ρ} {next : Step} : Clocked start steps machine →
      (∀ ms, next = .elapse ms → machine.IdleUntil work (machine.time + ms)) →
      Clocked start (steps ++ [next]) (machine.step work next)

namespace Clocked

variable {work} {start machine after : Machine σ ρ} {steps more : List Step}

theorem trans (early : Clocked work start steps machine) (late : Clocked work machine more after) :
    Clocked work start (steps ++ more) after := by
  induction late with
  | start => rwa [List.append_nil]
  | step _ idle ih =>
      rw [← List.append_assoc]
      exact ih.step idle

theorem single {next : Step} (idle : ∀ ms, next = .elapse ms → machine.IdleUntil work (machine.time + ms)) :
    Clocked work machine [next] (machine.step work next) :=
  Clocked.start.step idle

theorem reached (clocked : Clocked work start steps machine) :
    steps.foldl (Machine.step work) start = machine := by
  induction clocked with
  | start => rfl
  | step _ _ ih => rw [List.foldl_append, ih, List.foldl_cons, List.foldl_nil]

theorem governed (clocked : Clocked work start steps machine)
    (governed : Governed start.registry start) : Governed machine.registry machine :=
  clocked.reached ▸ Governed.upheld.steps work steps governed

theorem tasks (own : ∀ step ∈ steps, step.isTask = true) :
    Clocked work machine steps (steps.foldl (Machine.step work) machine) := by
  induction steps generalizing machine with
  | nil => exact .start
  | cons first rest ih =>
      obtain ⟨going, others⟩ := List.forall_mem_cons.mp own
      have one : Clocked work machine [first] (machine.step work first) := by
        refine single fun ms passes => ?_
        rw [passes] at going
        cases going
      exact one.trans (ih others)

end Clocked

namespace Machine

/-- Steps under a clock that waits for the tasks lead from one machine to another. -/
def RunsTo (machine after : Machine σ ρ) : Prop := ∃ steps, Clocked work machine steps after

variable {work} {machine middle after : Machine σ ρ}

theorem RunsTo.refl (machine : Machine σ ρ) : machine.RunsTo work machine := ⟨[], .start⟩

theorem RunsTo.trans (early : machine.RunsTo work middle) (late : middle.RunsTo work after) :
    machine.RunsTo work after := by
  obtain ⟨steps, first⟩ := early
  obtain ⟨more, second⟩ := late
  exact ⟨steps ++ more, first.trans second⟩

theorem RunsTo.governed (runs : machine.RunsTo work after) (governed : Governed machine.registry machine) :
    Governed after.registry after := by
  obtain ⟨steps, clocked⟩ := runs
  exact clocked.governed governed

variable (work)

theorem RunsTo.step {next : Step} (instant : ∀ ms, next ≠ .elapse ms) :
    machine.RunsTo work (machine.step work next) :=
  ⟨_, .single fun ms passes => absurd passes (instant ms)⟩

theorem runsTo_poll (machine : Machine σ ρ) : machine.RunsTo work (machine.poll work) := by
  obtain ⟨steps, own, polled⟩ := poll_steps work machine
  exact ⟨steps, polled ▸ .tasks own⟩

theorem poll_idle (timely : work.Timely) (governed : Governed machine.registry machine) :
    (machine.poll work).IdleUntil work (machine.time + 1) := by
  have ordered := ((runsTo_poll work machine).governed governed).ordered
  have polled : Polled work machine.time (machine.poll work).tasks :=
    polled_pollAll timely .nil machine.tasks _
  exact polled.idle ordered.ascending fun task mem predecessor waits =>
    (ordered.waiting task mem predecessor waits).2.1

/-- Once all tasks have been brought up to the present, there is nothing left to do before the next
instant. -/
theorem poll_idleUntil (timely : work.Timely) (governed : Governed machine.registry machine) {instant : Nat}
    (next : ∀ due, (machine.poll work).next? work = some due → instant ≤ due) :
    (machine.poll work).IdleUntil work instant := by
  intro task mem
  have idle := poll_idle work timely governed task mem
  have upto {due : Nat} (goes : task.due? work = some due) (later : machine.time + 1 ≤ due) :
      instant ≤ due := by
    obtain ⟨first, found, bound⟩ := next?_le work mem goes
    rw [poll_time, Nat.max_eq_left later] at bound
    exact Nat.le_trans (next first found) bound
  refine ⟨idle.waits, idle.wanted, fun due sleeps regular => ?_, fun run due runs later => ?_⟩
  · exact upto (by simp [Task.due?, sleeps]) (idle.sleeps due sleeps regular)
  · exact upto (by simpa [Task.due?, runs] using later) (idle.runs run due runs later)

theorem runsTo_wait (timely : work.Timely) (governed : Governed machine.registry machine) {instant : Nat}
    (later : machine.time ≤ instant)
    (next : ∀ due, (machine.poll work).next? work = some due → instant ≤ due) :
    machine.RunsTo work ((machine.poll work).jump instant) := by
  have elapsed : machine.time + (instant - machine.time) = instant := by omega
  have idle := poll_idleUntil work timely governed next
  have moved : Clocked work (machine.poll work) [.elapse (instant - machine.time)]
      ((machine.poll work).jump (machine.time + (instant - machine.time))) := by
    refine .single fun ms passes => ?_
    obtain rfl := Step.elapse.inj passes
    rwa [poll_time, elapsed]
  rw [elapsed] at moved
  exact (runsTo_poll work machine).trans ⟨_, moved⟩

theorem runsTo_next (timely : work.Timely) {due : Nat} (governed : Governed machine.registry machine)
    (next : (machine.poll work).next? work = some due) :
    machine.RunsTo work ((machine.poll work).jump due) := by
  have upcoming : machine.time < due := poll_time work machine ▸ time_lt_of_next? next
  refine runsTo_wait work timely governed (Nat.le_of_lt upcoming) fun first found => ?_
  exact Nat.le_of_eq (Option.some.inj (next.symm.trans found))

theorem runsTo_advanceTo (timely : work.Timely) (limit : Nat) (governed : Governed machine.registry machine) :
    machine.RunsTo work (machine.advanceTo work limit) := by
  fun_induction advanceTo work limit machine with
  | case1 machine polled none =>
      refine runsTo_wait work timely governed (Nat.le_max_left _ _) fun due found => ?_
      cases none.symm.trans found
  | case2 machine polled due later before ih =>
      have jumped := runsTo_next work timely governed later
      exact jumped.trans (ih (jumped.governed governed))
  | case3 machine polled due later past =>
      refine runsTo_wait work timely governed (Nat.le_max_left _ _) fun first found => ?_
      obtain rfl := Option.some.inj (later.symm.trans found)
      have upcoming := time_lt_of_next? later
      change machine.time < due at upcoming
      omega

theorem runsTo_awaitAll (timely : work.Timely) (generations : List Nat) (instants : Nat)
    (governed : Governed machine.registry machine) :
    machine.RunsTo work (machine.awaitAll work generations instants).machine := by
  induction instants generalizing machine with
  | zero => exact .refl machine
  | succ instants ih =>
      unfold awaitAll
      dsimp only
      split
      · exact runsTo_poll work machine
      · split
        · exact runsTo_poll work machine
        · rename_i due later
          have jumped := runsTo_next work timely governed later
          exact jumped.trans (ih (jumped.governed governed))

theorem runsTo_call (timely : work.Timely) (call : Call) (governed : Governed machine.registry machine) :
    machine.RunsTo work (machine.call work call) := by
  have observed (ns cluster : String) (specs : List (SetKey × AutoscalerSpec)) :
      machine.RunsTo work (machine.step work (.observe ns cluster specs)) :=
    .step work nofun
  cases call with
  | observe ns cluster specs => exact observed ns cluster specs
  | forget ns cluster => exact observed ns cluster []
  | advance ms =>
      by_cases none : ms = 0
      · have kept : machine.call work (.advance ms) = machine := if_pos none
        rw [kept]
        exact .refl machine
      · have moved : machine.call work (.advance ms) = machine.advanceTo work (machine.time + ms) :=
          if_neg none
        rw [moved]
        exact runsTo_advanceTo work timely _ governed
  | shutdown instants =>
      have closed : machine.RunsTo work (machine.step work .close) := .step work nofun
      exact closed.trans (runsTo_awaitAll work timely _ instants (closed.governed governed))

theorem runsTo_calls (timely : work.Timely) (calls : List Call) (governed : Governed machine.registry machine) :
    machine.RunsTo work (calls.foldl (call work) machine) := by
  induction calls generalizing machine with
  | nil => exact .refl machine
  | cons first rest ih =>
      have called := runsTo_call work timely first governed
      exact called.trans (ih (called.governed governed))

end Machine
end SetScaler.Schedule
