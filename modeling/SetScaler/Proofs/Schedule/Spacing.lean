import SetScaler.Proofs.Schedule.Observation
import SetScaler.Proofs.Schedule.Rounds

/-!
# The spacing of runs

A task begins its first run one period after the later of its start and the end of the task of its set right
before it, and each further run one period after the one before has returned, however long that took and
however it ended. This goes on until the task is cancelled (`runs_spaced`).
-/

namespace SetScaler.Schedule

variable {σ ρ : Type} {work : Workload σ ρ}

namespace Scheduled

/-- The runs of a task whose first one is due at a given instant, and each further one a period after the
one before has returned. `next` is when the next run is due, unless one is in progress. -/
inductive Spaced (scheduled : Scheduled) (first : Nat) : List Entry → (next : Option Nat) → Prop where
  | unbegun : Spaced scheduled first [] (some first)
  | began {runs : List Entry} {due : Nat} : Spaced scheduled first runs (some due) →
      Spaced scheduled first (runs ++ [⟨due, scheduled.key, scheduled.generation, .started⟩]) none
  | returned {runs : List Entry} {time : Nat} {outcome : RunEnd} : Spaced scheduled first runs none →
      Spaced scheduled first (runs ++ [⟨time, scheduled.key, scheduled.generation, .ended outcome⟩])
        (some (time + scheduled.spec.periodMs))

/-- Since when a task has been free to begin: the later of its start and the end of the task of its set right
before it. `ends` tells when tasks have ended. -/
inductive Free (ends : Nat → Nat → Prop) (issued : List Scheduled) (scheduled : Scheduled) (built : Nat) :
    Nat → Prop where
  | first : scheduled.previous? issued = none → Free ends issued scheduled built built
  | after {previous ended : Nat} : scheduled.previous? issued = some previous → ends previous ended →
      Free ends issued scheduled built (max built ended)

/-- All that has been noted of a task that is free to begin. -/
def Paced (ends : Nat → Nat → Prop) (issued : List Scheduled) (scheduled : Scheduled)
    (history : List Entry) (next : Option Nat) : Prop :=
  ∃ built free runs, history = scheduled.builtAt built :: runs ∧ Free ends issued scheduled built free ∧
    scheduled.Spaced (free + scheduled.spec.periodMs) runs next

namespace Paced

variable {ends known : Nat → Nat → Prop} {issued later : List Scheduled} {scheduled : Scheduled}
  {history : List Entry}

theorem mono {next : Option Nat} (paced : Paced ends issued scheduled history next)
    (true_ends : ∀ generation time, ends generation time → known generation time)
    (previous : scheduled.previous? later = scheduled.previous? issued) :
    Paced known later scheduled history next := by
  obtain ⟨built, free, runs, noted, freed, spaced⟩ := paced
  refine ⟨built, free, runs, noted, ?_, spaced⟩
  cases freed with
  | first none => exact .first (previous.trans none)
  | after found ended => exact .after (previous.trans found) (true_ends _ _ ended)

theorem began {due : Nat} (paced : Paced ends issued scheduled history (some due)) :
    Paced ends issued scheduled
      (history ++ [⟨due, scheduled.key, scheduled.generation, .started⟩]) none := by
  obtain ⟨built, free, runs, rfl, freed, spaced⟩ := paced
  exact ⟨built, free, _, List.cons_append, freed, spaced.began⟩

theorem returned (paced : Paced ends issued scheduled history none) (time : Nat) (outcome : RunEnd) :
    Paced ends issued scheduled
      (history ++ [⟨time, scheduled.key, scheduled.generation, .ended outcome⟩])
      (some (time + scheduled.spec.periodMs)) := by
  obtain ⟨built, free, runs, rfl, freed, spaced⟩ := paced
  exact ⟨built, free, _, List.cons_append, freed, spaced.returned⟩

end Paced
end Scheduled

/-- A task that has kept to its schedule so far, and is not behind. -/
def Task.OnTime (work : Workload σ ρ) (ends : Nat → Nat → Prop) (machine : Machine σ ρ) (task : Task ρ) :
    Prop :=
  let paced (next : Option Nat) : Prop :=
    task.scheduled.Paced ends (machine.tasks.map Task.scheduled) (machine.history task.generation) next
  match task.phase with
  | .waiting predecessor =>
    task.scheduled.previous? (machine.tasks.map Task.scheduled) = some predecessor ∧
      ∃ built, machine.history task.generation = [task.scheduled.builtAt built] ∧ built ≤ machine.time ∧
        (Machine.hasFinished machine.tasks predecessor = true →
          ∃ ended, ends predecessor ended ∧ max built ended = machine.time)
  | .sleeping due => paced (some due) ∧ (task.cancelled = false → machine.time ≤ due)
  | .running run => paced none ∧ ∀ due, work.due? run = some due → machine.time ≤ due
  | .finished => task.cancelled = true ∧ ∃ due, paced (some due)

namespace Task

variable {ends known : Nat → Nat → Prop} {machine after : Machine σ ρ} {task later : Task ρ}

theorem onTime_rest (paced : task.scheduled.Paced ends (machine.tasks.map Task.scheduled)
    (machine.history task.generation) (some (machine.time + task.scheduled.spec.periodMs))) :
    (task.rest machine.time).OnTime work ends machine := by
  unfold rest
  split
  · rename_i cancelled
    exact ⟨cancelled, _, paced⟩
  · exact ⟨paced, fun _ => Nat.le_add_right _ _⟩

namespace OnTime

theorem elapsed (onTime : task.OnTime work ends machine) {instant : Nat} (later : machine.time ≤ instant)
    (regular : 0 < task.scheduled.spec.periodMs) (idle : task.IdleUntil work machine.tasks instant)
    (true_ends : ∀ generation time, ends generation time → known generation time) :
    task.OnTime work known (machine.jump instant) := by
  unfold OnTime at onTime ⊢
  cases phase : task.phase with
  | waiting predecessor =>
      rw [phase] at onTime
      obtain ⟨previous, built, noted, upto, -⟩ := onTime
      have unfinished := idle.waits predecessor (by rw [predecessor?, phase])
      refine ⟨previous, built, noted, Nat.le_trans upto later, fun ended => ?_⟩
      cases unfinished.symm.trans ended
  | sleeping due =>
      rw [phase] at onTime
      exact ⟨onTime.1.mono true_ends rfl, fun _ => idle.sleeps due phase regular⟩
  | running run =>
      rw [phase] at onTime
      exact ⟨onTime.1.mono true_ends rfl, fun due => idle.runs run due phase⟩
  | finished =>
      rw [phase] at onTime
      obtain ⟨cancelled, due, paced⟩ := onTime
      exact ⟨cancelled, due, paced.mono true_ends rfl⟩

theorem went (timely : work.Timely) (onTime : task.OnTime work ends machine) {entries : List Entry}
    (goes : task.Goes work machine.time (Machine.hasFinished machine.tasks) later entries)
    (history : after.history later.generation = machine.history later.generation ++ entries)
    (now : after.time = machine.time)
    (true_ends : ∀ generation time, ends generation time → known generation time)
    (previous : task.scheduled.previous? (after.tasks.map Task.scheduled) =
      task.scheduled.previous? (machine.tasks.map Task.scheduled))
    (news : ∀ generation, Machine.hasFinished after.tasks generation = true →
      Machine.hasFinished machine.tasks generation = true ∨ known generation machine.time) :
    later.OnTime work known after := by
  rw [generation, goes.scheduled] at history
  have carried {next : Option Nat} (paced : task.scheduled.Paced ends (machine.tasks.map Task.scheduled)
      (machine.history task.generation) next) :
      task.scheduled.Paced known (after.tasks.map Task.scheduled) (machine.history task.generation) next :=
    paced.mono true_ends previous
  unfold OnTime at onTime
  cases goes with
  | kept keeps =>
      unfold OnTime
      rw [generation, keeps.scheduled, keeps.phase, now, history, List.append_nil]
      cases phase : task.phase with
      | waiting predecessor =>
          rw [phase] at onTime
          obtain ⟨found, built, noted, upto, freed⟩ := onTime
          refine ⟨previous.trans found, built, noted, upto, fun finished => ?_⟩
          rcases news predecessor finished with before | just
          · obtain ⟨ended, its, same⟩ := freed before
            exact ⟨ended, true_ends _ _ its, same⟩
          · exact ⟨machine.time, just, Nat.max_eq_right upto⟩
      | sleeping due =>
          rw [phase] at onTime
          refine ⟨carried onTime.1, fun wanted => onTime.2 ?_⟩
          refine (Bool.eq_false_or_eq_true _).resolve_left fun cancelled => ?_
          cases wanted.symm.trans (keeps.cancelled cancelled)
      | running run =>
          rw [phase] at onTime
          exact ⟨carried onTime.1, onTime.2⟩
      | finished =>
          rw [phase] at onTime
          obtain ⟨cancelled, due, paced⟩ := onTime
          exact ⟨keeps.cancelled cancelled, due, carried paced⟩
  | @freed predecessor phase finished =>
      rw [phase] at onTime
      obtain ⟨found, built, noted, -, freed⟩ := onTime
      -- the predecessor has ended just now, or the task was built after that and just now
      obtain ⟨ended, its, same⟩ := freed finished
      rw [← now]
      have free : task.scheduled.Free known (after.tasks.map Task.scheduled) built (max built ended) :=
        .after (previous.trans found) (true_ends _ _ its)
      refine onTime_rest ⟨built, max built ended, [], ?_, free, ?_⟩
      · rw [history, List.append_nil]
        exact noted
      · rw [same, now]
        exact .unbegun
  | resumed phase going =>
      rw [phase] at onTime
      have paced := carried onTime.1
      rw [List.append_nil] at history
      rw [← history] at paced
      exact ⟨paced, fun due ready => now ▸ Nat.le_of_lt (timely.resume going ready)⟩
  | returned phase =>
      rw [phase] at onTime
      have paced := (carried onTime.1).returned machine.time ‹_›
      change after.history _ = _ ++ [⟨_, _, _, _⟩] at history
      rw [← history, ← now] at paced
      rw [← now]
      exact onTime_rest paced
  | left phase cancelled =>
      rw [phase] at onTime
      have paced := carried onTime.1
      rw [List.append_nil] at history
      rw [← history] at paced
      exact ⟨cancelled, _, paced⟩
  | @began due run state phase wanted late going =>
      rw [phase] at onTime
      obtain rfl : due = machine.time := Nat.le_antisymm late (onTime.2 wanted)
      have paced := (carried onTime.1).began
      change after.history _ = _ ++ [⟨_, _, _, _⟩] at history
      rw [← history] at paced
      exact ⟨paced, fun due ready => now ▸ Nat.le_of_lt (timely.start going ready)⟩
  | @passed due outcome phase wanted late =>
      rw [phase] at onTime
      obtain rfl : due = machine.time := Nat.le_antisymm late (onTime.2 wanted)
      have paced := (carried onTime.1).began.returned machine.time outcome
      rw [List.append_assoc] at paced
      change after.history _ = _ ++ ([⟨_, _, _, _⟩] ++ [⟨_, _, _, _⟩]) at history
      rw [← history] at paced
      exact ⟨paced, fun _ => now ▸ Nat.le_add_right _ _⟩

theorem new (linked : Linked machine.registry machine) (mem : task ∈ machine.tasks)
    {predecessor : Option Nat} (phase : task.phase =
      (fresh (ρ := ρ) task.scheduled predecessor (machine.time + task.scheduled.spec.periodMs)).phase)
    (history : machine.history task.generation = [task.scheduled.builtAt machine.time])
    (ended : ∀ generation, Machine.hasFinished machine.tasks generation = true →
      ∃ time, time ≤ machine.time ∧ ends generation time) :
    task.OnTime work ends machine := by
  unfold OnTime
  cases predecessor with
  | some predecessor =>
      have waits : task.predecessor? = some predecessor := by rw [predecessor?, phase]; rfl
      rw [phase]
      refine ⟨linked.previous? mem waits, machine.time, history, Nat.le_refl _, fun finished => ?_⟩
      obtain ⟨time, upto, its⟩ := ended predecessor finished
      exact ⟨time, its, Nat.max_eq_left upto⟩
  | none =>
      have waits : task.predecessor? = none := by rw [predecessor?, phase]; rfl
      have free : task.scheduled.Free ends (machine.tasks.map Task.scheduled) machine.time machine.time := by
        cases found : task.scheduled.previous? (machine.tasks.map Task.scheduled) with
        | none => exact .first found
        | some previous =>
            obtain ⟨other, listed, own, lower, rfl⟩ := (Scheduled.previous?_eq_some_iff.mp found).1
            obtain ⟨peer, present, rfl⟩ := List.mem_map.mp listed
            have finished := linked.ordered.begun task mem waits peer present own lower
            -- it need not be waited for any more, so that it ended before the task was built
            obtain ⟨time, upto, its⟩ := ended peer.generation (hasFinished_of_mem present finished)
            have freed : task.scheduled.Free ends (machine.tasks.map Task.scheduled) machine.time
                (max machine.time time) := .after found its
            rwa [Nat.max_eq_left upto] at freed
      rw [phase]
      exact ⟨⟨machine.time, machine.time, [], history, free, .unbegun⟩, fun _ => Nat.le_add_right _ _⟩

end OnTime
end Task

/-- In some steps the task of a generation ends at an instant. -/
def EndsAt (work : Workload σ ρ) (start : Machine σ ρ) (steps : List Step) (generation time : Nat) : Prop :=
  ∃ before next later, steps = before ++ next :: later ∧
    let machine := before.foldl (Machine.step work) start
    machine.time = time ∧ Machine.hasFinished machine.tasks generation = false ∧
      Machine.hasFinished (machine.step work next).tasks generation = true

theorem EndsAt.append {start : Machine σ ρ} {steps : List Step} {generation time : Nat}
    (ends : EndsAt work start steps generation time) (more : List Step) :
    EndsAt work start (steps ++ more) generation time := by
  obtain ⟨before, next, later, rfl, ended⟩ := ends
  exact ⟨before, next, later ++ more, by simp, ended⟩

theorem Machine.step_time (work : Workload σ ρ) {machine : Machine σ ρ} {next : Step}
    (instant : ∀ ms, next ≠ .elapse ms) : (machine.step work next).time = machine.time := by
  cases next with
  | observe ns cluster specs => exact machine.observe_time ns cluster specs
  | close => exact machine.update_time _ _
  | elapse ms => exact absurd rfl (instant ms)
  | settle | wake =>
      unfold step
      dsimp only
      split <;> rfl

theorem Machine.step_time_le (work : Workload σ ρ) (machine : Machine σ ρ) (next : Step) :
    machine.time ≤ (machine.step work next).time := by
  by_cases passes : ∃ ms, next = .elapse ms
  · obtain ⟨ms, rfl⟩ := passes
    exact Nat.le_add_right _ _
  · exact Nat.le_of_eq (step_time work fun ms same => passes ⟨ms, same⟩).symm

namespace Clocked

variable {state : σ} {steps more : List Step} {machine after : Machine σ ρ}

theorem linked (clocked : Clocked work { state } steps machine) : Linked machine.registry machine :=
  clocked.reached ▸ Machine.linked_steps work steps state

theorem ends_now {start : Machine σ ρ} (clocked : Clocked work start steps machine) {next : Step}
    {generation : Nat} (before : Machine.hasFinished machine.tasks generation = false)
    (finished : Machine.hasFinished (machine.step work next).tasks generation = true) :
    EndsAt work start (steps ++ [next]) generation machine.time := by
  refine ⟨steps, next, [], rfl, ?_⟩
  rw [clocked.reached]
  exact ⟨rfl, before, finished⟩

theorem ends (clocked : Clocked work { state } steps machine) (generation : Nat)
    (finished : Machine.hasFinished machine.tasks generation = true) :
    ∃ time, time ≤ machine.time ∧ EndsAt work { state } steps generation time := by
  induction clocked with
  | start => cases finished
  | @step steps machine next clocked idle ih =>
      have later := machine.step_time_le work next
      cases before : Machine.hasFinished machine.tasks generation with
      | true =>
          obtain ⟨time, upto, ended⟩ := ih before
          exact ⟨time, Nat.le_trans upto later, ended.append [next]⟩
      | false => exact ⟨machine.time, later, clocked.ends_now before finished⟩

theorem onTime (timely : work.Timely) (clocked : Clocked work { state } steps machine) :
    ∀ task ∈ machine.tasks, 0 < task.scheduled.spec.periodMs →
      task.OnTime work (EndsAt work { state } steps) machine := by
  induction clocked with
  | start => simp
  | @step steps machine next clocked idle ih =>
      have linked := Linked.upheld.step work clocked.linked next
      have kept (generation time : Nat) (ends : EndsAt work { state } steps generation time) :
          EndsAt work { state } (steps ++ [next]) generation time := ends.append [next]
      intro task mem regular
      by_cases passes : ∃ ms, next = .elapse ms
      · obtain ⟨ms, rfl⟩ := passes
        exact (ih task mem regular).elapsed (Nat.le_add_right _ _) regular (idle ms rfl task mem) kept
      · have instant : ∀ ms, next ≠ .elapse ms := fun ms same => passes ⟨ms, same⟩
        have now : _ = machine.time := Machine.step_time work instant
        cases Machine.step_came work clocked.linked.toGoverned next instant task mem with
        | @went old entries present goes history =>
            refine (ih old present (goes.scheduled ▸ regular)).went timely goes history now kept ?_ ?_
            · obtain ⟨fresh, issued⟩ := machine.step_scheduled work next
              have ascending : ((machine.step work next).tasks.map Task.scheduled).Pairwise
                  fun first second => first.generation < second.generation :=
                List.pairwise_map.mpr linked.ordered.ascending
              rw [← issued] at ascending ⊢
              refine Scheduled.previous?_append fun other listed => ?_
              exact (List.pairwise_append.mp ascending).2.2 _ (List.mem_map_of_mem present) other listed
            · intro generation finished
              cases before : Machine.hasFinished machine.tasks generation with
              | true => exact .inl rfl
              | false => exact .inr (clocked.ends_now before finished)
        | new _ phase history =>
            rw [← now] at phase history
            exact .new linked mem phase history (clocked.step idle).ends

/-- A task that a step takes out of a phase only with a given note stays in that phase until the note has been
made, or the task has been cancelled. -/
theorem stays (timely : work.Timely) (clocked : Clocked work { state } steps machine) {task : Task ρ}
    (mem : task ∈ machine.tasks) (regular : 0 < task.scheduled.spec.periodMs) {phase : Phase ρ} {note : Entry}
    (begins : task.phase = phase)
    (leaves : ∀ {ends : Nat → Nat → Prop} {machine : Machine σ ρ} {former later : Task ρ}
      {heard : Nat → Bool} {entries : List Entry}, former.OnTime work ends machine →
      former.scheduled = task.scheduled → former.phase = phase →
      former.Goes work machine.time heard later entries →
      later.cancelled = true ∨ later.phase = phase ∨ note ∈ entries)
    (further : Clocked work machine more after) :
    ∃ last ∈ after.tasks, last.scheduled = task.scheduled ∧
      (last.cancelled = true ∨ last.phase = phase ∨ note ∈ after.history task.generation) := by
  induction further with
  | start => exact ⟨task, mem, rfl, .inr (.inl begins)⟩
  | @step more machine next further idle ih =>
      obtain ⟨old, present, same, stands⟩ := ih
      have so_far := clocked.trans further
      by_cases passes : ∃ ms, next = .elapse ms
      · obtain ⟨ms, rfl⟩ := passes
        exact ⟨old, present, same, stands⟩
      · have instant : ∀ ms, next ≠ .elapse ms := fun ms equal => passes ⟨ms, equal⟩
        obtain ⟨fresh, issued⟩ := machine.step_scheduled work next
        have listed : old.scheduled ∈ (machine.step work next).tasks.map Task.scheduled :=
          issued ▸ List.mem_append_left fresh (List.mem_map_of_mem present)
        obtain ⟨last, there, equal⟩ := List.mem_map.mp listed
        have its : last.scheduled = task.scheduled := equal.trans same
        refine ⟨last, there, its, ?_⟩
        cases Machine.step_came work so_far.linked.toGoverned next instant last there with
        | new newer _ _ =>
            have lower := newer old present
            rw [Task.generation, Task.generation, equal] at lower
            exact absurd lower (Nat.lt_irrefl _)
        | @went former entries found goes history =>
            have one : former = old := so_far.linked.ordered.eq_of_generation found present
              (congrArg Scheduled.generation (goes.scheduled.symm.trans equal))
            subst one
            rw [Task.generation, its] at history
            rw [history]
            rcases stands with cancelled | stayed | noted
            · exact .inl (goes.cancelled cancelled)
            · have onTime := so_far.onTime timely former found (same ▸ regular)
              exact (leaves onTime same stayed goes).imp id (.imp id (List.mem_append_right _))
            · exact .inr (.inr (List.mem_append_left _ noted))

/-- A task that sleeps stays asleep until it begins a run at the instant at which it is due, or has been
cancelled. -/
theorem begins (timely : work.Timely) (clocked : Clocked work { state } steps machine) {task : Task ρ}
    (mem : task ∈ machine.tasks) (regular : 0 < task.scheduled.spec.periodMs) {due : Nat}
    (sleeps : task.phase = .sleeping due) (further : Clocked work machine more after) :
    ∃ last ∈ after.tasks, last.scheduled = task.scheduled ∧ (last.cancelled = true ∨
      last.phase = .sleeping due ∨ task.entry due .started ∈ after.history task.generation) := by
  refine clocked.stays timely mem regular sleeps ?_ further
  intro ends machine former later heard entries onTime same asleep goes
  unfold Task.OnTime at onTime
  rw [asleep] at onTime
  -- woken when due at the earliest, and by then at the latest
  have woken (wanted : former.cancelled = false) (late : due ≤ machine.time) :
      former.entry machine.time .started = task.entry due .started := by
    rw [Task.entry, Task.entry, same, Nat.le_antisymm late (onTime.2 wanted)]
  cases goes with
  | kept keeps => exact .inr (.inl (keeps.phase.trans asleep))
  | left _ cancelled => exact .inl cancelled
  | freed phase | resumed phase | returned phase => cases phase.symm.trans asleep
  | began phase wanted late | passed phase wanted late =>
      obtain rfl := Phase.sleeping.inj (phase.symm.trans asleep)
      exact .inr (.inr (woken wanted late ▸ List.mem_cons_self))

/-- A run in progress that lasts until an instant returns at that instant, unless its task has been
cancelled. -/
theorem returns (timely : work.Timely) (clocked : Clocked work { state } steps machine) {task : Task ρ}
    (mem : task ∈ machine.tasks) (regular : 0 < task.scheduled.spec.periodMs) {run : ρ} {due : Nat}
    {outcome : RunEnd} (runs : task.phase = .running run) (lasts : work.Lasts run due outcome)
    (further : Clocked work machine more after) :
    ∃ last ∈ after.tasks, last.scheduled = task.scheduled ∧ (last.cancelled = true ∨
      last.phase = .running run ∨ task.entry due (.ended outcome) ∈ after.history task.generation) := by
  refine clocked.stays timely mem regular runs ?_ further
  intro ends machine former later heard entries onTime same running goes
  unfold Task.OnTime at onTime
  rw [running] at onTime
  cases cancelled : former.cancelled with
  | true => exact .inl (goes.cancelled cancelled)
  | false =>
      cases goes with
      | kept keeps => exact .inr (.inl (keeps.phase.trans running))
      | freed phase | left phase | began phase | passed phase => cases phase.symm.trans running
      | @resumed _ rest state phase going =>
          obtain rfl := Phase.running.inj (phase.symm.trans running)
          rw [cancelled] at going
          by_cases early : machine.time < due
          · obtain rfl := RunStep.going.inj ((lasts.before machine.time state early).symm.trans going)
            exact .inr (.inl rfl)
          · cases (lasts.ends machine.time state (Nat.le_of_not_lt early)).symm.trans going
      | @returned _ result state phase ended =>
          obtain rfl := Phase.running.inj (phase.symm.trans running)
          rw [cancelled] at ended
          by_cases early : machine.time < due
          · cases (lasts.before machine.time state early).symm.trans ended
          · have late := Nat.le_of_not_lt early
            obtain rfl := RunStep.ended.inj ((lasts.ends machine.time state late).symm.trans ended)
            obtain rfl : due = machine.time := Nat.le_antisymm late (onTime.2 due lasts.ready)
            refine .inr (.inr (List.mem_singleton.mpr ?_))
            rw [Task.entry, Task.entry, same]

theorem underway (timely : work.Timely) (allReturn : work.AllReturn)
    (clocked : Clocked work { state } steps machine) : Underway work (machine.poll work) :=
  .poll timely allReturn clocked.linked (clocked.reached ▸ Machine.lively_steps allReturn steps state)

end Clocked

/-- As long as it is live, a task begins a run whenever it is due, and a run in progress returns at the instant
at which it is over. If every run returns, there is a further one after any instant. -/
structure Task.Recurs (work : Workload σ ρ) (machine : Machine σ ρ) (task : Task ρ) : Prop where
  begins : ∀ due, task.phase = .sleeping due → ∀ more after, Clocked work machine more after →
    task.scheduled ∈ after.registry.live → due < after.time → task.entry due .started ∈ after.log
  returns : ∀ run due outcome, task.phase = .running run → work.Lasts run due outcome →
    ∀ more after, Clocked work machine more after → task.scheduled ∈ after.registry.live →
      due < after.time → task.entry due (.ended outcome) ∈ after.log
  recurs : work.AllReturn → task.scheduled ∈ machine.registry.live → ∀ instant, ∃ enough, ∀ ms,
    enough ≤ ms → task.BegunSince instant (machine.call work (.advance ms))

theorem Clocked.recurs {state : σ} {steps : List Step} {machine : Machine σ ρ} (timely : work.Timely)
    (clocked : Clocked work { state } steps machine) {task : Task ρ} (mem : task ∈ machine.tasks)
    (regular : 0 < task.scheduled.spec.periodMs) : task.Recurs work machine := by
  -- a live task cannot have been cancelled
  have wanted {more : List Step} {after : Machine σ ρ} (further : Clocked work machine more after)
      {last : Task ρ} (present : last ∈ after.tasks) (same : last.scheduled = task.scheduled)
      (live : task.scheduled ∈ after.registry.live) : last.cancelled = false :=
    ((clocked.trans further).linked.governs.wanted last present).mpr (same ▸ live)
  refine ⟨fun due sleeps more after further live past => ?_,
    fun run due outcome runs lasts more after further live past => ?_,
    fun allReturn live instant => ?_⟩
  · obtain ⟨last, present, same, stands⟩ := clocked.begins timely mem regular sleeps further
    have uncancelled := wanted further present same live
    rcases stands with cancelled | asleep | begun
    · cases uncancelled.symm.trans cancelled
    · have onTime := (clocked.trans further).onTime timely last present (same ▸ regular)
      unfold Task.OnTime at onTime
      rw [asleep] at onTime
      exact absurd past (Nat.not_lt_of_le (onTime.2 uncancelled))
    · exact (List.mem_filter.mp begun).1
  · obtain ⟨last, present, same, stands⟩ := clocked.returns timely mem regular runs lasts further
    rcases stands with cancelled | running | returned
    · cases (wanted further present same live).symm.trans cancelled
    · have onTime := (clocked.trans further).onTime timely last present (same ▸ regular)
      unfold Task.OnTime at onTime
      rw [running] at onTime
      exact absurd past (Nat.not_lt_of_le (onTime.2 due lasts.ready))
    · exact (List.mem_filter.mp returned).1
  · have underway := clocked.underway timely allReturn
    obtain ⟨now, present, stands⟩ := Task.exists_standing machine.poll_standing mem
    have uncancelled := (Task.standing_cancelled stands).trans (wanted .start mem rfl live)
    have soon := underway.recurs timely allReturn present uncancelled
      (Task.standing_scheduled stands ▸ regular) instant
    obtain ⟨enough, reach⟩ := soon.advanceTo
    refine ⟨enough + 1, fun ms more => ?_⟩
    have moved : machine.call work (.advance ms) = machine.advanceTo work (machine.time + ms) :=
      if_neg (by omega)
    obtain ⟨after, begun, noted⟩ := reach (machine.time + ms) (by omega)
    obtain ⟨time, since, started⟩ := begun.mono stands (Nat.le_refl instant)
    exact ⟨time, since, moved ▸ noted.subset started⟩

theorem Machine.call_advance (work : Workload σ ρ) (machine : Machine σ ρ) (ms : Nat) :
    (machine.call work (.advance ms)).time = machine.time + ms ∧
      (machine.call work (.advance ms)).registry = machine.registry := by
  simp only [Machine.call, Machine.advance]
  split
  · simp [*]
  · rw [Machine.advanceTo_time, Machine.advanceTo_registry work]
    exact ⟨by omega, rfl⟩

/-- A run in progress of a live task returns when time passes, at the instant at which it is over. -/
theorem Clocked.advance_returns {state : σ} {steps : List Step} {machine : Machine σ ρ} (timely : work.Timely)
    (clocked : Clocked work { state } steps machine) {task : Task ρ} (mem : task ∈ machine.tasks)
    (regular : 0 < task.scheduled.spec.periodMs) (live : task.scheduled ∈ machine.registry.live) {run : ρ}
    {due ms : Nat} {outcome : RunEnd} (runs : task.phase = .running run) (lasts : work.Lasts run due outcome)
    (past : due < machine.time + ms) :
    task.entry due (.ended outcome) ∈ (machine.call work (.advance ms)).log := by
  obtain ⟨time, registry⟩ := machine.call_advance work ms
  obtain ⟨more, further⟩ := Machine.runsTo_call work timely (.advance ms) clocked.linked.toGoverned
  rw [← registry] at live
  rw [← time] at past
  exact (clocked.recurs timely mem regular).returns run due outcome runs lasts more _ further live past

/-- However runs go, a task under a clock that waits for the tasks keeps to its schedule, and as long as it is
live that goes on. Nothing but an observation or a shutdown changes what is live. Calls keep to such a clock, and
let as much time pass as is asked of them. -/
theorem runs_spaced (work : Workload σ ρ) (timely : work.Timely) (state : σ) :
    (∀ steps machine, Clocked work { state } steps machine →
      ∀ task ∈ machine.tasks, 0 < task.scheduled.spec.periodMs →
        task.OnTime work (EndsAt work { state } steps) machine ∧
        (task.cancelled = false ↔ task.scheduled ∈ machine.registry.live) ∧ task.Recurs work machine) ∧
    (∀ (machine : Machine σ ρ) (next : Step), next.isWork = true →
      (machine.step work next).registry = machine.registry) ∧
    (∀ calls : List Call, Machine.RunsTo work { state } (calls.foldl (Machine.call work) { state })) ∧
    ∀ (machine : Machine σ ρ) (ms : Nat), (machine.call work (.advance ms)).time = machine.time + ms ∧
      (machine.call work (.advance ms)).registry = machine.registry := by
  refine ⟨fun steps machine clocked task mem regular => ?_, fun machine next works => ?_, fun calls => ?_,
    Machine.call_advance work⟩
  · exact ⟨clocked.onTime timely task mem regular, clocked.linked.governs.wanted task mem,
      clocked.recurs timely mem regular⟩
  · cases next with
    | observe | close => cases works
    | elapse ms => rfl
    | settle index known => exact (machine.settle_passes work index known).registry_eq
    | wake index => exact (machine.wake_passes work index).registry_eq
  · exact Machine.runsTo_calls work timely calls (.initial state)

/-- Every run of a task takes three milliseconds and panics. -/
def panics : Workload Unit ScriptedRun := scripted fun _ => { runMs := 3, outcomes := [.panicked] }

/-- A task sleeps for ten seconds, and its run panics. -/
def panicked : List Step :=
  [.observe "ns" "a" [(bookies "a", .bookkeeper { enabled := true })], .elapse 10000, .wake 0, .elapse 3,
    .settle 0 fun _ => true]

/-- The machine in the midst of that run. -/
def panicking : Machine Unit ScriptedRun := (panicked.take 3).foldl (Machine.step panics) { state := () }

theorem panicking_clocked : Clocked panics { state := () } (panicked.take 3) panicking := by
  have sleeping : Clocked panics { state := () } (panicked.take 1) _ := .step .start nofun
  have slept : Clocked panics { state := () } (panicked.take 2) _ := sleeping.step fun ms passes => by
    obtain rfl := Step.elapse.inj passes
    intro task mem
    obtain rfl := List.mem_singleton.mp mem
    exact ⟨nofun, fun _ _ => rfl, fun due sleeps _ => by cases sleeps; decide, nofun⟩
  exact slept.step nofun

theorem panicked_clocked :
    Clocked panics { state := () } panicked (panicked.foldl (Machine.step panics) { state := () }) := by
  have ran : Clocked panics { state := () } (panicked.take 4) _ := panicking_clocked.step fun ms passes => by
    obtain rfl := Step.elapse.inj passes
    intro task mem
    obtain rfl := List.mem_singleton.mp mem
    exact ⟨nofun, nofun, nofun, fun run due runs ready => by cases runs; cases ready; decide⟩
  exact ran.step nofun

/-- A run in progress must panic when it does, the next one is due a period after that, and there will always be a
further one. -/
theorem runs_spaced_panicked :
    let machine := panicked.foldl (Machine.step panics) { state := () }
    (∀ task ∈ panicking.tasks, ∀ more after, Clocked panics panicking more after →
      task.scheduled ∈ after.registry.live → 10003 < after.time →
        task.entry 10003 (.ended .panicked) ∈ after.log) ∧
    (∀ task ∈ machine.tasks, task.OnTime panics (EndsAt panics { state := () } panicked) machine ∧
      task.scheduled ∈ machine.registry.live ∧ ∀ instant, ∃ enough, ∀ ms, enough ≤ ms →
        task.BegunSince instant (machine.call panics (.advance ms))) ∧
    machine.log.map (fun entry => (entry.time, entry.note)) =
      [(0, .built 10000), (10000, .started), (10003, .ended .panicked)] ∧
    machine.tasks.map (Task.due? panics) = [some 20003] := by
  intro machine
  refine ⟨fun task mem more after => ?_, fun task mem => ?_, by decide +kernel, by decide +kernel⟩
  · have running : 0 < task.scheduled.spec.periodMs ∧ task.phase = .running ⟨10003, .panicked, false⟩ := by
      obtain rfl := List.mem_singleton.mp mem
      exact ⟨by decide +kernel, rfl⟩
    obtain ⟨-, -, recurs⟩ :=
      (runs_spaced panics (scripted_timely _) ()).1 _ panicking panicking_clocked task mem running.1
    exact recurs.returns _ _ _ running.2 (scripted_lasts _ _) more after
  · have regular : 0 < task.scheduled.spec.periodMs ∧ task.cancelled = false := by
      obtain rfl := List.mem_singleton.mp mem
      decide +kernel
    obtain ⟨onTime, live, recurs⟩ :=
      (runs_spaced panics (scripted_timely _) ()).1 panicked machine panicked_clocked task mem regular.1
    exact ⟨onTime, live.mp regular.2, recurs.recurs (scripted_allReturn _) (live.mp regular.2)⟩

end SetScaler.Schedule
