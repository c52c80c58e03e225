import SetScaler.Proofs.Schedule.Rounds

/-!
# Cancelled tasks and the shutdown

A task is cancelled as soon as it is no longer live, and it begins no run after that, whatever it was
doing. A shutdown cancels every task. It waits for some of them only, but once these have finished, so
has every other task that there has ever been, and nothing happens any more. If runs return, then so does a
shutdown (`retires_for_good`).
-/

namespace SetScaler.Schedule

variable {σ ρ : Type} (work : Workload σ ρ)

/-- What becomes of a cancelled task from one machine to another: it stays cancelled, and no run of it
begins. -/
structure Idles (task : Task ρ) (machine after : Machine σ ρ) : Prop where
  kept : ∃ later ∈ after.tasks, later.scheduled = task.scheduled ∧ later.cancelled = true ∧
    later.runs = task.runs
  unnoted : ∃ entries, after.log = machine.log ++ entries ∧
    ∀ entry ∈ entries, entry.generation = task.generation → entry.note ≠ .started

namespace Idles

variable {task : Task ρ} {machine after : Machine σ ρ}

theorem refl (mem : task ∈ machine.tasks) (cancelled : task.cancelled = true) :
    Idles task machine machine :=
  ⟨⟨task, mem, rfl, cancelled, rfl⟩, [], by simp, by simp⟩

theorem trans {middle : Machine σ ρ} {later : Task ρ} (early : Idles task machine middle)
    (same : later.scheduled = task.scheduled) (runs : later.runs = task.runs)
    (late : Idles later middle after) : Idles task machine after := by
  obtain ⟨-, entries, log, unstarted⟩ := early
  obtain ⟨⟨last, mem, scheduled, cancelled, begun⟩, others, later_log, unbegun⟩ := late
  refine ⟨⟨last, mem, scheduled.trans same, cancelled, begun.trans runs⟩, entries ++ others, ?_, ?_⟩
  · rw [later_log, log, List.append_assoc]
  · refine List.forall_mem_append.mpr ⟨unstarted, fun entry listed own => unbegun entry listed ?_⟩
    rw [own, Task.generation, Task.generation, same]

theorem obey (idles : Idles task machine after) (order : Order) :
    Idles task machine (after.obey order) := by
  obtain ⟨⟨later, mem, scheduled, cancelled, runs⟩, entries, log, unstarted⟩ := idles
  cases order with
  | cancel generation =>
      refine ⟨⟨later.cancelFor generation, List.mem_map_of_mem mem, ?_⟩, entries, log, unstarted⟩
      simp [Task.cancelFor_cancelled, scheduled, cancelled, runs]
  | start fresh predecessor =>
      let built : Entry := ⟨after.time, fresh.key, fresh.generation, .built fresh.spec.periodMs⟩
      refine ⟨⟨later, List.mem_append_left _ mem, scheduled, cancelled, runs⟩,
        entries ++ [built], ?_, ?_⟩
      · simp only [Machine.obey, log, List.append_assoc]
        rfl
      · exact List.forall_mem_append.mpr ⟨unstarted, by simp [built]⟩

theorem update (mem : task ∈ machine.tasks) (cancelled : task.cancelled = true) (registry : Registry)
    (orders : List Order) : Idles task machine (machine.update registry orders) := by
  have fold (after : Machine σ ρ) (idles : Idles task machine after) :
      Idles task machine (orders.foldl Machine.obey after) := by
    induction orders generalizing after with
    | nil => exact idles
    | cons order rest ih => exact ih _ (idles.obey order)
  exact fold _ ⟨⟨task, mem, rfl, cancelled, rfl⟩, [], by simp, by simp⟩

/-- The runs that begin in a step are those of the task that goes on, and a cancelled one begins none. -/
theorem pass (ordered : Ordered machine.tasks) (passes : machine.Passes after)
    (mem : task ∈ machine.tasks) (cancelled : task.cancelled = true) : Idles task machine after := by
  cases passes with
  | unmoved => exact .refl mem cancelled
  | elapsed => exact ⟨⟨task, mem, rfl, cancelled, rfl⟩, [], by simp [Machine.jump], by simp⟩
  | @went index goer later entries heard state present _ becomes =>
      have going : goer ∈ machine.tasks := List.mem_of_getElem? present
      obtain ⟨inside, found⟩ := List.getElem?_eq_some_iff.mp present
      by_cases own : goer = task
      · subst own
        obtain ⟨runs, quiet⟩ := becomes.of_cancelled cancelled
        refine ⟨⟨later, List.mem_set inside later, becomes.follows.scheduled,
          becomes.cancelled_eq.trans cancelled, runs⟩, entries, rfl, fun entry listed _ started => ?_⟩
        obtain ⟨outcome, ended⟩ := quiet entry listed
        cases started.symm.trans ended
      · refine ⟨⟨task, ?_, rfl, cancelled, rfl⟩, entries, rfl, fun entry listed same _ => ?_⟩
        · obtain ⟨position, within, rfl⟩ := List.getElem_of_mem mem
          have apart : index ≠ position := by
            rintro rfl
            exact own found.symm
          refine List.mem_of_getElem? (i := position) ?_
          simp [Machine.put, apart, within]
        · have equal := (becomes.own entry listed).2.1.symm.trans same
          exact own (ordered.eq_of_generation going mem equal)

theorem step (governed : Governed machine.registry machine) (mem : task ∈ machine.tasks)
    (cancelled : task.cancelled = true) (next : Step) : Idles task machine (machine.step work next) := by
  have ordered := governed.ordered
  cases next with
  | observe | close => exact update mem cancelled _ _
  | elapse ms => exact pass ordered (.elapsed _) mem cancelled
  | settle index known => exact pass ordered (machine.settle_passes work index known) mem cancelled
  | wake index => exact pass ordered (machine.wake_passes work index) mem cancelled

theorem steps (governed : Governed machine.registry machine) (mem : task ∈ machine.tasks)
    (cancelled : task.cancelled = true) (steps : List Step) :
    Idles task machine (steps.foldl (Machine.step work) machine) := by
  induction steps generalizing machine task with
  | nil => exact .refl mem cancelled
  | cons next rest ih =>
      have first := step work governed mem cancelled next
      obtain ⟨later, present, same, still, runs⟩ := first.kept
      exact first.trans same runs (ih (Governed.upheld.step work governed next) present still)

end Idles

namespace Registry

theorem retire_shut (registry : Registry) (key : SetKey) :
    { registry with closed := true }.retire key =
      ({ (registry.retire key).1 with closed := true }, (registry.retire key).2) := by
  have found : { registry with closed := true }.find? key = registry.find? key := rfl
  simp only [retire, found]
  cases registry.find? key <;> rfl

theorem retireAll_shut (registry : Registry) (keys : List SetKey) :
    { registry with closed := true }.retireAll keys =
      ({ (registry.retireAll keys).1 with closed := true }, (registry.retireAll keys).2) := by
  induction keys generalizing registry with
  | nil => rfl
  | cons key rest ih => simp only [retireAll, retire_shut, ih]

theorem retire_live {registry : Registry} {key : SetKey} {scheduled : Scheduled}
    (mem : scheduled ∈ (registry.retire key).1.live) :
    scheduled ∈ registry.live ∧ scheduled.key ≠ key := by
  refine ⟨?_, registry.retire_unlive key scheduled mem⟩
  unfold retire at mem
  split at mem
  · exact mem
  · exact (List.mem_filter.mp mem).1

theorem retireAll_live {registry : Registry} {keys : List SetKey} {scheduled : Scheduled}
    (mem : scheduled ∈ (registry.retireAll keys).1.live) :
    scheduled ∈ registry.live ∧ scheduled.key ∉ keys := by
  induction keys generalizing registry with
  | nil => exact ⟨mem, List.not_mem_nil⟩
  | cons key rest ih =>
      obtain ⟨kept, others⟩ := ih mem
      obtain ⟨live, apart⟩ := retire_live kept
      exact ⟨live, by simp [apart, others]⟩

/-- A shutdown waits for what is retiring once every live task is. -/
theorem close_eq (registry : Registry) :
    registry.close =
      let retired := registry.retireAll (registry.live.map Scheduled.key)
      ({ retired.1 with closed := true, retiring := [] }, retired.2, retired.1.retiring.map (·.2)) := by
  simp only [close, retireAll_shut]

theorem close_unlive (registry : Registry) : registry.close.1.live = [] := by
  rw [close_eq]
  refine List.eq_nil_iff_forall_not_mem.mpr fun scheduled mem => ?_
  obtain ⟨live, other⟩ := retireAll_live mem
  exact other (List.mem_map_of_mem live)

/-- Cancelling tasks starts none and notes nothing. -/
theorem retireAll_obeyed (registry : Registry) (keys : List SetKey) (machine : Machine σ ρ) :
    ((registry.retireAll keys).2.foldl Machine.obey machine).log = machine.log ∧
      ((registry.retireAll keys).2.foldl Machine.obey machine).tasks.map Task.scheduled =
        machine.tasks.map Task.scheduled := by
  induction keys generalizing registry machine with
  | nil => exact ⟨rfl, rfl⟩
  | cons key rest ih =>
      simp only [Registry.retireAll, List.foldl_append]
      obtain ⟨log, scheduled⟩ := ih (registry.retire key).1
        ((registry.retire key).2.foldl Machine.obey machine)
      rw [log, scheduled]
      rcases registry.retire_orders key with none | ⟨generation, one⟩
      · rw [none]
        exact ⟨rfl, rfl⟩
      · rw [one]
        exact ⟨rfl, Task.map_cancelFor_scheduled generation machine.tasks⟩

end Registry

/-- A machine that has been shut down waits for some tasks. For each unfinished task, that is the
newest one of its set. -/
structure Shut (awaited : List Nat) (start machine : Machine σ ρ) : Prop where
  closed : machine.registry.closed = true
  unlive : machine.registry.live = []
  scheduled : machine.tasks.map Task.scheduled = start.tasks.map Task.scheduled
  quiet : ∃ entries, machine.log = start.log ++ entries ∧
    ∀ entry ∈ entries, ∃ outcome, entry.note = .ended outcome
  covered : ∀ task ∈ machine.tasks, task.isFinished = false →
    ∃ generation ∈ awaited, Newest machine.tasks task.key generation

namespace Machine

/-- After a shutdown, a step is one of tasks, or it forgets which tasks were retiring. -/
theorem step_of_closed (work : Workload σ ρ) (machine : Machine σ ρ)
    (closed : machine.registry.closed = true) (unlive : machine.registry.live = []) (next : Step) :
    machine.Passes (machine.step work next) ∨
      machine.step work next = { machine with registry := { machine.registry with retiring := [] } } := by
  cases next with
  | observe ns cluster specs =>
      refine .inl ?_
      have ignored : machine.observe ns cluster specs = machine := by
        simp [Machine.observe, Registry.observe, closed, update]
      rw [step, ignored]
      exact .unmoved
  | close =>
      refine .inr ?_
      simp only [step, Registry.close_eq, unlive, Registry.retireAll, List.map_nil, update, List.foldl_nil,
        ← closed]
  | elapse ms => exact .inl (.elapsed _)
  | settle index known => exact .inl (machine.settle_passes work index known)
  | wake index => exact .inl (machine.wake_passes work index)

end Machine

namespace Machine

theorem step_close (work : Workload σ ρ) (machine : Machine σ ρ) : machine.step work .close =
    (machine.registry.retireAll (machine.registry.live.map Scheduled.key)).2.foldl obey
      { machine with registry := machine.registry.close.1 } := by
  simp only [step, update, Registry.close_eq]

end Machine

namespace Shut

variable {awaited : List Nat} {start machine : Machine σ ρ}

theorem pass (governed : Governed machine.registry machine) (shut : Shut awaited start machine)
    {after : Machine σ ρ} (passes : machine.Passes after) : Shut awaited start after := by
  have follows := passes.follows
  refine ⟨passes.registry_eq ▸ shut.closed, passes.registry_eq ▸ shut.unlive, ?_, ?_, ?_⟩
  · exact (passes.map_eq Task.scheduled fun becomes => becomes.follows.scheduled).trans shut.scheduled
  · obtain ⟨entries, log, ends⟩ := shut.quiet
    cases passes with
    | unmoved | elapsed => exact ⟨entries, log, ends⟩
    | @went index task _ others _ _ present _ becomes =>
        have mem := List.mem_of_getElem? present
        have cancelled : task.cancelled = true := by
          refine (Bool.eq_false_or_eq_true _).resolve_right fun wanted => ?_
          have live := (governed.governs.wanted task mem).mp wanted
          simp [shut.unlive] at live
        refine ⟨entries ++ others, ?_,
          List.forall_mem_append.mpr ⟨ends, (becomes.of_cancelled cancelled).2⟩⟩
        simp only [Machine.put, log, List.append_assoc]
  · intro later mem unfinished
    obtain ⟨task, present, follow⟩ := follows later mem
    have working : task.isFinished = false := by
      refine (Bool.eq_false_or_eq_true _).resolve_left fun ended => ?_
      rw [follow.finished ended] at unfinished
      cases unfinished
    obtain ⟨generation, listed, newest⟩ := shut.covered task present working
    exact ⟨generation, listed, follow.key ▸ newest.follow follows⟩

theorem step (governed : Governed machine.registry machine) (shut : Shut awaited start machine)
    (next : Step) : Shut awaited start (machine.step work next) := by
  rcases machine.step_of_closed work shut.closed shut.unlive next with passes | forgets
  · exact shut.pass governed passes
  · rw [forgets]
    exact ⟨shut.closed, shut.unlive, shut.scheduled, shut.quiet, shut.covered⟩

theorem steps (governed : Governed machine.registry machine) (shut : Shut awaited start machine)
    (steps : List Step) : Shut awaited start (steps.foldl (Machine.step work) machine) := by
  induction steps generalizing machine with
  | nil => exact shut
  | cons next rest ih =>
      exact ih (Governed.upheld.step work governed next) (shut.step work governed next)

/-- The first shutdown waits for the newest task of every set that is not through with its tasks. -/
theorem close (governed : Governed machine.registry machine) (opened : machine.registry.closed = false) :
    Shut machine.registry.close.2.2 machine (machine.step work .close) := by
  let keys := machine.registry.live.map Scheduled.key
  let retired := machine.registry.retireAll keys
  have closing := machine.step_close work
  have registry : (machine.step work .close).registry = machine.registry.close.1 :=
    Machine.update_registry _ _ _
  have sound := Sound.upheld.retireAll (Sound.upheld.adopt machine.registry.close.1 governed.toSound) keys
  have knows := sound.knows ((Registry.retireAll_closed _ _).trans opened)
  obtain ⟨log, scheduled⟩ := machine.registry.retireAll_obeyed keys
    { machine with registry := machine.registry.close.1 }
  refine ⟨?_, ?_, closing ▸ scheduled, ⟨[], by rw [closing, List.append_nil]; exact log, by simp⟩, ?_⟩
  · rw [registry, Registry.close_eq]
  · rw [registry, Registry.close_unlive]
  · rw [closing]
    intro task mem unfinished
    by_cases waits : ∃ entry ∈ retired.1.retiring, entry.1 = task.key
    · obtain ⟨entry, listed, own⟩ := waits
      refine ⟨entry.2, ?_, own ▸ (knows.retiring entry listed).2⟩
      rw [Registry.close_eq]
      exact List.mem_map_of_mem listed
    · have unlive : ∀ scheduled ∈ retired.1.live, scheduled.key ≠ task.key := by
        intro scheduled live
        obtain ⟨was, other⟩ := Registry.retireAll_live live
        exact absurd (List.mem_map_of_mem was) other
      have ended := knows.free task.key unlive (fun entry listed own => waits ⟨entry, listed, own⟩)
        task mem rfl
      rw [ended] at unfinished
      cases unfinished

/-- Once the tasks that it waits for have finished, so has every other one. -/
theorem finished (ordered : Ordered machine.tasks) (shut : Shut awaited start machine)
    (returned : awaited.all (Machine.hasFinished machine.tasks) = true) :
    ∀ task ∈ machine.tasks, task.isFinished = true := by
  intro task mem
  refine (Bool.eq_false_or_eq_true _).resolve_right fun unfinished => ?_
  -- the newest task of its set is waited for, and finishes after all before it
  obtain ⟨generation, listed, owns, last⟩ := shut.covered task mem unfinished
  obtain ⟨newest, present, rfl, ended⟩ := finished_of_hasFinished (List.all_eq_true.mp returned _ listed)
  have same : task.key = newest.key := (owns newest present rfl).symm
  have all := ordered.finished_upto present ended mem same (last task mem rfl)
  rw [all] at unfinished
  cases unfinished

end Shut

namespace Machine

/-- Once every task has finished after a shutdown, nothing happens any more. -/
theorem still (machine : Machine σ ρ) (closed : machine.registry.closed = true)
    (unlive : machine.registry.live = []) (ended : ∀ task ∈ machine.tasks, task.isFinished = true)
    (steps : List Step) :
    (steps.foldl (step work) machine).tasks = machine.tasks ∧
      (steps.foldl (step work) machine).log = machine.log ∧
      (steps.foldl (step work) machine).registry.live = [] := by
  induction steps generalizing machine with
  | nil => exact ⟨rfl, rfl, unlive⟩
  | cons next rest ih =>
      have kept : (machine.step work next).tasks = machine.tasks ∧
          (machine.step work next).log = machine.log ∧
          (machine.step work next).registry.closed = true ∧
          (machine.step work next).registry.live = [] := by
        rcases machine.step_of_closed work closed unlive next with passes | forgets
        · rw [passes.registry_eq]
          generalize machine.step work next = after at passes
          cases passes with
          | unmoved | elapsed => exact ⟨rfl, rfl, closed, unlive⟩
          | went present _ becomes =>
              obtain ⟨inside, rfl⟩ := List.getElem?_eq_some_iff.mp present
              obtain ⟨rfl, rfl⟩ := becomes.of_finished (ended _ (List.getElem_mem inside))
              exact ⟨List.set_getElem_self inside, List.append_nil _, closed, unlive⟩
        · rw [forgets]
          exact ⟨rfl, rfl, closed, unlive⟩
      obtain ⟨tasks, log, closed', unlive'⟩ := kept
      obtain ⟨tasks', log', last⟩ := ih (machine.step work next) closed' unlive' (tasks ▸ ended)
      exact ⟨tasks'.trans tasks, log'.trans log, last⟩

end Machine

/-- A task is cancelled from the moment at which it is no longer live, and from then on it begins no
further run, whatever it is doing and whatever follows. -/
structure Retires (machine : Machine σ ρ) : Prop where
  cancelled : ∀ task ∈ machine.tasks, task.cancelled = true ↔ task.scheduled ∉ machine.registry.live
  idle : ∀ task ∈ machine.tasks, task.cancelled = true → ∀ after, machine.Reaches work after →
    Idles task machine after

/-- A machine whose tasks, all there have ever been, have finished for good. -/
structure Over (machine : Machine σ ρ) : Prop where
  finished : ∀ task ∈ machine.tasks, task.isFinished = true ∧ task.isRunning = false
  known : ∀ entry ∈ machine.log, ∃ task ∈ machine.tasks,
    task.key = entry.key ∧ task.generation = entry.generation
  still : ∀ after, machine.Reaches work after →
    after.tasks = machine.tasks ∧ after.log = machine.log ∧ after.registry.live = []

/-- How things stand after a shutdown that was called at a machine. -/
structure Ends (start after : Machine σ ρ) : Prop where
  unlive : after.registry.live = []
  unscheduled : after.tasks.map Task.scheduled = start.tasks.map Task.scheduled
  /-- Nothing is noted but the ends of runs that were in progress. -/
  unstarted : ∃ entries, after.log = start.log ++ entries ∧
    ∀ entry ∈ entries, ∃ outcome, entry.note = .ended outcome
  /-- The tasks that the shutdown waits for are the last to finish. -/
  finished : start.registry.close.2.2.all (Machine.hasFinished after.tasks) = true → Over work after

theorem Task.not_running_of_isFinished {task : Task ρ} (ended : task.isFinished = true) :
    task.isRunning = false := by
  cases phase : task.phase <;> simp_all [isFinished, isRunning]

theorem Governed.retires {machine : Machine σ ρ} (governed : Governed machine.registry machine) :
    Retires work machine where
  cancelled task mem := by
    rw [← governed.governs.wanted task mem, Bool.not_eq_false]
  idle task mem cancelled := by
    rintro _ ⟨steps, rfl⟩
    exact .steps work governed mem cancelled steps

theorem Governed.ends {machine after : Machine σ ρ} (governed : Governed machine.registry machine)
    (opened : machine.registry.closed = false) (later : (machine.step work .close).Reaches work after) :
    Ends work machine after := by
  obtain ⟨steps, rfl⟩ := later
  have closing := Governed.upheld.step work governed .close
  have shut := (Shut.close work governed opened).steps work closing steps
  have sound := Governed.upheld.steps work steps closing
  refine ⟨shut.unlive, shut.scheduled, shut.quiet, fun finished => ?_⟩
  have ended := shut.finished sound.ordered finished
  refine ⟨fun task mem => ⟨ended task mem, Task.not_running_of_isFinished (ended task mem)⟩, ?_, ?_⟩
  · intro entry mem
    obtain ⟨task, present, key, generation, -⟩ := sound.noted.known entry mem
    exact ⟨task, present, key, generation⟩
  · rintro _ ⟨others, rfl⟩
    exact Machine.still work _ shut.closed shut.unlive ended others

def Call.isShutdown : Call → Bool
  | .shutdown _ => true
  | .observe .. | .forget .. | .advance _ => false

namespace Machine

/-- A wait that has returned has seen all tasks finish that it was for. -/
theorem awaitAll_returned {generations : List Nat} {instants : Nat} {machine : Machine σ ρ}
    (returned : (machine.awaitAll work generations instants).returned = true) :
    generations.all (hasFinished (machine.awaitAll work generations instants).machine.tasks) = true := by
  induction instants generalizing machine with
  | zero => cases returned
  | succ instants ih =>
      unfold awaitAll at returned ⊢
      dsimp only at returned ⊢
      split at returned
      · rename_i ended
        rwa [if_pos ended]
      · rename_i unfinished
        rw [if_neg unfinished]
        split at returned
        · cases returned
        · exact ih returned

theorem awaitAll_registry (generations : List Nat) (instants : Nat) (machine : Machine σ ρ) :
    (machine.awaitAll work generations instants).machine.registry = machine.registry := by
  induction instants generalizing machine with
  | zero => rfl
  | succ instants ih =>
      unfold awaitAll
      dsimp only
      split
      · rfl
      · split
        · rfl
        · exact ih _

theorem call_closed (machine : Machine σ ρ) (call : Call) :
    (machine.call work call).registry.closed = (machine.registry.closed || call.isShutdown) := by
  have observed (ns cluster : String) (specs : List (SetKey × AutoscalerSpec)) :
      (machine.observe ns cluster specs).registry.closed = machine.registry.closed := by
    simp only [observe, update_registry, Registry.observe_closed]
  cases call with
  | observe ns cluster specs => exact (observed ns cluster specs).trans (Bool.or_false _).symm
  | forget ns cluster => exact (observed ns cluster []).trans (Bool.or_false _).symm
  | advance ms =>
      simp only [Machine.call, advance, Call.isShutdown, Bool.or_false]
      split
      · rfl
      · rw [advanceTo_registry]
  | shutdown instants =>
      simp only [Machine.call, shutdown, stop, awaitAll_registry, update_registry, Registry.close_eq,
        Call.isShutdown, Bool.or_true]

theorem calls_closed (calls : List Call) (machine : Machine σ ρ) :
    (calls.foldl (call work) machine).registry.closed =
      (machine.registry.closed || calls.any Call.isShutdown) := by
  induction calls generalizing machine with
  | nil => simp
  | cons first rest ih => rw [List.foldl_cons, ih, call_closed, List.any_cons, Bool.or_assoc]

end Machine

/-- The tasks that a shutdown waits for are there, and it has cancelled them. -/
theorem Linked.awaited_cancelled {machine : Machine σ ρ} (linked : Linked machine.registry machine) :
    ∀ generation ∈ machine.registry.close.2.2, ∃ task ∈ (machine.step work .close).tasks,
      task.generation = generation ∧ task.cancelled = true := by
  have retired := Linked.upheld.retireAll (Linked.upheld.adopt machine.registry.close.1 linked)
    (machine.registry.live.map Scheduled.key)
  rw [← machine.step_close work] at retired
  have governs := (Linked.upheld.step work linked .close).governs
  have registry : (machine.step work .close).registry = machine.registry.close.1 :=
    Machine.update_registry _ _ _
  intro generation awaited
  rw [Registry.close_eq] at awaited
  obtain ⟨entry, listed, rfl⟩ := List.mem_map.mp awaited
  obtain ⟨task, mem, same⟩ := List.mem_map.mp (retired.retired entry listed)
  refine ⟨task, mem, same, (Bool.eq_false_or_eq_true _).resolve_right fun wanted => ?_⟩
  have live := (governs.wanted task mem).mp wanted
  rw [registry, Registry.close_unlive] at live
  cases live

/-- If every run returns, a shutdown that waits for long enough returns. -/
theorem Machine.stop_returns (timely : work.Timely) (allReturn : work.AllReturn) {state : σ}
    {machine : Machine σ ρ} (reached : Machine.Reaches work { state } machine) :
    ∃ enough after, ∀ instants, enough ≤ instants → machine.stop work instants = ⟨after, true⟩ := by
  obtain ⟨steps, rfl⟩ := reached
  have linked := linked_steps work steps state
  have lively := lively_steps allReturn steps state
  generalize steps.foldl (step work) { state } = machine at linked lively
  have closing := Linked.upheld.step work linked .close
  have underway : Underway work ((machine.step work .close).poll work) :=
    .poll timely allReturn closing (step_lively allReturn linked.toGoverned lively .close)
  refine (underway.all_finish timely allReturn fun generation awaited => ?_).awaitAll
  obtain ⟨task, mem, same, cancelled⟩ := linked.awaited_cancelled work generation awaited
  obtain ⟨later, present, stands⟩ := Task.exists_standing (machine.step work .close).poll_standing mem
  exact ⟨later, present, (Task.standing_generation stands).trans same,
    (Task.standing_cancelled stands).trans cancelled⟩

/-- Whatever steps have led to a machine, its cancelled tasks begin no further run, and the first
shutdown ends all tasks for good: when it returns, all of them are over, and it does return if runs do. Whatever
is asked of a machine comes down to such steps, and a shutdown is the first as long as there has been none among
the calls. -/
theorem retires_for_good (work : Workload σ ρ) (state : σ) :
    (∀ machine, Machine.Reaches work { state } machine → Retires work machine ∧
      (machine.registry.closed = false →
        (∀ after, (machine.step work .close).Reaches work after → Ends work machine after) ∧
        ∀ instants, (machine.stop work instants).returned = true →
          Over work (machine.call work (.shutdown instants))) ∧
      (work.Timely → work.AllReturn → ∃ enough after, ∀ instants, enough ≤ instants →
        machine.stop work instants = ⟨after, true⟩)) ∧
    (∀ calls : List Call, Machine.Reaches work { state } (calls.foldl (Machine.call work) { state }) ∧
      (calls.foldl (Machine.call work) { state }).registry.closed = calls.any Call.isShutdown) ∧
    ∀ (machine : Machine σ ρ) (instants : Nat),
      (machine.step work .close).Reaches work (machine.call work (.shutdown instants)) := by
  refine ⟨?_, fun calls => ⟨Machine.reaches_calls work calls _, ?_⟩,
    fun machine instants => Machine.reaches_shutdown work instants machine⟩
  · rintro _ ⟨steps, rfl⟩
    have governed := Machine.governed_steps work steps state
    refine ⟨governed.retires work, fun opened => ⟨fun after => governed.ends work opened, ?_⟩, ?_⟩
    · intro instants returned
      exact (governed.ends work opened (Machine.reaches_shutdown work instants _)).finished
        (Machine.awaitAll_returned work returned)
    · exact fun timely allReturn => Machine.stop_returns work timely allReturn ⟨steps, rfl⟩
  · rw [Machine.calls_closed]
    rfl

/-- Runs of three milliseconds, which take no notice of a cancellation. -/
def slow : Workload Unit ScriptedRun := scripted fun _ => { runMs := 3 }

/-- The task of a set is cancelled during a run, and its successor waits for it. -/
def succeeded : List Step :=
  let specs := [(bookies "a", .bookkeeper { enabled := true })]
  [.observe "ns" "a" specs, .elapse 10000, .wake 0, .observe "ns" "a" [], .observe "ns" "a" specs]

/-- A shutdown that waits for the successor only returns after the run of its predecessor. -/
theorem retires_for_good_succeeded :
    let machine := succeeded.foldl (Machine.step slow) { state := () }
    Over slow (machine.call slow (.shutdown 2)) ∧
      (∃ enough after, ∀ instants, enough ≤ instants → machine.stop slow instants = ⟨after, true⟩) ∧
      machine.tasks.map Task.isRunning = [true, false] ∧ machine.registry.close.2.2 = [2] ∧
      (machine.call slow (.shutdown 2)).log.map (fun entry => (entry.time, entry.generation, entry.note)) =
        [(0, 1, .built 10000), (10000, 1, .started), (10000, 2, .built 10000), (10003, 1, .ended .ok)] := by
  intro machine
  obtain ⟨-, returned, returns⟩ := (retires_for_good slow ()).1 machine ⟨succeeded, rfl⟩
  refine ⟨(returned (by decide +kernel)).2 2 (by decide +kernel),
    returns (scripted_timely _) (scripted_allReturn _), ?_, ?_, ?_⟩
  · decide +kernel
  · decide +kernel
  · decide +kernel

end SetScaler.Schedule
