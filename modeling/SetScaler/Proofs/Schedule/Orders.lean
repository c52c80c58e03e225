import SetScaler.Proofs.Schedule.Steps
import SetScaler.Proofs.Schedule.Task

/-!
# What every step keeps

A change of the registry comes down to forgetting, retiring and launching, and every other step is
that of one task. What all of these keep is kept by every run of the machine (`Upheld.steps`).
-/

namespace SetScaler.Schedule

variable {σ ρ : Type}

namespace Registry

theorem retire_kept (registry : Registry) (key : SetKey) :
    (registry.retire key).1.next = registry.next ∧ (registry.retire key).1.closed = registry.closed := by
  unfold retire
  split <;> exact ⟨rfl, rfl⟩

theorem retire_orders (registry : Registry) (key : SetKey) :
    (registry.retire key).2 = [] ∨ ∃ generation, (registry.retire key).2 = [.cancel generation] := by
  unfold retire
  split
  · exact .inl rfl
  · exact .inr ⟨_, rfl⟩

theorem retire_unlive (registry : Registry) (key : SetKey) :
    ∀ scheduled ∈ (registry.retire key).1.live, scheduled.key ≠ key := by
  unfold retire
  split
  · rename_i none
    intro scheduled mem
    simpa using List.find?_eq_none.mp none scheduled mem
  · intro scheduled mem
    simpa using (List.mem_filter.mp mem).2

theorem retireAll_closed (registry : Registry) (keys : List SetKey) :
    (registry.retireAll keys).1.closed = registry.closed := by
  induction keys generalizing registry with
  | nil => rfl
  | cons key rest ih => exact (ih _).trans (registry.retire_kept key).2

theorem retireAll_next (registry : Registry) (keys : List SetKey) :
    (registry.retireAll keys).1.next = registry.next := by
  induction keys generalizing registry with
  | nil => rfl
  | cons key rest ih => exact (ih _).trans (registry.retire_kept key).1

theorem align_closed (registry : Registry) (key : SetKey) (spec : AutoscalerSpec) :
    (registry.align key spec).1.closed = registry.closed := by
  unfold align
  dsimp only
  split
  · rfl
  · split <;> exact (registry.retire_kept key).2

theorem alignAll_closed (registry : Registry) (specs : List (SetKey × AutoscalerSpec)) :
    (registry.alignAll specs).1.closed = registry.closed := by
  induction specs generalizing registry with
  | nil => rfl
  | cons first rest ih => exact (ih _).trans (registry.align_closed first.1 first.2)

theorem observe_closed (registry : Registry) (finished : Nat → Bool) (ns cluster : String)
    (specs : List (SetKey × AutoscalerSpec)) :
    (registry.observe finished ns cluster specs).1.closed = registry.closed := by
  unfold observe
  split
  · rfl
  · exact (alignAll_closed _ _).trans (retireAll_closed _ _)

end Registry

namespace Machine

/-- A step that is none of the registry: time passes, or one task goes on, having heard of some of the
tasks that have finished. -/
inductive Passes (machine : Machine σ ρ) : Machine σ ρ → Prop where
  | unmoved : Passes machine machine
  | elapsed (time : Nat) : Passes machine (machine.jump time)
  | went {index : Nat} {task after : Task ρ} {entries : List Entry} {heard : Nat → Bool} {state : σ} :
      machine.tasks[index]? = some task →
      (∀ generation, heard generation = true → hasFinished machine.tasks generation = true) →
      task.Becomes machine.time heard after entries →
      Passes machine (machine.put index (after, entries, state))

namespace Passes

variable {machine after : Machine σ ρ}

theorem registry_eq (passes : machine.Passes after) : after.registry = machine.registry := by
  cases passes <;> rfl

theorem follows (passes : machine.Passes after) :
    ∀ later ∈ after.tasks, ∃ task ∈ machine.tasks, task.Follows (hasFinished machine.tasks) later := by
  cases passes with
  | unmoved | elapsed => exact fun task mem => ⟨task, mem, .refl _ task⟩
  | @went index task _ _ _ _ present true_news becomes =>
      intro later mem
      rcases List.mem_or_eq_of_mem_set mem with mem | rfl
      · exact ⟨later, mem, .refl _ later⟩
      · exact ⟨task, List.mem_of_getElem? present, becomes.follows.mono true_news⟩

/-- What cannot change about a task in such a step stays as it is for each of them. -/
theorem map_eq {α : Type} (passes : machine.Passes after) (feature : Task ρ → α)
    (fixed : ∀ {time : Nat} {heard : Nat → Bool} {task later : Task ρ} {entries : List Entry},
      task.Becomes time heard later entries → feature later = feature task) :
    after.tasks.map feature = machine.tasks.map feature := by
  cases passes with
  | unmoved | elapsed => rfl
  | went present _ becomes =>
      obtain ⟨inside, rfl⟩ := List.getElem?_eq_some_iff.mp present
      simp only [put]
      rw [List.map_set, fixed becomes, ← List.map_set, List.set_getElem_self]

end Passes

theorem settle_passes (work : Workload σ ρ) (machine : Machine σ ρ) (index : Nat) (known : Nat → Bool) :
    machine.Passes (machine.step work (.settle index known)) := by
  simp only [step]
  split
  · exact .unmoved
  · rename_i task present
    refine .went present ?_ (task.settle_becomes work machine.time _ machine.state)
    intro generation heard
    exact (Bool.and_eq_true_iff.mp heard).2

theorem wake_passes (work : Workload σ ρ) (machine : Machine σ ρ) (index : Nat) :
    machine.Passes (machine.step work (.wake index)) := by
  simp only [step]
  split
  · exact .unmoved
  · rename_i task present
    exact .went present (fun _ heard => heard)
      (task.wake_becomes work machine.time (hasFinished machine.tasks) machine.state)

theorem update_registry (machine : Machine σ ρ) (registry : Registry) (orders : List Order) :
    (machine.update registry orders).registry = registry := by
  have kept (machine : Machine σ ρ) (order : Order) :
      (machine.obey order).registry = machine.registry := by
    cases order <;> rfl
  have fold (machine : Machine σ ρ) : (orders.foldl obey machine).registry = machine.registry := by
    induction orders generalizing machine with
    | nil => rfl
    | cons order rest ih => exact (ih _).trans (kept machine order)
  exact fold _

end Machine

/-- A relation between a registry and a machine that is kept by all that happens. The machine takes
over the registry only after the change, so that the two come apart meanwhile. -/
structure Upheld (holds : Registry → Machine σ ρ → Prop) : Prop where
  adopt {registry : Registry} {machine : Machine σ ρ} (other : Registry) : holds registry machine →
    holds registry { machine with registry := other }
  prune {registry : Registry} {machine : Machine σ ρ} : holds registry machine →
    holds (registry.prune (Machine.hasFinished machine.tasks)) machine
  retire {registry : Registry} {machine : Machine σ ρ} (key : SetKey) : holds registry machine →
    holds (registry.retire key).1 ((registry.retire key).2.foldl Machine.obey machine)
  launch {registry : Registry} {machine : Machine σ ρ} {key : SetKey} (spec : AutoscalerSpec) :
    registry.closed = false → (∀ scheduled ∈ registry.live, scheduled.key ≠ key) →
    holds registry machine →
    holds (registry.launch key spec).1 ((registry.launch key spec).2.foldl Machine.obey machine)
  shut {registry : Registry} {machine : Machine σ ρ} : holds registry machine →
    holds { registry with closed := true } machine
  drain {registry : Registry} {machine : Machine σ ρ} : registry.closed = true →
    holds registry machine → holds { registry with retiring := [] } machine
  pass {machine after : Machine σ ρ} : machine.Passes after → holds machine.registry machine →
    holds after.registry after

namespace Upheld

variable {holds : Registry → Machine σ ρ → Prop} {registry : Registry} {machine : Machine σ ρ}

theorem retireAll (upheld : Upheld holds) (held : holds registry machine) (keys : List SetKey) :
    holds (registry.retireAll keys).1 ((registry.retireAll keys).2.foldl Machine.obey machine) := by
  induction keys generalizing registry machine with
  | nil => exact held
  | cons key rest ih =>
      have both := ih (upheld.retire key held)
      rw [← List.foldl_append] at both
      exact both

theorem align (upheld : Upheld holds) (held : holds registry machine) (opened : registry.closed = false)
    (key : SetKey) (spec : AutoscalerSpec) :
    holds (registry.align key spec).1 ((registry.align key spec).2.foldl Machine.obey machine) := by
  have retired := upheld.retire key held
  have open_still : (registry.retire key).1.closed = false :=
    (registry.retire_kept key).2.trans opened
  unfold Registry.align
  dsimp only
  split
  · exact held
  · split
    · have launched := upheld.launch spec open_still (registry.retire_unlive key) retired
      rw [← List.foldl_append] at launched
      exact launched
    · exact retired

theorem alignAll (upheld : Upheld holds) (held : holds registry machine)
    (opened : registry.closed = false) (specs : List (SetKey × AutoscalerSpec)) :
    holds (registry.alignAll specs).1 ((registry.alignAll specs).2.foldl Machine.obey machine) := by
  induction specs generalizing registry machine with
  | nil => exact held
  | cons first rest ih =>
      have aligned := upheld.align held opened first.1 first.2
      have both := ih aligned ((registry.align_closed first.1 first.2).trans opened)
      rw [← List.foldl_append] at both
      exact both

theorem observe (upheld : Upheld holds) (held : holds registry machine) (ns cluster : String)
    (specs : List (SetKey × AutoscalerSpec)) :
    holds (registry.observe (Machine.hasFinished machine.tasks) ns cluster specs).1
      ((registry.observe (Machine.hasFinished machine.tasks) ns cluster specs).2.foldl Machine.obey
        machine) := by
  unfold Registry.observe
  by_cases closed : registry.closed = true
  · rw [if_pos closed]
    exact held
  · have opened : registry.closed = false := by simpa using closed
    rw [if_neg closed]
    have retired := upheld.retireAll (upheld.prune held)
      ((registry.prune (Machine.hasFinished machine.tasks)).gone ns cluster specs)
    have aligned := upheld.alignAll retired ((Registry.retireAll_closed _ _).trans opened) specs
    rw [← List.foldl_append] at aligned
    exact aligned

theorem close (upheld : Upheld holds) (held : holds registry machine) :
    holds registry.close.1 (registry.close.2.1.foldl Machine.obey machine) :=
  upheld.drain (Registry.retireAll_closed _ _)
    (upheld.retireAll (upheld.shut held) (registry.live.map Scheduled.key))

theorem step (upheld : Upheld holds) (work : Workload σ ρ) (held : holds machine.registry machine)
    (next : Step) : holds (machine.step work next).registry (machine.step work next) := by
  cases next with
  | observe ns cluster specs =>
      have adopted := upheld.adopt
        (machine.registry.observe (Machine.hasFinished machine.tasks) ns cluster specs).1 held
      have observed := upheld.observe adopted ns cluster specs
      simp only [Machine.step, Machine.observe, Machine.update_registry]
      exact observed
  | close =>
      simp only [Machine.step, Machine.update_registry]
      exact upheld.close (upheld.adopt _ held)
  | elapse ms => exact upheld.pass (.elapsed _) held
  | settle index known => exact upheld.pass (machine.settle_passes work index known) held
  | wake index => exact upheld.pass (machine.wake_passes work index) held

theorem steps (upheld : Upheld holds) (work : Workload σ ρ) (steps : List Step)
    (held : holds machine.registry machine) :
    holds (steps.foldl (Machine.step work) machine).registry
      (steps.foldl (Machine.step work) machine) := by
  induction steps generalizing machine with
  | nil => exact held
  | cons next rest ih => exact ih (upheld.step work held next)

end Upheld
end SetScaler.Schedule
