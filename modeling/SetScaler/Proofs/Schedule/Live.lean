import Mathlib.Data.List.Nodup
import SetScaler.Proofs.Schedule.Exclusion

/-!
# Live tasks

The live tasks of the registry, one for each set at most, are those that have not been cancelled
(`Governs`).
-/

namespace SetScaler.Schedule

variable {σ ρ : Type}

/-- What tells whether a task is live. -/
def Task.standing (task : Task ρ) : Scheduled × Bool := (task.scheduled, task.cancelled)

theorem Task.Becomes.standing {time : Nat} {finished : Nat → Bool} {task after : Task ρ}
    {entries : List Entry} (becomes : task.Becomes time finished after entries) :
    after.standing = task.standing :=
  Prod.ext becomes.follows.scheduled becomes.cancelled_eq

namespace Task

variable {tasks afters : List (Task ρ)} {task after : Task ρ}

theorem standing_scheduled (stands : after.standing = task.standing) : after.scheduled = task.scheduled :=
  congrArg Prod.fst stands

theorem standing_cancelled (stands : after.standing = task.standing) : after.cancelled = task.cancelled :=
  congrArg Prod.snd stands

theorem standing_generation (stands : after.standing = task.standing) : after.generation = task.generation :=
  congrArg Scheduled.generation (standing_scheduled stands)

/-- Where tasks stand as before, each of them is found again. -/
theorem exists_standing (same : afters.map standing = tasks.map standing) (mem : task ∈ tasks) :
    ∃ after ∈ afters, after.standing = task.standing :=
  List.mem_map.mp (same ▸ List.mem_map_of_mem mem)

end Task

/-- The tasks that are live for a registry are those that have not been cancelled. -/
structure Registry.Governs (registry : Registry) (tasks : List (Task ρ)) : Prop where
  distinct : (registry.live.map Scheduled.key).Nodup
  owned : ∀ scheduled ∈ registry.live, ∃ task ∈ tasks, task.scheduled = scheduled
  wanted : ∀ task ∈ tasks, task.cancelled = false ↔ task.scheduled ∈ registry.live

namespace Registry.Governs

variable {registry : Registry} {tasks afters : List (Task ρ)} {machine : Machine σ ρ}

theorem eq_of_key (governs : registry.Governs tasks) {scheduled other : Scheduled}
    (mem : scheduled ∈ registry.live) (present : other ∈ registry.live)
    (same : scheduled.key = other.key) : scheduled = other :=
  List.inj_on_of_nodup_map governs.distinct mem present same

theorem congr (governs : registry.Governs tasks)
    (same : afters.map Task.standing = tasks.map Task.standing) : registry.Governs afters := by
  refine ⟨governs.distinct, fun scheduled mem => ?_, fun after mem => ?_⟩
  · obtain ⟨task, present, rfl⟩ := governs.owned scheduled mem
    obtain ⟨after, listed, stands⟩ := Task.exists_standing same present
    exact ⟨after, listed, Task.standing_scheduled stands⟩
  · obtain ⟨task, present, stands⟩ := Task.exists_standing same.symm mem
    rw [← Task.standing_scheduled stands, ← Task.standing_cancelled stands]
    exact governs.wanted task present

theorem retire (governs : registry.Governs machine.tasks) (ordered : Ordered machine.tasks)
    (key : SetKey) : (registry.retire key).1.Governs
      ((registry.retire key).2.foldl Machine.obey machine).tasks := by
  unfold Registry.retire
  cases found : registry.find? key with
  | none => exact governs
  | some scheduled =>
      have mem : scheduled ∈ registry.live := List.mem_of_find?_eq_some found
      have own : scheduled.key = key := by simpa using List.find?_some found
      obtain ⟨owner, present, rfl⟩ := governs.owned scheduled mem
      refine ⟨?_, fun other left => ?_, List.forall_mem_map.mpr fun task listed => ?_⟩
      · exact governs.distinct.sublist (List.filter_sublist.map _)
      · obtain ⟨task, listed, rfl⟩ := governs.owned other (List.mem_filter.mp left).1
        exact ⟨task.cancelFor owner.generation, List.mem_map_of_mem listed,
          task.cancelFor_scheduled owner.generation⟩
      · change (task.cancelFor owner.generation).cancelled = false ↔
          (task.cancelFor owner.generation).scheduled ∈ _
        rw [task.cancelFor_cancelled, task.cancelFor_scheduled, List.mem_filter, bne_iff_ne]
        by_cases chosen : task.generation = owner.generation
        · -- the cancelled task is the one that was live
          rw [ordered.eq_of_generation listed present chosen]
          simp [own]
        · rw [beq_eq_false_iff_ne.mpr chosen, Bool.or_false, governs.wanted task listed]
          refine ⟨fun live => ⟨live, fun same => chosen ?_⟩, And.left⟩
          rw [Task.generation, governs.eq_of_key live mem (same.trans own.symm)]

theorem launch (governs : registry.Governs machine.tasks)
    (below : ∀ task ∈ machine.tasks, task.generation < registry.next) {key : SetKey}
    (unlive : ∀ scheduled ∈ registry.live, scheduled.key ≠ key) (spec : AutoscalerSpec) :
    (registry.launch key spec).1.Governs
      ((registry.launch key spec).2.foldl Machine.obey machine).tasks := by
  have old {task : Task ρ} (mem : task ∈ machine.tasks) :
      task.scheduled ≠ ⟨key, spec, registry.next⟩ := by
    intro same
    have lower := below task mem
    rw [Task.generation, same] at lower
    exact Nat.lt_irrefl _ lower
  refine ⟨?_, fun scheduled mem => ?_, fun task mem => ?_⟩
  · simp only [Registry.launch, List.map_append, List.map_singleton]
    refine List.Nodup.append governs.distinct (List.nodup_singleton _) ?_
    simpa using fun scheduled mem => unlive scheduled mem
  · rcases List.mem_append.mp mem with mem | mem
    · obtain ⟨task, present, same⟩ := governs.owned scheduled mem
      exact ⟨task, List.mem_append_left _ present, same⟩
    · rw [List.mem_singleton.mp mem]
      exact ⟨_, List.mem_append_right _ (List.mem_singleton_self _), rfl⟩
  · rcases List.mem_append.mp mem with mem | mem
    · rw [governs.wanted task mem]
      simp [Registry.launch, old mem]
    · rw [List.mem_singleton.mp mem]
      simp [Registry.launch]

end Registry.Governs

/-- A registry and the tasks of a machine fit together, and the live tasks are at work. -/
structure Governed (registry : Registry) (machine : Machine σ ρ) : Prop
    extends Sound registry machine where
  governs : registry.Governs machine.tasks

namespace Governed

theorem upheld : Upheld (Governed (σ := σ) (ρ := ρ)) where
  adopt other governed := ⟨Sound.upheld.adopt other governed.toSound, governed.governs⟩
  prune governed := ⟨Sound.upheld.prune governed.toSound,
    governed.governs.distinct, governed.governs.owned, governed.governs.wanted⟩
  retire key governed := ⟨governed.toSound.retire key, governed.governs.retire governed.ordered key⟩
  launch spec opened unlive governed := ⟨governed.toSound.launch opened unlive spec,
    governed.governs.launch governed.below unlive spec⟩
  shut governed := ⟨Sound.upheld.shut governed.toSound,
    governed.governs.distinct, governed.governs.owned, governed.governs.wanted⟩
  drain closed governed := ⟨Sound.upheld.drain closed governed.toSound,
    governed.governs.distinct, governed.governs.owned, governed.governs.wanted⟩
  pass passes governed := by
    refine ⟨governed.toSound.pass passes, ?_⟩
    rw [passes.registry_eq]
    exact governed.governs.congr (passes.map_eq Task.standing Task.Becomes.standing)

theorem initial (state : σ) : Governed {} ({ state } : Machine σ ρ) :=
  ⟨.initial state, by simp, by simp, by simp⟩

end Governed

theorem Machine.governed_steps (work : Workload σ ρ) (steps : List Step) (state : σ) :
    Governed (steps.foldl (step work) { state }).registry (steps.foldl (step work) { state }) :=
  have started : Governed ({ state } : Machine σ ρ).registry { state } := .initial state
  Governed.upheld.steps work steps started

end SetScaler.Schedule
