import SetScaler.Proofs.Schedule.Live

/-!
# Predecessors

A task that waits does so for the task of its set right before it, which is one of those there are
(`Linked.previous?`) and has been cancelled.
-/

namespace SetScaler.Schedule

variable {σ ρ : Type}

namespace Scheduled

/-- The generation of the task of a set right before a task. -/
def previous? (scheduled : Scheduled) (issued : List Scheduled) : Option Nat :=
  ((issued.filter fun other =>
    other.key == scheduled.key && decide (other.generation < scheduled.generation)).map generation).max?

variable {scheduled : Scheduled} {issued fresh : List Scheduled}

theorem previous?_eq_some_iff {predecessor : Nat} : scheduled.previous? issued = some predecessor ↔
    (∃ other ∈ issued, other.key = scheduled.key ∧ other.generation < scheduled.generation ∧
      other.generation = predecessor) ∧
    ∀ other ∈ issued, other.key = scheduled.key → other.generation < scheduled.generation →
      other.generation ≤ predecessor := by
  rw [previous?, List.max?_eq_some_iff, List.forall_mem_map]
  simp only [List.mem_map, List.mem_filter, Bool.and_eq_true, beq_iff_eq, decide_eq_true_eq, and_assoc,
    and_imp]

theorem previous?_append (newer : ∀ other ∈ fresh, scheduled.generation < other.generation) :
    scheduled.previous? (issued ++ fresh) = scheduled.previous? issued := by
  have later : (fresh.filter fun other =>
      other.key == scheduled.key && decide (other.generation < scheduled.generation)) = [] := by
    refine List.filter_eq_nil_iff.mpr fun other mem => ?_
    simp [Nat.not_lt_of_gt (newer other mem)]
  rw [previous?, List.filter_append, later, List.append_nil, previous?]

end Scheduled

/-- Of the tasks of a set all but the last have been cancelled. -/
def Superseded (tasks : List (Task ρ)) : Prop :=
  ∀ task ∈ tasks, ∀ later ∈ tasks, later.key = task.key → task.generation < later.generation →
    task.cancelled = true

namespace Superseded

variable {tasks afters : List (Task ρ)}

theorem cancelFor (superseded : Superseded tasks) (generation : Nat) :
    Superseded (tasks.map (Task.cancelFor generation)) := by
  refine List.forall_mem_map.mpr fun task mem => List.forall_mem_map.mpr fun later present same lower => ?_
  simp only [Task.key, Task.generation, Task.cancelFor_scheduled] at same lower
  rw [task.cancelFor_cancelled, superseded task mem later present same lower, Bool.true_or]

theorem congr (superseded : Superseded tasks)
    (same : afters.map Task.standing = tasks.map Task.standing) : Superseded afters := by
  have origin {after : Task ρ} (mem : after ∈ afters) : ∃ task ∈ tasks, task.standing = after.standing :=
    List.mem_map.mp (same ▸ List.mem_map_of_mem mem)
  intro after mem last present keys lower
  obtain ⟨task, old, equal⟩ := origin mem
  obtain ⟨later, older, equals⟩ := origin present
  obtain ⟨scheduled, cancelled⟩ := Prod.mk.inj equal
  obtain ⟨its, -⟩ := Prod.mk.inj equals
  rw [Task.key, Task.key, ← its, ← scheduled] at keys
  rw [Task.generation, Task.generation, ← its, ← scheduled] at lower
  exact cancelled ▸ superseded task old later older keys lower

end Superseded

/-- A task that is waited for is one of those there are. -/
structure Linked (registry : Registry) (machine : Machine σ ρ) : Prop
    extends Governed registry machine where
  retired : ∀ entry ∈ registry.retiring, entry.2 ∈ machine.tasks.map Task.generation
  awaited : ∀ task ∈ machine.tasks, ∀ predecessor, task.predecessor? = some predecessor →
    predecessor ∈ machine.tasks.map Task.generation
  superseded : Superseded machine.tasks

namespace Linked

variable {registry : Registry} {machine : Machine σ ρ}

theorem retire (linked : Linked registry machine) (key : SetKey) :
    Linked (registry.retire key).1 ((registry.retire key).2.foldl Machine.obey machine) := by
  have governed := Governed.upheld.retire key linked.toGoverned
  unfold Registry.retire at governed ⊢
  cases found : registry.find? key with
  | none => exact linked
  | some scheduled =>
      rw [found] at governed
      obtain ⟨owner, present, rfl⟩ :=
        linked.governs.owned scheduled (List.mem_of_find?_eq_some found)
      have same : (machine.tasks.map (Task.cancelFor owner.generation)).map Task.generation =
          machine.tasks.map Task.generation := by
        rw [List.map_map]
        refine List.map_congr_left fun task _ => ?_
        exact (task.cancelFor_follows owner.generation fun _ => true).generation
      refine ⟨governed, fun entry mem => ?_, List.forall_mem_map.mpr fun task mem predecessor waits => ?_,
        linked.superseded.cancelFor owner.generation⟩
      · change entry.2 ∈ (machine.tasks.map (Task.cancelFor owner.generation)).map Task.generation
        rw [same]
        rcases List.mem_cons.mp mem with rfl | listed
        · exact List.mem_map_of_mem present
        · exact linked.retired entry (List.mem_filter.mp listed).1
      · change predecessor ∈ (machine.tasks.map (Task.cancelFor owner.generation)).map Task.generation
        rw [same]
        have follows := task.cancelFor_follows owner.generation fun _ => true
        exact linked.awaited task mem predecessor (follows.waiting predecessor waits).1

theorem launch (linked : Linked registry machine) (opened : registry.closed = false) {key : SetKey}
    (unlive : ∀ scheduled ∈ registry.live, scheduled.key ≠ key) (spec : AutoscalerSpec) :
    Linked (registry.launch key spec).1 ((registry.launch key spec).2.foldl Machine.obey machine) := by
  have grown {generation : Nat} (old : generation ∈ machine.tasks.map Task.generation) :
      generation ∈ ((registry.launch key spec).2.foldl Machine.obey machine).tasks.map Task.generation := by
    obtain ⟨task, mem, rfl⟩ := List.mem_map.mp old
    exact List.mem_map_of_mem (List.mem_append_left _ mem)
  refine ⟨Governed.upheld.launch spec opened unlive linked.toGoverned, fun entry mem => ?_,
    fun task mem predecessor waits => ?_, fun task mem later present same lower => ?_⟩
  · exact grown (linked.retired entry (List.mem_filter.mp mem).1)
  · rcases List.mem_append.mp mem with mem | mem
    · exact grown (linked.awaited task mem predecessor waits)
    · obtain rfl := List.mem_singleton.mp mem
      have looked : registry.retiring.lookup key = some predecessor :=
        (Task.fresh_predecessor (ρ := ρ) ⟨key, spec, registry.next⟩ _ _).symm.trans waits
      obtain ⟨front, back, split, -⟩ := List.lookup_eq_some_iff.mp looked
      exact grown (linked.retired (key, predecessor) (by simp [split]))
  · rcases List.mem_append.mp mem with mem | mem
    · rcases List.mem_append.mp present with present | present
      · exact linked.superseded task mem later present same lower
      · -- the task is not live, its set having no live one
        obtain rfl := List.mem_singleton.mp present
        refine (Bool.eq_false_or_eq_true _).resolve_right fun wanted => ?_
        exact unlive _ ((linked.governs.wanted task mem).mp wanted) same.symm
    · obtain rfl := List.mem_singleton.mp mem
      rcases List.mem_append.mp present with present | present
      · exact absurd (linked.below later present) (Nat.not_lt_of_gt lower)
      · obtain rfl := List.mem_singleton.mp present
        exact absurd lower (Nat.lt_irrefl _)

theorem upheld : Upheld (Linked (σ := σ) (ρ := ρ)) where
  adopt other linked := ⟨Governed.upheld.adopt other linked.toGoverned, linked.retired, linked.awaited,
    linked.superseded⟩
  prune linked := ⟨Governed.upheld.prune linked.toGoverned,
    fun entry mem => linked.retired entry (List.mem_filter.mp mem).1, linked.awaited, linked.superseded⟩
  retire key linked := linked.retire key
  launch spec opened unlive linked := linked.launch opened unlive spec
  shut linked := ⟨Governed.upheld.shut linked.toGoverned, linked.retired, linked.awaited, linked.superseded⟩
  drain closed linked := ⟨Governed.upheld.drain closed linked.toGoverned, by simp, linked.awaited,
    linked.superseded⟩
  pass {machine after} passes linked := by
    have same := passes.map_eq Task.generation fun becomes => becomes.follows.generation
    refine ⟨Governed.upheld.pass passes linked.toGoverned, ?_, fun later mem predecessor waits => ?_,
      linked.superseded.congr (passes.map_eq Task.standing Task.Becomes.standing)⟩
    · rw [passes.registry_eq, same]
      exact linked.retired
    · obtain ⟨task, present, follow⟩ := passes.follows later mem
      rw [same]
      exact linked.awaited task present predecessor (follow.waiting predecessor waits).1

theorem initial (state : σ) : Linked {} ({ state } : Machine σ ρ) :=
  ⟨.initial state, by simp, by simp, by simp [Superseded]⟩

/-- A task waits for the one of its set right before it. -/
theorem previous? (linked : Linked registry machine) {task : Task ρ} (mem : task ∈ machine.tasks)
    {predecessor : Nat} (waits : task.predecessor? = some predecessor) :
    task.scheduled.previous? (machine.tasks.map Task.scheduled) = some predecessor := by
  obtain ⟨other, present, rfl⟩ := List.mem_map.mp (linked.awaited task mem predecessor waits)
  obtain ⟨-, lower, owns, last⟩ := linked.ordered.waiting task mem _ waits
  refine Scheduled.previous?_eq_some_iff.mpr ⟨?_, List.forall_mem_map.mpr last⟩
  exact ⟨other.scheduled, List.mem_map_of_mem present, owns other present rfl, lower, rfl⟩

end Linked

theorem Machine.linked_steps (work : Workload σ ρ) (steps : List Step) (state : σ) :
    Linked (steps.foldl (step work) { state }).registry (steps.foldl (step work) { state }) :=
  have started : Linked ({ state } : Machine σ ρ).registry { state } := .initial state
  Linked.upheld.steps work steps started

end SetScaler.Schedule
