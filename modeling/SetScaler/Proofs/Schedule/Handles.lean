import SetScaler.Proofs.Schedule.Task

/-!
# Who waits for whom

The registry knows the newest task of every set until that has finished (`Registry.Knows`), so that
each new task waits for the one before it. Hence a task that is past its wait comes after all earlier
ones of its set (`Ordered`).
-/

namespace SetScaler.Schedule

variable {ρ : Type} {tasks afters : List (Task ρ)}

/-- Of all tasks there have ever been, one that waits for nobody comes after the end of every earlier
one of its set, and one that waits does so for the one right before it. -/
structure Ordered (tasks : List (Task ρ)) : Prop where
  ascending : tasks.Pairwise fun task other => task.generation < other.generation
  begun : ∀ task ∈ tasks, task.predecessor? = none → ∀ other ∈ tasks, other.key = task.key →
    other.generation < task.generation → other.isFinished = true
  waiting : ∀ task ∈ tasks, ∀ predecessor, task.predecessor? = some predecessor →
    task.runs = 0 ∧ predecessor < task.generation ∧
      (∀ other ∈ tasks, other.generation = predecessor → other.key = task.key) ∧
      ∀ other ∈ tasks, other.key = task.key → other.generation < task.generation →
        other.generation ≤ predecessor

theorem finished_of_hasFinished {generation : Nat}
    (ended : Machine.hasFinished tasks generation = true) :
    ∃ task ∈ tasks, task.generation = generation ∧ task.isFinished = true := by
  obtain ⟨task, mem, found⟩ := List.any_eq_true.mp ended
  rw [Bool.and_eq_true, beq_iff_eq] at found
  exact ⟨task, mem, found.1, found.2⟩

theorem hasFinished_of_mem {task : Task ρ} (mem : task ∈ tasks) (finished : task.isFinished = true) :
    Machine.hasFinished tasks task.generation = true :=
  List.any_eq_true.mpr ⟨task, mem, by rw [beq_self_eq_true, finished, Bool.and_self]⟩

theorem Task.predecessor_of_finished {task : Task ρ} (ended : task.isFinished = true) :
    task.predecessor? = none := by
  cases phase : task.phase <;> simp_all [isFinished, predecessor?]

namespace Ordered

theorem eq_of_generation (ordered : Ordered tasks) {task other : Task ρ} (mem : task ∈ tasks)
    (present : other ∈ tasks) (same : task.generation = other.generation) : task = other := by
  obtain ⟨i, inside, rfl⟩ := List.mem_iff_getElem.mp mem
  obtain ⟨j, within, rfl⟩ := List.mem_iff_getElem.mp present
  have ascending := List.pairwise_iff_getElem.mp ordered.ascending
  rcases Nat.lt_trichotomy i j with lower | rfl | higher
  · have less := ascending i j inside within lower
    omega
  · rfl
  · have more := ascending j i within inside higher
    omega

/-- Once a task has finished, so have all earlier ones of its set. -/
theorem finished_upto (ordered : Ordered tasks) {task other : Task ρ} (mem : task ∈ tasks)
    (ended : task.isFinished = true) (present : other ∈ tasks) (same : other.key = task.key)
    (upto : other.generation ≤ task.generation) : other.isFinished = true := by
  rcases Nat.lt_or_eq_of_le upto with earlier | equal
  · exact ordered.begun task mem (Task.predecessor_of_finished ended) other present same earlier
  · rw [ordered.eq_of_generation present mem equal]
    exact ended

theorem follow (ordered : Ordered tasks)
    (same : afters.map Task.scheduled = tasks.map Task.scheduled)
    (follows : ∀ after ∈ afters, ∃ task ∈ tasks, task.Follows (Machine.hasFinished tasks) after) :
    Ordered afters := by
  refine ⟨?_, ?_, ?_⟩
  · have ascending := ordered.ascending
    have before : (tasks.map Task.scheduled).Pairwise fun first second =>
        first.generation < second.generation := List.pairwise_map.mpr ascending
    rw [← same, List.pairwise_map] at before
    exact before
  · intro after mem free other present keys earlier
    obtain ⟨task, old, became⟩ := follows after mem
    obtain ⟨peer, older, follow⟩ := follows other present
    rw [became.key, follow.key] at keys
    rw [became.generation, follow.generation] at earlier
    refine follow.finished ?_
    cases waits : task.predecessor? with
    | none => exact ordered.begun task old waits peer older keys earlier
    | some predecessor =>
        -- just freed: its predecessor has finished, and so have all before that one
        obtain ⟨-, -, owns, last⟩ := ordered.waiting task old predecessor waits
        obtain ⟨first, found, rfl, ended⟩ := finished_of_hasFinished (became.freed _ waits free)
        have upto := last peer older keys earlier
        exact ordered.finished_upto found ended older (keys.trans (owns first found rfl).symm) upto
  · intro after mem predecessor waits
    obtain ⟨task, old, became⟩ := follows after mem
    obtain ⟨waited, unbegun⟩ := became.waiting predecessor waits
    obtain ⟨runs, lower, owns, last⟩ := ordered.waiting task old predecessor waited
    rw [became.key, became.generation]
    refine ⟨unbegun.trans runs, lower, ?_, ?_⟩
    · intro other present equal
      obtain ⟨peer, older, follow⟩ := follows other present
      rw [follow.generation] at equal
      rw [follow.key]
      exact owns peer older equal
    · intro other present keys earlier
      obtain ⟨peer, older, follow⟩ := follows other present
      rw [follow.key] at keys
      rw [follow.generation] at earlier ⊢
      exact last peer older keys earlier

end Ordered

/-- The task of a generation belongs to a set, and is the last one of it. -/
def Newest (tasks : List (Task ρ)) (key : SetKey) (generation : Nat) : Prop :=
  (∀ task ∈ tasks, task.generation = generation → task.key = key) ∧
    ∀ task ∈ tasks, task.key = key → task.generation ≤ generation

theorem Newest.follow {key : SetKey} {generation : Nat} (newest : Newest tasks key generation)
    (follows : ∀ after ∈ afters, ∃ task ∈ tasks, task.Follows (Machine.hasFinished tasks) after) :
    Newest afters key generation := by
  refine ⟨fun after mem equal => ?_, fun after mem same => ?_⟩
  · obtain ⟨task, old, became⟩ := follows after mem
    rw [became.generation] at equal
    rw [became.key]
    exact newest.1 task old equal
  · obtain ⟨task, old, became⟩ := follows after mem
    rw [became.key] at same
    rw [became.generation]
    exact newest.2 task old same

/-- The newest task of a set is live or retiring, unless all tasks of the set have finished. -/
structure Registry.Knows (registry : Registry) (tasks : List (Task ρ)) : Prop where
  live : ∀ scheduled ∈ registry.live, scheduled.generation < registry.next ∧
    Newest tasks scheduled.key scheduled.generation
  retiring : ∀ entry ∈ registry.retiring, entry.2 < registry.next ∧ Newest tasks entry.1 entry.2
  free : ∀ key, (∀ scheduled ∈ registry.live, scheduled.key ≠ key) →
    (∀ entry ∈ registry.retiring, entry.1 ≠ key) →
      ∀ task ∈ tasks, task.key = key → task.isFinished = true

namespace Registry.Knows

variable {registry : Registry}

theorem follow (knows : registry.Knows tasks)
    (follows : ∀ after ∈ afters, ∃ task ∈ tasks, task.Follows (Machine.hasFinished tasks) after) :
    registry.Knows afters := by
  refine ⟨fun scheduled mem => ?_, fun entry mem => ?_, fun key unlive unretiring after mem same => ?_⟩
  · exact ⟨(knows.live scheduled mem).1, (knows.live scheduled mem).2.follow follows⟩
  · exact ⟨(knows.retiring entry mem).1, (knows.retiring entry mem).2.follow follows⟩
  · obtain ⟨task, old, became⟩ := follows after mem
    rw [became.key] at same
    exact became.finished (knows.free key unlive unretiring task old same)

/-- Forgetting finished tasks loses nothing: if the newest task has finished, so have all. -/
theorem prune (ordered : Ordered tasks) (knows : registry.Knows tasks) :
    (registry.prune (Machine.hasFinished tasks)).Knows tasks := by
  refine ⟨knows.live, fun entry mem => knows.retiring entry (List.mem_filter.mp mem).1, ?_⟩
  intro key unlive unretiring task mem same
  by_cases retired : ∃ entry ∈ registry.retiring, entry.1 = key
  · obtain ⟨entry, listed, rfl⟩ := retired
    have ended : Machine.hasFinished tasks entry.2 = true := by
      cases ended : Machine.hasFinished tasks entry.2 with
      | true => rfl
      | false => exact absurd rfl (unretiring entry (List.mem_filter.mpr ⟨listed, by simp [ended]⟩))
    obtain ⟨last, found, equal, finished⟩ := finished_of_hasFinished ended
    obtain ⟨owns, upto⟩ := (knows.retiring entry listed).2
    have keys : task.key = last.key := same.trans (owns last found equal).symm
    exact ordered.finished_upto found finished mem keys (equal ▸ upto task mem same)
  · refine knows.free key unlive (fun entry listed equal => ?_) task mem same
    exact retired ⟨entry, listed, equal⟩

theorem retire (knows : registry.Knows tasks) (key : SetKey) : (registry.retire key).1.Knows tasks := by
  unfold Registry.retire
  split
  · exact knows
  · rename_i scheduled found
    have mem : scheduled ∈ registry.live := List.mem_of_find?_eq_some found
    have own : scheduled.key = key := by simpa using List.find?_some found
    refine ⟨fun other listed => knows.live other (List.mem_filter.mp listed).1, ?_, ?_⟩
    · intro entry listed
      rcases List.mem_cons.mp listed with rfl | listed
      · exact own ▸ knows.live scheduled mem
      · exact knows.retiring entry (List.mem_filter.mp listed).1
    · intro other unlive unretiring
      have different : key ≠ other := unretiring _ List.mem_cons_self
      refine knows.free other (fun peer listed equal => ?_) fun entry listed equal => ?_
      · exact unlive peer (List.mem_filter.mpr ⟨listed, by simpa [equal] using different.symm⟩) equal
      · exact unretiring entry
          (.tail _ (List.mem_filter.mpr ⟨listed, by simpa [equal] using different.symm⟩)) equal

end Registry.Knows

/-- A new task of a set without a live one waits for the newest that may still be at work. -/
structure Registry.Fresh (registry : Registry) (key : SetKey) (fresh : Task ρ) : Prop where
  unlive : ∀ scheduled ∈ registry.live, scheduled.key ≠ key
  named : fresh.key = key
  numbered : fresh.generation = registry.next
  runs : fresh.runs = 0
  waits : fresh.predecessor? = registry.retiring.lookup key

section Launch

variable {registry : Registry} {key : SetKey} {fresh : Task ρ}

theorem Ordered.launch (ordered : Ordered tasks) (knows : registry.Knows tasks)
    (below : ∀ task ∈ tasks, task.generation < registry.next) (new : registry.Fresh key fresh) :
    Ordered (tasks ++ [fresh]) := by
  refine ⟨?_, ?_, ?_⟩
  · refine List.pairwise_append.mpr ⟨ordered.ascending, List.pairwise_singleton _ _, ?_⟩
    intro task mem other last
    rw [List.mem_singleton.mp last, new.numbered]
    exact below task mem
  · intro task mem free other present same earlier
    rcases List.mem_append.mp mem with mem | mem
    · rcases List.mem_append.mp present with present | present
      · exact ordered.begun task mem free other present same earlier
      · rw [List.mem_singleton.mp present, new.numbered] at earlier
        have lower := below task mem
        omega
    · rw [List.mem_singleton.mp mem] at free same earlier
      rcases List.mem_append.mp present with present | present
      · rw [new.waits] at free
        have unretiring : ∀ entry ∈ registry.retiring, entry.1 ≠ key := by
          intro entry listed equal
          have different := List.lookup_eq_none_iff.mp free entry listed
          simp [equal] at different
        exact knows.free key new.unlive unretiring other present (same.trans new.named)
      · rw [List.mem_singleton.mp present] at earlier
        omega
  · intro task mem predecessor waits
    rcases List.mem_append.mp mem with mem | mem
    · obtain ⟨runs, lower, owns, last⟩ := ordered.waiting task mem predecessor waits
      have under := below task mem
      refine ⟨runs, lower, fun other present equal => ?_, fun other present same earlier => ?_⟩
      · rcases List.mem_append.mp present with present | present
        · exact owns other present equal
        · rw [List.mem_singleton.mp present, new.numbered] at equal
          omega
      · rcases List.mem_append.mp present with present | present
        · exact last other present same earlier
        · rw [List.mem_singleton.mp present, new.numbered] at earlier
          omega
    · rw [List.mem_singleton.mp mem] at waits ⊢
      rw [new.waits] at waits
      obtain ⟨front, back, split, -⟩ := List.lookup_eq_some_iff.mp waits
      obtain ⟨lower, owns, upto⟩ := knows.retiring (key, predecessor) (by simp [split])
      refine ⟨new.runs, new.numbered ▸ lower, fun other present equal => ?_,
        fun other present same earlier => ?_⟩
      · rcases List.mem_append.mp present with present | present
        · exact (owns other present equal).trans new.named.symm
        · rw [List.mem_singleton.mp present]
      · rcases List.mem_append.mp present with present | present
        · exact upto other present (same.trans new.named)
        · rw [List.mem_singleton.mp present] at earlier
          omega

theorem Registry.Knows.launch (knows : registry.Knows tasks) (spec : AutoscalerSpec)
    (below : ∀ task ∈ tasks, task.generation < registry.next) (new : registry.Fresh key fresh) :
    (registry.launch key spec).1.Knows (tasks ++ [fresh]) := by
  have newest {other : SetKey} {generation : Nat} (different : other ≠ key)
      (lower : generation < registry.next) (known : Newest tasks other generation) :
      Newest (tasks ++ [fresh]) other generation := by
    refine ⟨fun task mem equal => ?_, fun task mem same => ?_⟩
    · rcases List.mem_append.mp mem with mem | mem
      · exact known.1 task mem equal
      · rw [List.mem_singleton.mp mem, new.numbered] at equal
        omega
    · rcases List.mem_append.mp mem with mem | mem
      · exact known.2 task mem same
      · rw [List.mem_singleton.mp mem, new.named] at same
        exact absurd same.symm different
  refine ⟨fun scheduled mem => ?_, fun entry mem => ?_, fun other unlive unretiring task mem same => ?_⟩
  · rcases List.mem_append.mp mem with mem | mem
    · obtain ⟨lower, known⟩ := knows.live scheduled mem
      exact ⟨Nat.lt_succ_of_lt lower, newest (new.unlive scheduled mem) lower known⟩
    · rw [List.mem_singleton.mp mem]
      refine ⟨Nat.lt_succ_self _, fun task mem equal => ?_, fun task mem same => ?_⟩
      · rcases List.mem_append.mp mem with mem | mem
        · have lower := below task mem
          dsimp only at equal
          omega
        · rw [List.mem_singleton.mp mem]
          exact new.named
      · rcases List.mem_append.mp mem with mem | mem
        · exact Nat.le_of_lt (below task mem)
        · rw [List.mem_singleton.mp mem]
          exact Nat.le_of_eq new.numbered
  · obtain ⟨listed, different⟩ := List.mem_filter.mp mem
    obtain ⟨lower, known⟩ := knows.retiring entry listed
    exact ⟨Nat.lt_succ_of_lt lower, newest (by simpa using different) lower known⟩
  · have different : key ≠ other :=
      unlive ⟨key, spec, registry.next⟩ (List.mem_append_right _ (List.mem_singleton_self _))
    rcases List.mem_append.mp mem with mem | mem
    · refine knows.free other (fun scheduled listed => ?_) (fun entry listed equal => ?_) task mem same
      · exact unlive scheduled (List.mem_append_left _ listed)
      · exact unretiring entry
          (List.mem_filter.mpr ⟨listed, by simpa [equal] using different.symm⟩) equal
    · rw [List.mem_singleton.mp mem, new.named] at same
      exact absurd same different

end Launch

end SetScaler.Schedule
