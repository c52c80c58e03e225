import SetScaler.Proofs.Schedule.Observation

/-!
# Tasks of other clusters

An observation of a cluster leaves the tasks of all other clusters as they are, those that are live as well
as those that have been cancelled (`Machine.observe_spares`). So the live task of a set stays the same as
long as only other clusters are observed (`Machine.find?_steps`).
-/

namespace SetScaler.Schedule

variable {σ ρ : Type}

theorem filter_map_of_fixed {α : Type} {keep : α → Bool} {change : α → α} {items : List α}
    (kept : ∀ item ∈ items, keep (change item) = keep item)
    (fixed : ∀ item ∈ items, keep item = true → change item = item) :
    (items.map change).filter keep = items.filter keep := by
  induction items with
  | nil => rfl
  | cons item rest ih =>
      obtain ⟨here, others⟩ := List.forall_mem_cons.mp kept
      obtain ⟨same, alike⟩ := List.forall_mem_cons.mp fixed
      rw [List.map_cons, List.filter_cons, List.filter_cons, here, ih others alike]
      cases held : keep item with
      | true => rw [if_pos rfl, if_pos rfl, same held]
      | false => rfl

/-- The live tasks that are not of a given cluster. -/
def Registry.elsewhere (registry : Registry) (ns cluster : String) : List Scheduled :=
  registry.live.filter fun scheduled => !scheduled.key.inCluster ns cluster

/-- All tasks that are not of a given cluster. -/
def Machine.elsewhere (machine : Machine σ ρ) (ns cluster : String) : List (Task ρ) :=
  machine.tasks.filter fun task => !task.key.inCluster ns cluster

/-- A change of a registry and its machine that is about one cluster. -/
structure Spared (ns cluster : String) (registry after : Registry) (machine later : Machine σ ρ) : Prop where
  live : after.elsewhere ns cluster = registry.elsewhere ns cluster
  tasks : later.elsewhere ns cluster = machine.elsewhere ns cluster

namespace Spared

variable {ns cluster : String} {registry after last : Registry} {machine later final : Machine σ ρ}

theorem refl (registry : Registry) (machine : Machine σ ρ) :
    Spared ns cluster registry registry machine machine :=
  ⟨rfl, rfl⟩

theorem trans (first : Spared ns cluster registry after machine later)
    (second : Spared ns cluster after last later final) :
    Spared ns cluster registry last machine final :=
  ⟨second.live.trans first.live, second.tasks.trans first.tasks⟩

end Spared

namespace Governed

variable {ns cluster : String} {registry : Registry} {machine : Machine σ ρ}

theorem retire_spares (governed : Governed registry machine) {key : SetKey}
    (own : key.inCluster ns cluster = true) :
    Spared ns cluster registry (registry.retire key).1 machine
      ((registry.retire key).2.foldl Machine.obey machine) := by
  unfold Registry.retire
  cases found : registry.find? key with
  | none => exact .refl registry machine
  | some scheduled =>
      have live : scheduled ∈ registry.live := List.mem_of_find?_eq_some found
      have its : scheduled.key = key := by simpa using List.find?_some found
      obtain ⟨owner, present, rfl⟩ := governed.governs.owned scheduled live
      constructor
      · change (registry.live.filter _).filter _ = registry.live.filter _
        rw [List.filter_filter]
        refine List.filter_congr fun other _ => ?_
        by_cases same : other.key = key
        · rw [same, own]
          rfl
        · rw [bne_iff_ne.mpr same, Bool.and_true]
      · change (machine.tasks.map (Task.cancelFor owner.generation)).filter _ = machine.tasks.filter _
        refine filter_map_of_fixed (fun task _ => ?_) fun task mem other => ?_
        · rw [Task.key, task.cancelFor_scheduled]
        · -- the cancelled task is one of the cluster
          have apart : task.generation ≠ owner.generation := by
            intro same
            have outside : task.key.inCluster ns cluster = false := by simpa using other
            rw [governed.ordered.eq_of_generation mem present same, Task.key, its, own] at outside
            cases outside
          exact if_neg apart

theorem retireAll_spares (governed : Governed registry machine) {keys : List SetKey}
    (own : ∀ key ∈ keys, key.inCluster ns cluster = true) :
    Spared ns cluster registry (registry.retireAll keys).1 machine
      ((registry.retireAll keys).2.foldl Machine.obey machine) := by
  induction keys generalizing registry machine with
  | nil => exact .refl registry machine
  | cons key rest ih =>
      obtain ⟨first, others⟩ := List.forall_mem_cons.mp own
      have later := (governed.retire_spares first).trans (ih (upheld.retire key governed) others)
      rw [← List.foldl_append] at later
      exact later

theorem launch_spares (registry : Registry) (machine : Machine σ ρ) {key : SetKey}
    (own : key.inCluster ns cluster = true) (spec : AutoscalerSpec) :
    Spared ns cluster registry (registry.launch key spec).1 machine
      ((registry.launch key spec).2.foldl Machine.obey machine) := by
  constructor
  · change (registry.live ++ [_]).filter _ = registry.live.filter _
    simp [own]
  · change (machine.tasks ++ [_]).filter _ = machine.tasks.filter _
    simp [Task.key, own]

theorem align_spares (governed : Governed registry machine) {key : SetKey}
    (own : key.inCluster ns cluster = true) (spec : AutoscalerSpec) :
    Spared ns cluster registry (registry.align key spec).1 machine
      ((registry.align key spec).2.foldl Machine.obey machine) := by
  have retired := governed.retire_spares own
  unfold Registry.align
  dsimp only
  split
  · exact .refl registry machine
  · split
    · have launched := retired.trans (launch_spares _ _ own spec)
      rw [← List.foldl_append] at launched
      exact launched
    · exact retired

theorem alignAll_spares (governed : Governed registry machine) (opened : registry.closed = false)
    {specs : List (SetKey × AutoscalerSpec)} (own : ∀ entry ∈ specs, entry.1.inCluster ns cluster = true) :
    Spared ns cluster registry (registry.alignAll specs).1 machine
      ((registry.alignAll specs).2.foldl Machine.obey machine) := by
  induction specs generalizing registry machine with
  | nil => exact .refl registry machine
  | cons entry rest ih =>
      obtain ⟨first, others⟩ := List.forall_mem_cons.mp own
      have aligned := upheld.align governed opened entry.1 entry.2
      have open_still : (registry.align entry.1 entry.2).1.closed = false :=
        (registry.align_closed entry.1 entry.2).trans opened
      have later := (governed.align_spares first entry.2).trans (ih aligned open_still others)
      rw [← List.foldl_append] at later
      exact later

theorem observe_spares (governed : Governed registry machine)
    {specs : List (SetKey × AutoscalerSpec)} (own : ∀ entry ∈ specs, entry.1.inCluster ns cluster = true) :
    Spared ns cluster registry (registry.observe (Machine.hasFinished machine.tasks) ns cluster specs).1
      machine ((registry.observe (Machine.hasFinished machine.tasks) ns cluster specs).2.foldl Machine.obey
        machine) := by
  unfold Registry.observe
  by_cases closed : registry.closed = true
  · rw [if_pos closed]
    exact .refl registry machine
  · rw [if_neg closed]
    have pruned := upheld.prune governed
    have retired := upheld.retireAll pruned
      ((registry.prune (Machine.hasFinished machine.tasks)).gone ns cluster specs)
    have opened : registry.closed = false := by simpa using closed
    have open_still := (Registry.retireAll_closed (registry.prune (Machine.hasFinished machine.tasks))
      ((registry.prune (Machine.hasFinished machine.tasks)).gone ns cluster specs)).trans opened
    have gone : ∀ key ∈ (registry.prune (Machine.hasFinished machine.tasks)).gone ns cluster specs,
        key.inCluster ns cluster = true := fun key mem =>
      (Bool.and_eq_true_iff.mp (List.mem_filter.mp mem).2).1
    have later := (pruned.retireAll_spares gone).trans (retired.alignAll_spares open_still own)
    rw [← List.foldl_append] at later
    exact ⟨later.live, later.tasks⟩

end Governed

theorem Machine.observe_spares {machine : Machine σ ρ} (governed : Governed machine.registry machine)
    {ns cluster : String} {specs : List (SetKey × AutoscalerSpec)}
    (own : ∀ entry ∈ specs, entry.1.inCluster ns cluster = true) :
    Spared ns cluster machine.registry (machine.observe ns cluster specs).registry machine
      (machine.observe ns cluster specs) := by
  have adopted := Governed.upheld.adopt
    (machine.registry.observe (hasFinished machine.tasks) ns cluster specs).1 governed
  have observed := adopted.observe_spares own
  rw [observe, update_registry]
  exact ⟨observed.live, observed.tasks⟩

/-- Whether a step is no observation of the cluster of a set. -/
def Step.Misses (key : SetKey) : Step → Prop
  | observe ns cluster _ => key.inCluster ns cluster = false
  | close | elapse _ | settle .. | wake _ => True

section Misses

variable {key : SetKey} {steps : List Step}

theorem Step.Misses.tell {next : Step} (misses : next.Misses key) (seen : Option AutoscalerSpec) :
    next.tell key seen = seen := by
  cases next with
  | observe ns cluster specs => exact if_neg (Bool.eq_false_iff.mp misses)
  | close | elapse | settle | wake => rfl

theorem Step.Misses.turn {next : Step} (misses : next.Misses key) (old : Option Scheduled)
    (generation : Nat) : next.turn key old generation = old := by
  cases next with
  | observe ns cluster specs => exact if_neg (Bool.eq_false_iff.mp misses)
  | close | elapse | settle | wake => rfl

theorem tell_steps (misses : ∀ step ∈ steps, step.Misses key) (seen : Option AutoscalerSpec) :
    steps.foldl (Step.tell key) seen = seen := by
  induction steps with
  | nil => rfl
  | cons first rest ih =>
      obtain ⟨here, others⟩ := List.forall_mem_cons.mp misses
      rw [List.foldl_cons, here.tell, ih others]

theorem Machine.find?_steps (work : Workload σ ρ) {machine : Machine σ ρ}
    (opened : machine.registry.closed = false) (proper : ∀ step ∈ steps, step.Proper)
    (misses : ∀ step ∈ steps, step.Misses key) :
    (steps.foldl (step work) machine).registry.find? key = machine.registry.find? key := by
  induction steps generalizing machine with
  | nil => rfl
  | cons first rest ih =>
      obtain ⟨fine, others⟩ := List.forall_mem_cons.mp proper
      obtain ⟨here, later⟩ := List.forall_mem_cons.mp misses
      obtain ⟨generation, -, found⟩ := machine.find?_step work opened fine key
      have still := (machine.closed_step work fine).trans opened
      rw [List.foldl_cons, ih still others later, found, here.turn]

end Misses
end SetScaler.Schedule
