import SetScaler.Proofs.Schedule.Live
import SetScaler.Proofs.Schedule.Lookup

/-!
# The last observation wins

At any time before a shutdown the live tasks are those of the sets that the latest observation of their
cluster has enabled, and each has the spec of that observation. A task outlasts an observation if that
is of another cluster, or has an equal spec for its set (`last_observation_wins`). So an observation that
tells the same as the latest one of its cluster changes no task (`Machine.observe_latest`).
-/

namespace SetScaler.Schedule

variable {σ ρ : Type} (work : Workload σ ρ)

namespace Step

/-- Whether a step may come before the shutdown. An observation is of sets of one cluster, each with one
spec, and without thresholds that are NaN. A cluster is forgotten by an observation of no set. -/
def Proper : Step → Prop
  | observe ns cluster specs => (specs.map Prod.fst).Nodup ∧
      ∀ entry ∈ specs, entry.1.inCluster ns cluster = true ∧ entry.2.hasNaN = false
  | close => False
  | elapse _ | settle .. | wake _ => True

/-- The spec of a set after a step: an observation tells all about its cluster. -/
def tell (key : SetKey) (seen : Option AutoscalerSpec) : Step → Option AutoscalerSpec
  | observe ns cluster specs => if key.inCluster ns cluster then specs.lookup key else seen
  | close | elapse _ | settle .. | wake _ => seen

/-- The live task of a set after a step before the shutdown, a new one having the given generation. -/
def turn (key : SetKey) (old : Option Scheduled) (generation : Nat) : Step → Option Scheduled
  | observe ns cluster specs =>
      if key.inCluster ns cluster then (specs.lookup key).bind fun spec => heir old key spec generation
      else old
  | close | elapse _ | settle .. | wake _ => old

/-- Whether a step leaves a live task alone: it observes another cluster, or an equal spec. -/
def Spares (scheduled : Scheduled) : Step → Prop
  | observe ns cluster specs => scheduled.key.inCluster ns cluster = false ∨
      ∃ spec, (scheduled.key, spec) ∈ specs ∧ (scheduled.spec == spec) = true
  | close => False
  | elapse _ | settle .. | wake _ => True

end Step

/-- The spec that a set has in the latest observation of its cluster. -/
def latest (steps : List Step) (key : SetKey) : Option AutoscalerSpec :=
  steps.foldl (Step.tell key) none

/-- The live task of a set is the one that its spec asks for. -/
def Fits (seen : Option AutoscalerSpec) : Option Scheduled → Prop
  | none => ∀ spec, seen = some spec → spec.enabled = false
  | some scheduled =>
      ∃ spec, seen = some spec ∧ spec.enabled = true ∧ (scheduled.spec == spec) = true

section Turn

variable {next : Step} {key : SetKey} {old : Option Scheduled} {task : Scheduled} {generation : Nat}

theorem Fits.heir {seen : Option AutoscalerSpec} {spec : AutoscalerSpec} (fits : Fits seen old)
    (numbers : spec.hasNaN = false) : Fits (some spec) (heir old key spec generation) := by
  unfold Schedule.heir
  by_cases equal : old.any fun task => task.spec == spec
  · rw [if_pos equal]
    obtain ⟨task, rfl, same⟩ := (Option.any_eq_true _ _).mp equal
    obtain ⟨other, -, enabled, before⟩ := fits
    have still : spec.enabled = true := by
      rw [← AutoscalerSpec.enabled_of_beq same, AutoscalerSpec.enabled_of_beq before, enabled]
    exact ⟨spec, rfl, still, same⟩
  · rw [if_neg equal]
    by_cases enabled : spec.enabled = true
    · rw [if_pos enabled]
      exact ⟨spec, rfl, enabled, AutoscalerSpec.beq_self numbers⟩
    · rw [if_neg enabled]
      rintro _ ⟨⟩
      simpa using enabled

theorem Fits.align {registry : Registry} {spec : AutoscalerSpec}
    (fits : Fits (some spec) (registry.find? key)) : registry.align key spec = (registry, []) := by
  unfold Registry.align
  cases found : registry.find? key with
  | none =>
      rw [found] at fits
      have disabled := fits spec rfl
      simp [Registry.retire, found, disabled]
  | some task =>
      rw [found] at fits
      obtain ⟨_, ⟨⟩, -, same⟩ := fits
      simp [same]

theorem Fits.turn {seen : Option AutoscalerSpec} (fits : Fits seen old) (proper : next.Proper) :
    Fits (next.tell key seen) (next.turn key old generation) := by
  cases next with
  | observe ns cluster specs =>
      by_cases own : key.inCluster ns cluster = true
      · simp only [Step.tell, Step.turn, if_pos own]
        cases listed : specs.lookup key with
        | none => exact fun _ absent => by cases absent
        | some spec => exact fits.heir (proper.2 _ (mem_of_lookup listed)).2
      · simp only [Step.tell, Step.turn, if_neg own]
        exact fits
  | close => exact proper.elim
  | elapse | settle | wake => exact fits

theorem heir_self_iff (older : task.generation < generation) {spec : AutoscalerSpec} :
    heir (some task) task.key spec generation = some task ↔ (task.spec == spec) = true := by
  unfold heir
  by_cases equal : (task.spec == spec) = true
  · simp [equal]
  · have renewed : (⟨task.key, spec, generation⟩ : Scheduled) ≠ task := fun same =>
      Nat.ne_of_gt older (congrArg Scheduled.generation same)
    simp [equal, renewed]

theorem Step.turn_self_iff (older : task.generation < generation) (proper : next.Proper) :
    next.turn task.key (some task) generation = some task ↔ next.Spares task := by
  cases next with
  | observe ns cluster specs =>
      simp only [turn, Spares]
      by_cases own : task.key.inCluster ns cluster = true
      · rw [if_pos own, Option.bind_eq_some_iff]
        simp only [own, heir_self_iff older, lookup_eq_some_iff proper.1, Bool.true_eq_false, false_or]
      · simp [own]
  | close => exact proper.elim
  | elapse | settle | wake => exact iff_of_true rfl trivial

theorem Step.turn_cases (turned : next.turn key old generation = some task) :
    old = some task ∨ task.generation = generation := by
  cases next with
  | observe ns cluster specs =>
      simp only [turn] at turned
      by_cases own : key.inCluster ns cluster = true
      · rw [if_pos own] at turned
        obtain ⟨spec, -, inherits⟩ := Option.bind_eq_some_iff.mp turned
        unfold heir at inherits
        split at inherits
        · exact .inl inherits
        · split at inherits
          · cases inherits
            exact .inr rfl
          · cases inherits
      · rw [if_neg own] at turned
        exact .inl turned
  | close | elapse | settle | wake => exact .inl turned

end Turn

namespace Machine

variable {machine : Machine σ ρ} {next : Step}

theorem closed_step (proper : next.Proper) :
    (machine.step work next).registry.closed = machine.registry.closed := by
  cases next with
  | observe ns cluster specs =>
      simp only [step, observe, update_registry, Registry.observe_closed]
  | close => exact proper.elim
  | elapse => rfl
  | settle index known => rw [(machine.settle_passes work index known).registry_eq]
  | wake index => rw [(machine.wake_passes work index).registry_eq]

theorem find?_step (opened : machine.registry.closed = false) (proper : next.Proper) (key : SetKey) :
    ∃ generation, machine.registry.next ≤ generation ∧
      (machine.step work next).registry.find? key =
        next.turn key (machine.registry.find? key) generation := by
  cases next with
  | observe ns cluster specs =>
      simp only [step, observe, update_registry]
      exact machine.registry.find?_observe opened _ proper.1
        (fun entry mem => (proper.2 entry mem).1) key
  | close => exact proper.elim
  | elapse => exact ⟨_, Nat.le_refl _, rfl⟩
  | settle index known => exact ⟨_, Nat.le_refl _, by rw [(settle_passes ..).registry_eq]; rfl⟩
  | wake index => exact ⟨_, Nat.le_refl _, by rw [(wake_passes ..).registry_eq]; rfl⟩

theorem obey_scheduled (machine : Machine σ ρ) (order : Order) :
    machine.tasks.map Task.scheduled <+: (machine.obey order).tasks.map Task.scheduled := by
  cases order with
  | cancel generation =>
      have kept := Task.map_cancelFor_scheduled generation machine.tasks
      exact kept ▸ List.prefix_refl _
  | start scheduled after => exact ⟨[scheduled], by simp [obey]⟩

theorem update_scheduled (machine : Machine σ ρ) (registry : Registry) (orders : List Order) :
    machine.tasks.map Task.scheduled <+: (machine.update registry orders).tasks.map Task.scheduled := by
  have fold (start : Machine σ ρ) :
      start.tasks.map Task.scheduled <+: (orders.foldl obey start).tasks.map Task.scheduled := by
    induction orders generalizing start with
    | nil => exact List.prefix_refl _
    | cons order rest ih => exact (start.obey_scheduled order).trans (ih _)
  exact fold { machine with registry }

theorem step_scheduled (machine : Machine σ ρ) (next : Step) :
    machine.tasks.map Task.scheduled <+: (machine.step work next).tasks.map Task.scheduled := by
  have passed {after : Machine σ ρ} (passes : machine.Passes after) :
      machine.tasks.map Task.scheduled <+: after.tasks.map Task.scheduled := by
    have same := passes.map_eq Task.scheduled fun becomes => becomes.follows.scheduled
    exact ⟨[], by rw [List.append_nil, same]⟩
  cases next with
  | observe => exact machine.update_scheduled _ _
  | close => exact machine.update_scheduled _ _
  | elapse => exact passed (.elapsed _)
  | settle index known => exact passed (machine.settle_passes work index known)
  | wake index => exact passed (machine.wake_passes work index)

end Machine

/-- An open registry has the live tasks that specs ask for. -/
structure Registry.Honours (registry : Registry) (seen : SetKey → Option AutoscalerSpec) : Prop where
  opened : registry.closed = false
  fits : ∀ key, Fits (seen key) (registry.find? key)

theorem Registry.Honours.steps {machine : Machine σ ρ} {seen : SetKey → Option AutoscalerSpec}
    (honours : machine.registry.Honours seen) {steps : List Step}
    (proper : ∀ step ∈ steps, step.Proper) : (steps.foldl (Machine.step work) machine).registry.Honours
      fun key => steps.foldl (Step.tell key) (seen key) := by
  induction steps generalizing machine seen with
  | nil => exact honours
  | cons next rest ih =>
      obtain ⟨first, others⟩ := List.forall_mem_cons.mp proper
      have after : (machine.step work next).registry.Honours fun key => next.tell key (seen key) := by
        refine ⟨(Machine.closed_step work first).trans honours.opened, fun key => ?_⟩
        obtain ⟨generation, -, found⟩ := Machine.find?_step work honours.opened first key
        exact found ▸ (honours.fits key).turn first
      exact ih after others

/-- An observation of what is honoured already asks for nothing. -/
theorem Registry.Honours.observe_self {registry : Registry} {seen : SetKey → Option AutoscalerSpec}
    (honours : registry.Honours seen) (finished : Nat → Bool) {ns cluster : String}
    {specs : List (SetKey × AutoscalerSpec)} (distinct : (specs.map Prod.fst).Nodup)
    (inside : ∀ entry ∈ specs, entry.1.inCluster ns cluster = true)
    (agrees : ∀ key : SetKey, key.inCluster ns cluster = true → seen key = specs.lookup key) :
    registry.observe finished ns cluster specs = (registry.prune finished, []) := by
  have none_gone : (registry.prune finished).gone ns cluster specs = [] := by
    refine List.eq_nil_iff_forall_not_mem.mpr fun key gone => ?_
    obtain ⟨⟨task, live, rfl⟩, own, unlisted⟩ := mem_gone.mp gone
    have fits := honours.fits task.key
    rw [agrees task.key own, unlisted] at fits
    cases found : registry.find? task.key with
    | none => exact List.find?_eq_none.mp found task live (beq_self_eq_true _)
    | some other =>
        rw [found] at fits
        obtain ⟨_, absent, -⟩ := fits
        cases absent
  have aligned (entries : List (SetKey × AutoscalerSpec)) (listed : ∀ entry ∈ entries, entry ∈ specs) :
      (registry.prune finished).alignAll entries = (registry.prune finished, []) := by
    induction entries with
    | nil => rfl
    | cons entry rest ih =>
        obtain ⟨first, others⟩ := List.forall_mem_cons.mp listed
        have fits := honours.fits entry.1
        rw [agrees entry.1 (inside entry first), (lookup_eq_some_iff distinct).mpr first] at fits
        have kept : (registry.prune finished).align entry.1 entry.2 = (registry.prune finished, []) :=
          Fits.align fits
        simp only [alignAll, kept, ih others, List.nil_append]
  unfold observe
  rw [if_neg (by simp [honours.opened])]
  simp only [none_gone, retireAll, aligned specs fun _ mem => mem, List.nil_append]

theorem Machine.observe_honoured {machine : Machine σ ρ} {seen : SetKey → Option AutoscalerSpec}
    (honours : machine.registry.Honours seen) {ns cluster : String}
    {specs : List (SetKey × AutoscalerSpec)} (distinct : (specs.map Prod.fst).Nodup)
    (inside : ∀ entry ∈ specs, entry.1.inCluster ns cluster = true)
    (agrees : ∀ key : SetKey, key.inCluster ns cluster = true → seen key = specs.lookup key) :
    machine.observe ns cluster specs =
      { machine with registry := machine.registry.prune (hasFinished machine.tasks) } := by
  rw [observe, honours.observe_self _ distinct inside agrees]
  rfl

/-- After the same observation as the latest one of the cluster, the same tasks are live and at work. -/
theorem Machine.observe_latest (state : σ) {steps : List Step} (proper : ∀ step ∈ steps, step.Proper)
    {ns cluster : String} {specs : List (SetKey × AutoscalerSpec)} (distinct : (specs.map Prod.fst).Nodup)
    (inside : ∀ entry ∈ specs, entry.1.inCluster ns cluster = true)
    (agrees : ∀ key : SetKey, key.inCluster ns cluster = true → latest steps key = specs.lookup key) :
    ((steps.foldl (step work) { state }).observe ns cluster specs).registry.live =
        (steps.foldl (step work) { state }).registry.live ∧
      ((steps.foldl (step work) { state }).observe ns cluster specs).tasks =
        (steps.foldl (step work) { state }).tasks := by
  have started : ({ state } : Machine σ ρ).registry.Honours fun _ => none :=
    ⟨rfl, fun _ _ absent => by cases absent⟩
  rw [observe_honoured (started.steps work proper) distinct inside agrees]
  exact ⟨rfl, rfl⟩

namespace Governed

variable {machine : Machine σ ρ}

theorem lower (governed : Governed machine.registry machine) {scheduled : Scheduled}
    (live : scheduled ∈ machine.registry.live) : scheduled.generation < machine.registry.next := by
  obtain ⟨task, mem, rfl⟩ := governed.governs.owned scheduled live
  exact governed.below task mem

theorem find?_self_iff (governed : Governed machine.registry machine) {scheduled : Scheduled} :
    machine.registry.find? scheduled.key = some scheduled ↔ scheduled ∈ machine.registry.live := by
  rw [Registry.find?_eq_some_iff governed.governs.distinct, and_iff_left rfl]

theorem generation?_iff (governed : Governed machine.registry machine) {task : Task ρ}
    (mem : task ∈ machine.tasks) : machine.registry.generation? task.key = some task.generation ↔
      task.scheduled ∈ machine.registry.live := by
  constructor
  · intro found
    obtain ⟨scheduled, present, same⟩ := Option.map_eq_some_iff.mp found
    have live : scheduled ∈ machine.registry.live := List.mem_of_find?_eq_some present
    obtain ⟨owner, listed, rfl⟩ := governed.governs.owned scheduled live
    rw [← governed.ordered.eq_of_generation listed mem same]
    exact live
  · intro live
    rw [Registry.generation?, governed.find?_self_iff.mpr live]
    rfl

variable {next : Step} {scheduled : Scheduled}

theorem stays_iff (governed : Governed machine.registry machine)
    (opened : machine.registry.closed = false) (proper : next.Proper)
    (live : scheduled ∈ machine.registry.live) :
    scheduled ∈ (machine.step work next).registry.live ↔ next.Spares scheduled := by
  have after := Governed.upheld.step work governed next
  obtain ⟨generation, later, found⟩ := Machine.find?_step work opened proper scheduled.key
  rw [← after.find?_self_iff, found, governed.find?_self_iff.mpr live]
  exact Step.turn_self_iff (Nat.lt_of_lt_of_le (governed.lower live) later) proper

theorem live_cases (governed : Governed machine.registry machine)
    (opened : machine.registry.closed = false) (proper : next.Proper)
    (live : scheduled ∈ (machine.step work next).registry.live) :
    scheduled ∈ machine.registry.live ∨ machine.registry.next ≤ scheduled.generation := by
  have after := Governed.upheld.step work governed next
  obtain ⟨generation, later, found⟩ := Machine.find?_step work opened proper scheduled.key
  rw [after.find?_self_iff.mpr live] at found
  refine (Step.turn_cases found.symm).imp governed.find?_self_iff.mp fun renewed => ?_
  rw [renewed]
  exact later

end Governed

/-- What is live is what specs ask for. A snapshot and a spec are equal as settings are: zeros of either
sign are one threshold. -/
structure Mirrors (machine : Machine σ ρ) (seen : SetKey → Option AutoscalerSpec) : Prop where
  distinct : (machine.registry.live.map Scheduled.key).Nodup
  keys : ∀ key, key ∈ machine.registry.keys ↔ ∃ spec, seen key = some spec ∧ spec.enabled = true
  snapshots : ∀ scheduled ∈ machine.registry.live, ∃ spec, seen scheduled.key = some spec ∧
    (scheduled.spec == spec) = true
  tasks : ∀ scheduled ∈ machine.registry.live, ∃ task ∈ machine.tasks,
    task.scheduled = scheduled ∧ task.cancelled = false

/-- What a step does to the live tasks. -/
structure Turns (next : Step) (machine after : Machine σ ρ) : Prop where
  /-- A live task is kept, and its token not fired, just if the step spares it. -/
  kept : ∀ scheduled ∈ machine.registry.live, ∃ task ∈ after.tasks, task.scheduled = scheduled ∧
    (after.registry.generation? scheduled.key = some scheduled.generation ↔ next.Spares scheduled) ∧
    (task.cancelled = false ↔ next.Spares scheduled)
  /-- Any other task that is live now has been added to those there have ever been. -/
  issued : ∃ fresh, after.tasks.map Task.scheduled = machine.tasks.map Task.scheduled ++ fresh ∧
    ∀ scheduled ∈ after.registry.live, scheduled ∈ machine.registry.live ∨ scheduled ∈ fresh
  /-- So a task that has been added has a greater generation than all before it. -/
  ascending : after.tasks.Pairwise fun task other => task.generation < other.generation

theorem Governed.mirrors {machine : Machine σ ρ} {seen : SetKey → Option AutoscalerSpec}
    (governed : Governed machine.registry machine) (honours : machine.registry.Honours seen) :
    Mirrors machine seen where
  distinct := governed.governs.distinct
  keys key := by
    rw [Registry.keys, sortKeys, (List.mergeSort_perm _ _).mem_iff]
    have fits := honours.fits key
    cases found : machine.registry.find? key with
    | none =>
        rw [found] at fits
        refine iff_of_false (fun mem => ?_) fun ⟨spec, listed, enabled⟩ => ?_
        · obtain ⟨scheduled, live, rfl⟩ := List.mem_map.mp mem
          rw [governed.find?_self_iff.mpr live] at found
          cases found
        · rw [fits spec listed] at enabled
          cases enabled
    | some scheduled =>
        rw [found] at fits
        obtain ⟨spec, listed, enabled, -⟩ := fits
        obtain ⟨live, rfl⟩ := (Registry.find?_eq_some_iff governed.governs.distinct).mp found
        exact iff_of_true (List.mem_map_of_mem live) ⟨spec, listed, enabled⟩
  snapshots scheduled live := by
    have fits := honours.fits scheduled.key
    rw [governed.find?_self_iff.mpr live] at fits
    obtain ⟨spec, listed, -, equal⟩ := fits
    exact ⟨spec, listed, equal⟩
  tasks scheduled live := by
    obtain ⟨task, mem, rfl⟩ := governed.governs.owned scheduled live
    exact ⟨task, mem, rfl, (governed.governs.wanted task mem).mpr live⟩

theorem Governed.turns {machine : Machine σ ρ} (governed : Governed machine.registry machine)
    (opened : machine.registry.closed = false) {next : Step} (proper : next.Proper) :
    Turns next machine (machine.step work next) := by
  have after := Governed.upheld.step work governed next
  obtain ⟨fresh, issued⟩ := machine.step_scheduled work next
  refine ⟨fun scheduled live => ?_, ⟨fresh, issued.symm, fun scheduled live => ?_⟩,
    after.ordered.ascending⟩
  · have stays := governed.stays_iff work opened proper live
    obtain ⟨owner, present, rfl⟩ := governed.governs.owned scheduled live
    have listed : owner.scheduled ∈ (machine.step work next).tasks.map Task.scheduled :=
      issued ▸ List.mem_append_left fresh (List.mem_map_of_mem present)
    obtain ⟨task, mem, same⟩ := List.mem_map.mp listed
    rw [← same] at stays ⊢
    exact ⟨task, mem, rfl, (after.generation?_iff mem).trans stays,
      (after.governs.wanted task mem).trans stays⟩
  · obtain ⟨task, mem, rfl⟩ := after.governs.owned scheduled live
    have listed : task.scheduled ∈ machine.tasks.map Task.scheduled ++ fresh :=
      issued ▸ List.mem_map_of_mem mem
    refine (List.mem_append.mp listed).imp (fun old => ?_) id
    -- its generation tells an old task from a new one
    obtain ⟨owner, present, same⟩ := List.mem_map.mp old
    have lower := governed.below owner present
    rw [Task.generation, same] at lower
    exact (governed.live_cases work opened proper live).resolve_right (Nat.not_le.mpr lower)

/-- Whatever has been observed and done before, what is live is what the latest observations ask for,
and a step that is no shutdown replaces just the live tasks that it has to, by newer ones. -/
theorem last_observation_wins (work : Workload σ ρ) (state : σ) {steps : List Step}
    (proper : ∀ step ∈ steps, step.Proper) :
    Mirrors (steps.foldl (Machine.step work) { state }) (latest steps) ∧
    (∀ next : Step, next.Proper → Turns next (steps.foldl (Machine.step work) { state })
      ((steps.foldl (Machine.step work) { state }).step work next)) ∧
    ∀ ns cluster : String, (steps.foldl (Machine.step work) { state }).forget ns cluster =
      (steps.foldl (Machine.step work) { state }).step work (.observe ns cluster []) := by
  have governed := Machine.governed_steps work steps state
  have started : ({ state } : Machine σ ρ).registry.Honours fun _ => none :=
    ⟨rfl, fun _ _ absent => by cases absent⟩
  have honours := started.steps work proper
  exact ⟨governed.mirrors honours, fun next first => governed.turns work honours.opened first,
    fun _ _ => rfl⟩

/-- Two clusters are observed, and then the first one again, without its autoscaler. -/
def observations : List Step :=
  [.observe "ns" "a" [(bookies "a", .bookkeeper { enabled := true })],
    .observe "ns" "b" [(bookies "b", .bookkeeper { enabled := true })],
    .observe "ns" "a" [(bookies "a", .bookkeeper {})]]

theorem last_observation_wins_two :
    let machine := observations.foldl (Machine.step .prompt) { state := () }
    (∀ step ∈ observations, step.Proper) ∧ Mirrors machine (latest observations) ∧
      machine.registry.live.map Scheduled.key = [bookies "b"] ∧
      machine.tasks.map Task.cancelled = [true, false] := by
  have proper : ∀ step ∈ observations, step.Proper := by
    have numbers (enabled : Bool) : (AutoscalerSpec.bookkeeper { enabled }).hasNaN = false := by
      cases enabled <;> decide +kernel
    simp [observations, Step.Proper, numbers, bookies, SetKey.inCluster]
  exact ⟨proper, (last_observation_wins .prompt () proper).1, by decide +kernel, by decide +kernel⟩

end SetScaler.Schedule
