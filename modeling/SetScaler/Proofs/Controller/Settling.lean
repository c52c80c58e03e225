import SetScaler.Proofs.Cluster.Reporting
import SetScaler.Proofs.Controller.Moves
import SetScaler.Proofs.SetKey

/-!
# The tasks of a reconciled cluster

The live tasks are at all times those that the observed specs ask for (`Aligned.moves`). So when a resource
has been reconciled, the live sets of its cluster are those whose autoscaler is enabled (`Aligned.settled`),
or none if the resource is being deleted or gone (`Aligned.none_live`). They are reported unless the status
lists just them (`reconcile_reports`).
-/

namespace SetScaler

open Schedule

variable {σ ρ : Type}

/-- The keys of a cluster's live sets, in their order. -/
def Schedule.Machine.liveKeys (machine : Machine σ ρ) (ref : ClusterRef) : List SetKey :=
  machine.registry.keys.filter fun key => key.inCluster ref.ns ref.name

/-- The live tasks of a cluster are those that its resource asks for. -/
structure Cluster.Settled (cluster : Cluster) (machine : Machine σ ρ) : Prop where
  ascending : Ascending (machine.liveKeys cluster.ref)
  keys : ∀ key, key ∈ machine.liveKeys cluster.ref ↔ ∃ its, cluster.Scales key its ∧ its.enabled = true
  /-- Each of them has the settings of its set, which are those for its component, and is at work. -/
  tasks : ∀ key ∈ machine.liveKeys cluster.ref, ∃ task ∈ machine.tasks, task.key = key ∧
    task.cancelled = false ∧ task.scheduled ∈ machine.registry.live ∧
    task.scheduled.spec.component = key.component ∧
    ∃ its, cluster.Scales key its ∧ (task.scheduled.spec == its) = true

theorem Cluster.settled_of_mirrors {cluster : Cluster} (ordered : cluster.spec.Ordered)
    {machine : Machine σ ρ} {seen : SetKey → Option AutoscalerSpec} (mirrors : Mirrors machine seen)
    (told : ∀ key : SetKey, key.inCluster cluster.ref.ns cluster.ref.name = true →
      seen key = cluster.autoscalerSpecs.lookup key) : cluster.Settled machine := by
  have asked {key : SetKey} {its : AutoscalerSpec}
      (own : key.inCluster cluster.ref.ns cluster.ref.name = true) :
      seen key = some its ↔ cluster.Scales key its := by
    rw [told key own, lookup_eq_some_iff (keys_distinct ordered), mem_autoscalerSpecs_iff]
  refine ⟨(sortKeys_ascending mirrors.distinct).filter _, fun key => ?_, fun key live => ?_⟩
  · rw [Machine.liveKeys, List.mem_filter, mirrors.keys]
    constructor
    · rintro ⟨⟨its, given, enabled⟩, own⟩
      exact ⟨its, (asked own).mp given, enabled⟩
    · rintro ⟨its, scales, enabled⟩
      exact ⟨⟨its, (asked scales.own).mpr scales, enabled⟩, scales.own⟩
  · obtain ⟨listed, own⟩ := List.mem_filter.mp live
    obtain ⟨scheduled, mem, rfl⟩ := List.mem_map.mp ((sortKeys_perm _).mem_iff.mp listed)
    obtain ⟨its, given, equal⟩ := mirrors.snapshots scheduled mem
    obtain ⟨task, present, rfl, wanted⟩ := mirrors.tasks scheduled mem
    have scales := (asked own).mp given
    have matches_component : task.scheduled.spec.component = task.scheduled.key.component :=
      (AutoscalerSpec.component_of_beq equal).trans scales.scales.component_eq
    exact ⟨task, present, rfl, wanted, mem, matches_component, its, scales, equal⟩

/-- Machines that are settled for a cluster list the same live sets. -/
theorem Cluster.Settled.liveKeys_eq {cluster again : Cluster} {sets : List String}
    {machine other : Machine σ ρ} (settled : again.Settled machine) (also : cluster.Settled other)
    (repeats : again.Repeats cluster sets) : machine.liveKeys cluster.ref = other.liveKeys cluster.ref := by
  have ascending := settled.ascending
  have keys := settled.keys
  rw [repeats.ref] at ascending keys
  refine ascending.ext also.ascending fun key => ?_
  rw [keys, also.keys]
  simp only [repeats.scales_iff]

namespace Controller

variable (work : Workload σ ρ)

section Reports

variable {controller : Controller σ ρ} {ref : ClusterRef} {cluster : Cluster} (reportFails : Bool)

theorem reconcile_reports (found : controller.cache.lookup ref = some cluster) (own : cluster.ref = ref)
    (staying : cluster.isLeaving = false) : (controller.reconcile reportFails ref).reports =
      controller.reports ++
        if cluster.status.map ClusterStatus.autoscaledSets =
          some ((controller.reconcile reportFails ref).machine.liveSets ref) then []
        else [⟨ref, (controller.reconcile reportFails ref).machine.liveSets ref⟩] := by
  subst own
  simp only [← Cluster.needsReport_eq_false_iff, reconcile, found, Machine.reconcile, staying,
    Bool.false_eq_true, if_false, schedule]
  split <;> simp_all

theorem reconcile_reports_of_left
    (left : ∀ cluster, controller.cache.lookup ref = some cluster → cluster.isLeaving = true) :
    (controller.reconcile reportFails ref).reports = controller.reports := by
  unfold reconcile
  cases found : controller.cache.lookup ref with
  | none => rfl
  | some cluster => simp [Machine.reconcile, left cluster found]

end Reports

/-- The tasks are those that the specs ask for which have been observed. -/
structure Aligned (controller : Controller σ ρ) (seen : SetKey → Option AutoscalerSpec) : Prop where
  cached : controller.Cached
  governed : Governed controller.machine.registry controller.machine
  honours : controller.machine.registry.Honours seen

namespace Aligned

variable {controller : Controller σ ρ} {seen : SetKey → Option AutoscalerSpec}

theorem initial (state : σ) : Aligned ({ machine := { state } } : Controller σ ρ) fun _ => none :=
  ⟨List.forall_mem_nil _, .initial state, rfl, fun _ _ absent => by cases absent⟩

theorem move (aligned : controller.Aligned seen) {next : Move} (proper : next.Proper) :
    (controller.move work next).Aligned fun key =>
      (next.steps controller).foldl (Step.tell key) (seen key) := by
  have machine := aligned.cached.machine_move work next
  refine ⟨aligned.cached.move work proper, ?_, ?_⟩
  · rw [machine]
    exact Governed.upheld.steps work _ aligned.governed
  · rw [machine]
    exact aligned.honours.steps work (aligned.cached.steps_proper proper)

/-- What some moves lead to. The live tasks of a cluster that none of them reconciles stay the same. -/
theorem moves (aligned : controller.Aligned seen) {moves : List Move} (proper : ∀ move ∈ moves, move.Proper) :
    ∃ told, (moves.foldl (Controller.move work) controller).Aligned told ∧
      ∀ ref : ClusterRef, (∀ move ∈ moves, move.Elsewhere ref) →
        ∀ key : SetKey, key.inCluster ref.ns ref.name = true → told key = seen key ∧
          (moves.foldl (Controller.move work) controller).machine.registry.find? key =
            controller.machine.registry.find? key := by
  induction moves generalizing controller seen with
  | nil => exact ⟨seen, aligned, fun _ _ _ _ => ⟨rfl, rfl⟩⟩
  | cons first rest ih =>
      obtain ⟨fine, others⟩ := List.forall_mem_cons.mp proper
      obtain ⟨told, final, kept⟩ := ih (aligned.move work fine) others
      refine ⟨told, final, fun ref elsewhere key own => ?_⟩
      obtain ⟨here, later⟩ := List.forall_mem_cons.mp elsewhere
      obtain ⟨same, found⟩ := kept ref later key own
      have misses := here.misses fine controller own
      rw [same, tell_steps misses]
      refine ⟨rfl, found.trans ?_⟩
      rw [aligned.cached.machine_move]
      exact Machine.find?_steps work aligned.honours.opened (aligned.cached.steps_proper fine) misses

variable {ref : ClusterRef} {cluster : Cluster} (reportFails : Bool)

theorem spares (aligned : controller.Aligned seen) : Spared ref.ns ref.name controller.machine.registry
    (controller.reconcile reportFails ref).machine.registry controller.machine
    (controller.reconcile reportFails ref).machine := by
  rw [aligned.cached.reconcile_machine]
  exact Machine.observe_spares aligned.governed fun entry mem => (aligned.cached.wanted.2 entry mem).1

include work

theorem reconcile (aligned : controller.Aligned seen) (ref : ClusterRef) :
    (controller.reconcile reportFails ref).Aligned fun key =>
      if key.inCluster ref.ns ref.name then (controller.wanted ref).lookup key else seen key :=
  aligned.move work (show (Move.reconciled reportFails ref).Proper from trivial)

theorem settled (aligned : controller.Aligned seen) (found : controller.cache.lookup ref = some cluster)
    (staying : cluster.isLeaving = false) :
    cluster.Settled (controller.reconcile reportFails ref).machine := by
  obtain ⟨rfl, read⟩ := aligned.cached.of_lookup found
  have after := aligned.reconcile work reportFails cluster.ref
  refine Cluster.settled_of_mirrors read.ordered (after.governed.mirrors after.honours) fun key own => ?_
  rw [if_pos own, wanted_of_staying found staying]

theorem none_live (aligned : controller.Aligned seen)
    (left : ∀ cluster, controller.cache.lookup ref = some cluster → cluster.isLeaving = true) :
    (controller.reconcile reportFails ref).machine.liveKeys ref = [] := by
  have after := aligned.reconcile work reportFails ref
  have mirrors := after.governed.mirrors after.honours
  refine List.filter_eq_nil_iff.mpr fun key listed own => ?_
  obtain ⟨its, given, -⟩ := (mirrors.keys key).mp listed
  rw [if_pos own, wanted_of_left left] at given
  cases given

end Aligned
end Controller
end SetScaler
