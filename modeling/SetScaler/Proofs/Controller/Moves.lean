import SetScaler.Controller.Loop
import SetScaler.Proofs.Cluster.Scaling
import SetScaler.Proofs.Schedule.Elsewhere

/-!
# The controller, move by move

New versions of resources, reconciliations and the work of tasks come in any order (`Move`). What the
controller does as time passes comes down to such moves (`reaches_advance`). To the tasks a move is
at most one step, and a reconciliation is an observation of the specs that the cache has for its resource
(`machine_move`).
-/

namespace SetScaler.Controller

open Schedule

/-- What can happen next. -/
inductive Move where
  /-- A version of a resource enters the cache. -/
  | applied (cluster : Cluster)
  /-- A resource leaves the cache. -/
  | deleted (ref : ClusterRef)
  | queued (queue : List (ClusterRef × Nat))
  | reconciled (reportFails : Bool) (ref : ClusterRef)
  /-- Time passes, or a task goes on. -/
  | worked (step : Step)

namespace Move

def Proper : Move → Prop
  | applied cluster => cluster.WellRead
  | worked step => step.isWork = true
  | deleted _ | queued _ | reconciled .. => True

/-- Whether a move reconciles no resource of that name. -/
def Elsewhere (ref : ClusterRef) : Move → Prop
  | reconciled _ other => other ≠ ref
  | applied _ | deleted _ | queued _ | worked _ => True

end Move

variable {σ ρ : Type} (work : Workload σ ρ)

def move (controller : Controller σ ρ) : Move → Controller σ ρ
  | .applied cluster => controller.applied cluster
  | .deleted ref => controller.deleted ref
  | .queued queue => { controller with queue }
  | .reconciled reportFails ref => controller.reconcile reportFails ref
  | .worked step => { controller with machine := controller.machine.step work step }

/-- Some moves lead from one state to another. -/
def Reaches (controller after : Controller σ ρ) : Prop :=
  ∃ moves : List Move, (∀ move ∈ moves, move.Proper) ∧ moves.foldl (move work) controller = after

section Reaches

variable {work}

theorem Reaches.trans {first second third : Controller σ ρ} (early : first.Reaches work second)
    (late : second.Reaches work third) : first.Reaches work third := by
  obtain ⟨moves, proper, rfl⟩ := early
  obtain ⟨others, also, rfl⟩ := late
  exact ⟨moves ++ others, List.forall_mem_append.mpr ⟨proper, also⟩, List.foldl_append⟩

theorem foldl_worked (steps : List Step) (controller : Controller σ ρ) :
    (steps.map Move.worked).foldl (move work) controller =
      { controller with machine := steps.foldl (Machine.step work) controller.machine } := by
  induction steps generalizing controller with
  | nil => rfl
  | cons first rest ih => exact ih _

theorem Reaches.of_works {controller : Controller σ ρ} {machine : Machine σ ρ}
    (works : controller.machine.Works work machine) :
    controller.Reaches work { controller with machine } := by
  obtain ⟨steps, proper, rfl⟩ := works
  exact ⟨steps.map Move.worked, List.forall_mem_map.mpr proper, foldl_worked steps controller⟩

end Reaches

theorem reaches_reconcileDue (reportFails : Bool) (controller : Controller σ ρ) :
    controller.Reaches work (controller.reconcileDue reportFails) := by
  let split := controller.queue.partition fun entry => entry.2 ≤ controller.machine.time
  refine ⟨.queued split.2 :: (split.1.map (·.1)).map (.reconciled reportFails), ?_, ?_⟩
  · exact List.forall_mem_cons.mpr ⟨trivial, List.forall_mem_map.mpr fun ref _ => trivial⟩
  · rw [List.foldl_cons, List.foldl_map]
    rfl

theorem reaches_advanceTo (reportFails : Bool) (limit : Nat) (controller : Controller σ ρ) :
    controller.Reaches work (controller.advanceTo work reportFails limit) := by
  have settles (controller : Controller σ ρ) := reaches_reconcileDue work reportFails controller
  fun_induction advanceTo work reportFails limit controller with
  | case1 controller settled => exact (settles controller).trans (.of_works (Machine.works_advanceTo ..))
  | case2 controller settled due later before ih =>
      exact ((settles controller).trans (.of_works (Machine.works_advanceTo ..))).trans ih
  | case3 controller settled => exact (settles controller).trans (.of_works (Machine.works_advanceTo ..))

theorem reaches_advance (reportFails : Bool) (ms : Nat) (controller : Controller σ ρ) :
    controller.Reaches work (controller.advance work reportFails ms) :=
  reaches_advanceTo work reportFails _ controller

/-- The specs that a resource is reconciled to. One that is being deleted, or is gone, has none. -/
def wanted (controller : Controller σ ρ) (ref : ClusterRef) : List (SetKey × AutoscalerSpec) :=
  match controller.cache.lookup ref with
  | none => []
  | some cluster => if cluster.isLeaving then [] else cluster.autoscalerSpecs

theorem wanted_of_staying {controller : Controller σ ρ} {ref : ClusterRef} {cluster : Cluster}
    (found : controller.cache.lookup ref = some cluster) (staying : cluster.isLeaving = false) :
    controller.wanted ref = cluster.autoscalerSpecs := by
  simp [wanted, found, staying]

theorem wanted_of_left {controller : Controller σ ρ} {ref : ClusterRef}
    (left : ∀ cluster, controller.cache.lookup ref = some cluster → cluster.isLeaving = true) :
    controller.wanted ref = [] := by
  unfold wanted
  cases found : controller.cache.lookup ref with
  | none => rfl
  | some cluster => exact if_pos (left cluster found)

/-- What a move asks of the tasks. -/
def Move.steps (controller : Controller σ ρ) : Move → List Step
  | applied _ | deleted _ | queued _ => []
  | reconciled _ ref => [.observe ref.ns ref.name (controller.wanted ref)]
  | worked step => [step]

/-- The cache has resources under their names. -/
def Cached (controller : Controller σ ρ) : Prop :=
  ∀ entry ∈ controller.cache, entry.2.ref = entry.1 ∧ entry.2.WellRead

namespace Cached

variable {controller : Controller σ ρ} {ref : ClusterRef} {cluster : Cluster}

theorem of_lookup (cached : controller.Cached) (found : controller.cache.lookup ref = some cluster) :
    cluster.ref = ref ∧ cluster.WellRead := by
  obtain ⟨before, after, held, -⟩ := List.lookup_eq_some_iff.mp found
  exact cached (ref, cluster) (held ▸ List.mem_append_right before List.mem_cons_self)

theorem wanted (cached : controller.Cached) :
    (Step.observe ref.ns ref.name (controller.wanted ref)).Proper := by
  by_cases left : ∀ cluster, controller.cache.lookup ref = some cluster → cluster.isLeaving = true
  · rw [wanted_of_left left]
    exact ⟨.nil, fun _ absent => by cases absent⟩
  · simp only [not_forall, Bool.not_eq_true] at left
    obtain ⟨cluster, found, staying⟩ := left
    rw [wanted_of_staying found staying]
    obtain ⟨rfl, read⟩ := cached.of_lookup found
    refine ⟨Cluster.keys_distinct read.ordered, fun entry listed => ⟨Cluster.inside listed, ?_⟩⟩
    exact read.numbers _ _ (Cluster.mem_autoscalerSpecs_iff.mp listed)

theorem reconcile_machine (cached : controller.Cached) (reportFails : Bool) :
    (controller.reconcile reportFails ref).machine =
      controller.machine.observe ref.ns ref.name (controller.wanted ref) := by
  unfold reconcile Controller.wanted
  cases found : controller.cache.lookup ref with
  | none => rfl
  | some cluster =>
      obtain ⟨rfl, -⟩ := cached.of_lookup found
      cases leaving : cluster.isLeaving <;> simp [Machine.reconcile, leaving, schedule, Machine.forget]

theorem machine_move (cached : controller.Cached) (next : Move) :
    (controller.move work next).machine =
      (next.steps controller).foldl (Machine.step work) controller.machine := by
  cases next with
  | reconciled reportFails ref => exact cached.reconcile_machine reportFails
  | applied | deleted | queued | worked => rfl

theorem steps_proper (cached : controller.Cached) {next : Move} (proper : next.Proper) :
    ∀ step ∈ next.steps controller, step.Proper := by
  cases next with
  | applied | deleted | queued => exact fun _ absent => by cases absent
  | reconciled reportFails ref => exact List.forall_mem_singleton.mpr cached.wanted
  | worked step =>
      refine List.forall_mem_singleton.mpr ?_
      cases step with
      | observe | close => cases proper
      | elapse | settle | wake => trivial

end Cached

section Cache

theorem reconcile_cache (reportFails : Bool) (controller : Controller σ ρ) (ref : ClusterRef) :
    (controller.reconcile reportFails ref).cache = controller.cache := by
  unfold reconcile
  split
  · rfl
  · dsimp only
    split <;> rfl

theorem Cached.move {controller : Controller σ ρ} (cached : controller.Cached) {next : Move}
    (proper : next.Proper) : (controller.move work next).Cached := by
  cases next with
  | applied cluster =>
      refine fun entry mem => ?_
      rcases List.mem_append.mp mem with mem | mem
      · exact cached entry (List.mem_filter.mp mem).1
      · rw [List.mem_singleton.mp mem]
        exact ⟨rfl, proper⟩
  | deleted ref => exact fun entry mem => cached entry (List.mem_filter.mp mem).1
  | reconciled reportFails ref =>
      unfold Cached
      rw [Controller.move, reconcile_cache]
      exact cached
  | queued | worked => exact cached

theorem lookup_applied (controller : Controller σ ρ) (cluster : Cluster) :
    (controller.applied cluster).cache.lookup cluster.ref = some cluster := by
  have absent : (controller.cache.filter fun entry => entry.1 != cluster.ref).lookup cluster.ref = none :=
    List.lookup_eq_none_iff.mpr fun entry mem => by
      have apart : entry.1 ≠ cluster.ref := by simpa using (List.mem_filter.mp mem).2
      simpa using Ne.symm apart
  change ((controller.cache.filter _) ++ [(cluster.ref, cluster)]).lookup cluster.ref = some cluster
  rw [List.lookup_append, absent, Option.none_or, List.lookup_cons_self]

end Cache

theorem Move.Elsewhere.misses {next : Move} {ref : ClusterRef} (elsewhere : next.Elsewhere ref)
    (proper : next.Proper) (controller : Controller σ ρ) {key : SetKey}
    (own : key.inCluster ref.ns ref.name = true) : ∀ step ∈ next.steps controller, step.Misses key := by
  cases next with
  | applied | deleted | queued => exact fun _ absent => by cases absent
  | reconciled reportFails other =>
      refine List.forall_mem_singleton.mpr ?_
      by_contra misses
      rw [Step.Misses, Bool.not_eq_false] at misses
      exact elsewhere (ref_of_inCluster misses own)
  | worked step =>
      refine List.forall_mem_singleton.mpr ?_
      cases step with
      | observe | close => cases proper
      | elapse | settle | wake => trivial

end SetScaler.Controller
