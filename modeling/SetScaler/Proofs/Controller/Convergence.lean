import SetScaler.Proofs.Controller.Settling

/-!
# Reconciling converges

Once a resource has been reconciled, its cluster's tasks are in line with it, and the tasks of all other
clusters are as they were. The report of the live sets, once it has been applied, is not followed by another
one, and no task is replaced (`reconcile_converges`).
-/

namespace SetScaler.Controller

open Schedule

variable {σ ρ : Type} (work : Workload σ ρ)

/-- A reconciliation that reports nothing and leaves the tasks alone, those of its cluster since earlier. -/
structure Unmoved (ref : ClusterRef) (earlier before after : Controller σ ρ) : Prop where
  reports : after.reports = before.reports
  live : after.machine.registry.live = before.machine.registry.live
  tasks : after.machine.tasks = before.machine.tasks
  since : ∀ key : SetKey, key.inCluster ref.ns ref.name = true →
    after.machine.registry.generation? key = earlier.machine.registry.generation? key

/-- What a reconciliation makes of a resource that is not being deleted. -/
structure Converges (cluster : Cluster) (before after : Controller σ ρ) : Prop where
  settled : cluster.Settled after.machine
  listing : after.machine.liveSets cluster.ref = (after.machine.liveKeys cluster.ref).map SetKey.shortName
  reported : after.reports = before.reports ++
    if cluster.status.map ClusterStatus.autoscaledSets = some (after.machine.liveSets cluster.ref) then []
    else [⟨cluster.ref, after.machine.liveSets cluster.ref⟩]
  /-- The report is written to the resource, whatever that has for a status. -/
  recorded : ∀ members : List (String × Json), (members.map Prod.fst).Nodup →
    Cluster.ofJson? (.obj members) = some cluster → ∀ now : String, ∃ again,
      Cluster.ofJson? ((Json.obj members).merge
        ((⟨cluster.ref, after.machine.liveSets cluster.ref⟩ : Report).patch now)) = some again ∧
      again.Repeats cluster (after.machine.liveSets cluster.ref)
  /-- Other resources may be reconciled, and the tasks go on, before this one is reconciled again. -/
  unmoved : ∀ again : Cluster, again.Repeats cluster (after.machine.liveSets cluster.ref) →
    ∀ later : List Move, (∀ move ∈ later, move.Proper) → (∀ move ∈ later, move.Elsewhere cluster.ref) →
      ∀ reportFails : Bool,
        let before := (later.foldl (move work) after).applied again
        Unmoved cluster.ref after before (before.reconcile reportFails cluster.ref)

theorem Aligned.unmoved {controller : Controller σ ρ} {seen : SetKey → Option AutoscalerSpec}
    (aligned : controller.Aligned seen) {cluster : Cluster} (read : cluster.WellRead)
    (told : ∀ key : SetKey, key.inCluster cluster.ref.ns cluster.ref.name = true →
      seen key = cluster.autoscalerSpecs.lookup key)
    {again : Cluster} (repeats : again.Repeats cluster (controller.machine.liveSets cluster.ref))
    {later : List Move} (proper : ∀ move ∈ later, move.Proper)
    (elsewhere : ∀ move ∈ later, move.Elsewhere cluster.ref) (reportFails : Bool) :
    let before := (later.foldl (Controller.move work) controller).applied again
    Unmoved cluster.ref controller before (before.reconcile reportFails cluster.ref) := by
  intro before
  obtain ⟨still, after, kept⟩ := aligned.moves work proper
  have next : before.Aligned still :=
    after.move work (show (Move.applied again).Proper from repeats.wellRead read)
  have since : ∀ key : SetKey, key.inCluster cluster.ref.ns cluster.ref.name = true → still key = seen key ∧
      before.machine.registry.find? key = controller.machine.registry.find? key := kept cluster.ref elsewhere
  have found : before.cache.lookup cluster.ref = some again := repeats.ref ▸ lookup_applied _ again
  have wanted : before.wanted cluster.ref = cluster.autoscalerSpecs :=
    (wanted_of_staying found repeats.staying).trans repeats.autoscalerSpecs
  have machine : (before.reconcile reportFails cluster.ref).machine = { before.machine with
      registry := before.machine.registry.prune (Machine.hasFinished before.machine.tasks) } := by
    rw [next.cached.reconcile_machine, wanted]
    exact Machine.observe_honoured next.honours (Cluster.keys_distinct read.ordered)
      (fun entry listed => Cluster.inside listed) fun key own => (since key own).1.trans (told key own)
  have settled := next.settled work reportFails found repeats.staying
  have earlier : cluster.Settled controller.machine :=
    Cluster.settled_of_mirrors read.ordered (aligned.governed.mirrors aligned.honours) told
  have sets : (before.reconcile reportFails cluster.ref).machine.liveSets cluster.ref =
      controller.machine.liveSets cluster.ref :=
    congrArg (List.map SetKey.shortName) (settled.liveKeys_eq earlier repeats)
  constructor
  · rw [reconcile_reports reportFails found repeats.ref repeats.staying, sets, if_pos repeats.lists,
      List.append_nil]
  · rw [machine]
    rfl
  · rw [machine]
  · intro key own
    rw [machine]
    exact congrArg (Option.map Scheduled.generation) (since key own).2

/-- Whatever has happened before, reconciling a resource brings the tasks of its cluster in line with it,
leaves those of all other clusters as they are, and has no effect again once its report has been applied.
What the controller does as time passes is a sequence of such moves too. -/
theorem reconcile_converges (state : σ) {moves : List Move} (proper : ∀ move ∈ moves, move.Proper)
    (reportFails : Bool) (ref : ClusterRef) :
    let before := moves.foldl (move work) { machine := { state } }
    let after := before.reconcile reportFails ref
    Spared ref.ns ref.name before.machine.registry after.machine.registry before.machine after.machine ∧
    (∀ cluster, before.cache.lookup ref = some cluster → cluster.isLeaving = false →
      cluster.ref = ref ∧ Converges work cluster before after) ∧
    ((∀ cluster, before.cache.lookup ref = some cluster → cluster.isLeaving = true) →
      after.machine.liveKeys ref = [] ∧ after.reports = before.reports) ∧
    ∀ ms : Nat, before.Reaches work (before.advance work reportFails ms) := by
  intro before after
  obtain ⟨seen, aligned, -⟩ := (Aligned.initial state).moves work proper
  refine ⟨aligned.spares reportFails, fun cluster found staying => ?_, fun left =>
    ⟨aligned.none_live work reportFails left, reconcile_reports_of_left reportFails left⟩,
    fun ms => reaches_advance work reportFails ms before⟩
  obtain ⟨own, read⟩ := aligned.cached.of_lookup found
  subst own
  refine ⟨rfl, ?_⟩
  have told := aligned.reconcile work reportFails cluster.ref
  constructor
  · exact aligned.settled work reportFails found staying
  · rfl
  · exact reconcile_reports reportFails found rfl staying
  · exact fun members distinct reads now => ⟨_, Cluster.ofJson?_report distinct reads _ now,
      Cluster.reporting_repeats staying _ now⟩
  · intro again repeats later fine elsewhere fails
    refine told.unmoved work read (fun key own => ?_) repeats fine elsewhere fails
    rw [if_pos own, wanted_of_staying found staying]

/-- One cluster is reconciled for the first time, after another one that is gone. -/
def arrivals : List Move :=
  [.applied shadowed, .reconciled false ⟨"pulsar", "gone"⟩, .worked (.elapse 1000)]

theorem reconcile_converges_shadowed :
    let before : Controller Unit Unit := arrivals.foldl (move .prompt) { machine := { state := () } }
    let after := before.reconcile false shadowed.ref
    (∀ move ∈ arrivals, move.Proper) ∧ Converges .prompt shadowed before after ∧
      after.reports = [⟨shadowed.ref, ["broker/default", "broker/pinned", "broker/shared"]⟩] := by
  intro before after
  have scales (key : SetKey) (its : AutoscalerSpec) : shadowed.Scales key its ↔
      ∃ set ∈ ["default", "pinned", "shared"], pool set = key ∧ .broker { enabled := true } = its := by
    rw [← Cluster.mem_autoscalerSpecs_iff, shadowed_autoscalerSpecs]
    simp only [List.mem_map, Prod.mk.injEq]
  have read : shadowed.WellRead := by
    refine ⟨shadowed_stored.ordered, fun key its scaled => ?_⟩
    obtain ⟨set, -, -, rfl⟩ := (scales key its).mp scaled
    decide +kernel
  have proper : ∀ move ∈ arrivals, move.Proper := by
    simp [arrivals, Move.Proper, read, Step.isWork]
  have converges := ((reconcile_converges .prompt () proper false shadowed.ref).2.1 shadowed rfl rfl).2
  have ascending : Ascending (["default", "pinned", "shared"].map pool) := by
    unfold Ascending
    decide +kernel
  have listed : after.machine.liveKeys shadowed.ref = ["default", "pinned", "shared"].map pool := by
    refine converges.settled.ascending.ext ascending fun key => ?_
    rw [converges.settled.keys, List.mem_map]
    constructor
    · rintro ⟨its, scaled, -⟩
      obtain ⟨set, named, same, -⟩ := (scales key its).mp scaled
      exact ⟨set, named, same⟩
    · rintro ⟨set, named, same⟩
      exact ⟨_, (scales key _).mpr ⟨set, named, same, rfl⟩, rfl⟩
  have sets : after.machine.liveSets shadowed.ref = ["broker/default", "broker/pinned", "broker/shared"] := by
    rw [converges.listing, listed]
    decide +kernel
  refine ⟨proper, converges, ?_⟩
  rw [converges.reported, sets]
  rfl

end SetScaler.Controller
