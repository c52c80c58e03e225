import SetScaler.Proofs.Cluster.Counts
import SetScaler.Proofs.Schedule.Observation

/-!
# Recording a count

The patch of a set's count is applied to the resource of a cluster as it was written. The count is then
read where the set's count is looked up, the autoscalers are the same, and an observation of them leaves
every task alone (`patch_recorded`). The counts of the other sets stay as they are, unless the component's
own count is patched for a set named like the implicit one (`counts_after_patch`).
-/

namespace SetScaler

theorem ComponentSpec.Ordered.autoscalers {settings : Type} {spec : ComponentSpec settings}
    (ordered : spec.Ordered) : (spec.autoscalers.map Prod.fst).Nodup := by
  unfold ComponentSpec.autoscalers
  by_cases bare : spec.sets.isEmpty
  · rw [if_pos bare]
    cases spec.autoscaler <;> simp
  · rw [if_neg bare, List.Nodup, List.pairwise_map, List.pairwise_filterMap]
    refine (List.pairwise_map.mp ordered).imp fun less one given other also => ?_
    obtain ⟨_, -, rfl⟩ := Option.map_eq_some_iff.mp given
    obtain ⟨_, -, rfl⟩ := Option.map_eq_some_iff.mp also
    exact String.ne_of_lt less

theorem ClusterSpec.Ordered.autoscalers {spec : ClusterSpec} (ordered : spec.Ordered) :
    spec.autoscalers.Pairwise fun one other => one.1 = other.1 → one.2.1 ≠ other.2.1 := by
  have names {settings : Type} {component : Option (ComponentSpec settings)}
      (ordered : ∀ spec, component = some spec → spec.Ordered) :
      ((component.map fun spec => spec.autoscalers).getD []).Pairwise fun one other => one.1 ≠ other.1 := by
    cases component with
    | none => exact .nil
    | some spec => exact List.pairwise_map.mp (ordered spec rfl).autoscalers
  refine List.pairwise_append.mpr ⟨?_, ?_, fun one first other second same => ?_⟩
  · refine List.pairwise_map.mpr ((names ordered.broker).imp ?_)
    exact fun differ _ => differ
  · refine List.pairwise_map.mpr ((names ordered.bookkeeper).imp ?_)
    exact fun differ _ => differ
  · obtain ⟨_, -, rfl⟩ := List.mem_map.mp first
    obtain ⟨_, -, rfl⟩ := List.mem_map.mp second
    cases same

namespace Cluster

variable {cluster : Cluster} {key : SetKey} {settings : AutoscalerSpec}

theorem mem_autoscalerSpecs : (key, settings) ∈ cluster.autoscalerSpecs ↔
    key.ns = cluster.space ∧ key.cluster = cluster.displayName ∧
      (key.component, key.set, settings) ∈ cluster.spec.autoscalers := by
  obtain ⟨ns, name, component, set⟩ := key
  constructor
  · intro listed
    obtain ⟨entry, mem, same⟩ := List.mem_map.mp listed
    cases same
    exact ⟨rfl, rfl, mem⟩
  · rintro ⟨rfl, rfl, mem⟩
    exact List.mem_map.mpr ⟨_, mem, rfl⟩

theorem key_ext {other : SetKey} {its : AutoscalerSpec} (listed : (key, settings) ∈ cluster.autoscalerSpecs)
    (also : (other, its) ∈ cluster.autoscalerSpecs) (component : key.component = other.component)
    (set : key.set = other.set) : key = other := by
  obtain ⟨ns, name, -⟩ := mem_autoscalerSpecs.mp listed
  obtain ⟨its_ns, its_name, -⟩ := mem_autoscalerSpecs.mp also
  cases key
  cases other
  rw [SetKey.mk.injEq]
  exact ⟨ns.trans its_ns.symm, name.trans its_name.symm, component, set⟩

theorem keys_distinct (ordered : cluster.spec.Ordered) : (cluster.autoscalerSpecs.map Prod.fst).Nodup := by
  rw [autoscalerSpecs, List.map_map, List.Nodup, List.pairwise_map]
  refine ordered.autoscalers.imp fun differ same => ?_
  injection same with _ _ component set
  exact differ component set

theorem ordered_of_ofJson? {json : Json} (reads : ofJson? json = some cluster) : cluster.spec.Ordered := by
  unfold ofJson? at reads
  simp only [Option.bind_eq_bind, Option.bind_eq_some_iff] at reads
  obtain ⟨_, -, _, -, spec, ⟨json, -, held⟩, _, -, given⟩ := reads
  cases given
  exact ClusterSpec.ordered_of_ofJson? held

/-- The members of a resource that keep a cluster as it was written: its spec as its own record, and
whatever is read as its metadata and its status. -/
structure Stored (cluster : Cluster) (members : List (String × Json)) : Prop where
  distinct : (members.map Prod.fst).Nodup
  metadata : (members.lookup "metadata").bind Metadata.ofJson? = some cluster.toMetadata
  spec : members.lookup "spec" = some cluster.spec.toJson
  status : (members.lookup "status").elim (some none) (Json.option? ClusterStatus.ofJson?) = some cluster.status
  /-- As in every cluster that has been read (`Cluster.ordered_of_ofJson?`). -/
  ordered : cluster.spec.Ordered

/-- A cluster with another count for one of its sets. -/
def withCount (cluster : Cluster) (key : SetKey) (count : Int32) : Cluster :=
  { cluster with spec := cluster.spec.withCount key.component key.set count }

namespace Stored

variable {members : List (String × Json)}

theorem ofJson? (stored : cluster.Stored members) : Cluster.ofJson? (.obj members) = some cluster := by
  have lookup := Json.member?_eq_lookup stored.distinct
  have status : (Json.obj members).maybe? "status" ClusterStatus.ofJson? = some cluster.status := by
    rw [← stored.status, Json.maybe?, lookup]
    cases members.lookup "status" <;> rfl
  simp only [Cluster.ofJson?, Json.members?, lookup, status, stored.metadata, stored.spec,
    ClusterSpec.ofJson?_toJson stored.ordered, Option.bind_eq_bind, Option.bind_some]
  rfl

theorem patch (stored : cluster.Stored members) (listed : (key, settings) ∈ cluster.autoscalerSpecs)
    (count : Int32) : ∃ patched, (Json.obj members).merge (key.replicasPatch count.toInt) = .obj patched ∧
      (cluster.withCount key count).Stored patched := by
  have has := ClusterSpec.has_of_mem (mem_autoscalerSpecs.mp listed).2.2
  have written : (Json.obj members).merge (key.replicasPatch count.toInt) =
      .obj (Json.put "spec" (cluster.withCount key count).spec.toJson members) := by
    rw [key.replicasPatch_eq, Json.merge_member, Json.valueOf, stored.spec, Option.getD_some,
      ClusterSpec.merge_toJson stored.ordered has]
    rfl
  have there : "spec" ∈ members.map Prod.fst := Json.mem_names_iff.mpr ⟨_, stored.spec⟩
  refine ⟨_, written, ?_, ?_, ?_, ?_, stored.ordered.withCount ..⟩
  · rw [Json.names_put there]
    exact stored.distinct
  · rw [Json.lookup_put, if_neg (by decide)]
    exact stored.metadata
  · rw [Json.lookup_put, if_pos rfl]
  · rw [Json.lookup_put, if_neg (by decide)]
    exact stored.status

end Stored

theorem inside {entry : SetKey × AutoscalerSpec} (listed : entry ∈ cluster.autoscalerSpecs) :
    entry.1.inCluster cluster.space cluster.displayName = true := by
  obtain ⟨ns, name, -⟩ := mem_autoscalerSpecs.mp listed
  rw [SetKey.inCluster, ns, name, beq_self_eq_true, beq_self_eq_true, Bool.and_self]

theorem withCount_autoscalerSpecs (cluster : Cluster) (key : SetKey) (count : Int32) :
    (cluster.withCount key count).autoscalerSpecs = cluster.autoscalerSpecs := by
  unfold autoscalerSpecs withCount
  rw [ClusterSpec.withCount_autoscalers]
  rfl

end Cluster

open Schedule

/-- Brokers with three named sets, of which one has a count of its own and one the name of the implicit
set. -/
def shadowed : Cluster where
  name := some "prod"
  ns := some "pulsar"
  spec := { broker := some {
    replicas := some 2
    autoscaler := some { enabled := true }
    sets := [("default", {}), ("pinned", { replicas := some 4 }), ("shared", {})] } }

/-- The brokers' set of that name. -/
def pool (set : String) : SetKey := ⟨"pulsar", "prod", .broker, set⟩

def shadowedMembers : List (String × Json) :=
  [("metadata", .obj [("name", .str "prod"), ("namespace", .str "pulsar")]),
    ("spec", shadowed.spec.toJson)]

theorem shadowed_stored : shadowed.Stored shadowedMembers where
  distinct := by decide
  metadata := rfl
  spec := rfl
  status := rfl
  ordered := by
    refine ⟨fun broker given => ?_, fun _ absent => by cases absent⟩
    cases given
    unfold ComponentSpec.Ordered
    decide +kernel

theorem shadowed_autoscalerSpecs : shadowed.autoscalerSpecs =
    ["default", "pinned", "shared"].map fun set => (pool set, .broker { enabled := true }) := rfl

theorem mem_shadowed (set : String) (named : set ∈ ["default", "pinned", "shared"]) :
    (pool set, .broker { enabled := true }) ∈ shadowed.autoscalerSpecs :=
  shadowed_autoscalerSpecs ▸ List.mem_map_of_mem named

section Patch

variable {cluster : Cluster} {members : List (String × Json)} {key : SetKey} {settings : AutoscalerSpec}

/-- The patch of a set's count to the resource of a cluster is read as that count, and as the same
autoscalers. So when that cluster's latest observation was of those, another one leaves every task alone. -/
theorem patch_recorded (stored : cluster.Stored members)
    (listed : (key, settings) ∈ cluster.autoscalerSpecs) (count : Int32) :
    ∃ after : Cluster,
      Cluster.ofJson? ((Json.obj members).merge (key.replicasPatch count.toInt)) = some after ∧
      after.replicasFor key.component key.set = some count ∧
      after.autoscalerSpecs = cluster.autoscalerSpecs ∧
      ∀ {σ ρ : Type} (work : Workload σ ρ) (state : σ) (steps : List Step),
        (∀ step ∈ steps, step.Proper) →
        (∀ other : SetKey, other.inCluster cluster.space cluster.displayName = true →
          latest steps other = cluster.autoscalerSpecs.lookup other) →
        let machine := steps.foldl (Machine.step work) { state }
        let observed := machine.observe after.space after.displayName after.autoscalerSpecs
        observed.registry.live = machine.registry.live ∧ observed.tasks = machine.tasks := by
  obtain ⟨patched, written, again⟩ := stored.patch listed count
  have has := ClusterSpec.has_of_mem (Cluster.mem_autoscalerSpecs.mp listed).2.2
  have same := cluster.withCount_autoscalerSpecs key count
  refine ⟨cluster.withCount key count, written ▸ again.ofJson?, ClusterSpec.withCount_replicasFor has, same,
    fun work state steps proper observed => ?_⟩
  rw [same]
  exact Machine.observe_latest work state proper (Cluster.keys_distinct stored.ordered)
    (fun entry mem => show entry.1.inCluster cluster.space cluster.displayName = true from
      Cluster.inside mem) observed

theorem patch_recorded_shared : shadowed.Stored shadowedMembers ∧
    (pool "shared", .broker { enabled := true }) ∈ shadowed.autoscalerSpecs ∧ ∃ after : Cluster,
    Cluster.ofJson? ((Json.obj shadowedMembers).merge ((pool "shared").replicasPatch 3)) = some after ∧
    after.replicasFor .broker "shared" = some 3 ∧
    let machine := [Step.observe "pulsar" "prod" shadowed.autoscalerSpecs].foldl (Machine.step .prompt)
      { state := () }
    let observed := machine.observe after.space after.displayName after.autoscalerSpecs
    machine.registry.live.map Scheduled.key = [pool "default", pool "pinned", pool "shared"] ∧
      observed.registry.live = machine.registry.live ∧ observed.tasks = machine.tasks := by
  obtain ⟨after, reads, count, -, kept⟩ := patch_recorded shadowed_stored (mem_shadowed "shared" (by decide)) 3
  refine ⟨shadowed_stored, mem_shadowed "shared" (by decide), after, reads, count, by decide +kernel, ?_⟩
  refine kept .prompt () [.observe "pulsar" "prod" shadowed.autoscalerSpecs] ?_ fun other own => if_pos own
  refine List.forall_mem_singleton.mpr ⟨Cluster.keys_distinct shadowed_stored.ordered, fun entry mem => ?_⟩
  obtain ⟨set, -, rfl⟩ := List.mem_map.mp (shadowed_autoscalerSpecs ▸ mem)
  have numbers : (AutoscalerSpec.broker { enabled := true }).hasNaN = false := by decide +kernel
  exact ⟨Cluster.inside mem, numbers⟩

/-- What the patch of a set's count does to the count of another one: nothing, unless it is the count that
the other one takes from its component. -/
theorem counts_after_patch (stored : cluster.Stored members)
    (listed : (key, settings) ∈ cluster.autoscalerSpecs) {other : SetKey} {its : AutoscalerSpec}
    (also : (other, its) ∈ cluster.autoscalerSpecs) (differ : other ≠ key) (count : Int32) :
    ∃ after : Cluster,
      Cluster.ofJson? ((Json.obj members).merge (key.replicasPatch count.toInt)) = some after ∧
      after.replicasFor other.component other.set =
        if other.component = key.component ∧ key.set = defaultSet ∧
            cluster.spec.ownCount other.component other.set = none then some count
        else cluster.replicasFor other.component other.set := by
  obtain ⟨patched, written, again⟩ := stored.patch listed count
  have present := (Cluster.mem_autoscalerSpecs.mp also).2.2
  have apart : ¬(other.component = key.component ∧ other.set = key.set) := fun same =>
    differ (Cluster.key_ext also listed same.1 same.2)
  exact ⟨cluster.withCount key count, written ▸ again.ofJson?,
    ClusterSpec.withCount_replicasFor_other (ClusterSpec.has_of_mem present) apart⟩

theorem counts_after_patch_pinned : shadowed.Stored shadowedMembers ∧
    (pool "default", .broker { enabled := true }) ∈ shadowed.autoscalerSpecs ∧
    (pool "pinned", .broker { enabled := true }) ∈ shadowed.autoscalerSpecs ∧ ∃ after : Cluster,
    Cluster.ofJson? ((Json.obj shadowedMembers).merge ((pool "default").replicasPatch 7)) = some after ∧
    after.replicasFor .broker "pinned" = some 4 := by
  have patched := mem_shadowed "default" (by decide)
  have other := mem_shadowed "pinned" (by decide)
  obtain ⟨after, reads, count⟩ := counts_after_patch shadowed_stored patched other (by decide) 7
  exact ⟨shadowed_stored, patched, other, after, reads, count.trans (by decide +kernel)⟩

/-- The count of a set that has none of its own changes with that of the set named like the implicit one. -/
theorem shared_count_overwritten : ∃ after : Cluster,
    Cluster.ofJson? ((Json.obj shadowedMembers).merge ((pool "default").replicasPatch 7)) = some after ∧
    shadowed.autoscalerSpecs.map Prod.fst = [pool "default", pool "pinned", pool "shared"] ∧
    shadowed.replicasFor .broker "shared" = some 2 ∧ after.replicasFor .broker "shared" = some 7 := by
  obtain ⟨patched, written, again⟩ := shadowed_stored.patch (mem_shadowed "default" (by decide)) 7
  exact ⟨_, written ▸ again.ofJson?, rfl, by decide +kernel, by decide +kernel⟩

end Patch
end SetScaler
