import SetScaler.Cluster.Resource
import SetScaler.Proofs.Cluster.RoundTrip
import SetScaler.Proofs.Json.Patching

/-!
# Where a count is recorded

The patch of a set's count changes one member of the written spec (`ClusterSpec.merge_toJson`). What is
read there is the count, the autoscalers stay as they are, and so do the counts of other sets, except that
the component's own count is also that of its sets without one.
-/

namespace SetScaler

/-- The members of a component that a set's count is recorded in. -/
def countPatch (set : String) (count : Int) : List (String × Json) :=
  if set = defaultSet then [("replicas", .int count)]
  else [("sets", .obj [(set, .obj [("replicas", .int count)])])]

theorem SetKey.replicasPatch_eq (key : SetKey) (count : Int) :
    key.replicasPatch count =
      .obj [("spec", .obj [(key.component.name, .obj (countPatch key.set count))])] := by
  unfold replicasPatch countPatch isDefault
  by_cases implicit : key.set = defaultSet
  · simp [implicit]
  · simp [implicit]

variable {settings : Type}

namespace SetSpec

/-- A set with another count. -/
def withCount (count : Int32) (own : SetSpec settings) : SetSpec settings :=
  { own with replicas := some count }

theorem merge_toJson (write : settings → Json) (own : SetSpec settings) (count : Int32) :
    (own.toJson write).merge (.obj [("replicas", .int count.toInt)]) =
      (own.withCount count).toJson write := by
  rw [toJson, toJson, Json.merge_obj, Json.mergeMembers_one _ _ fun absent => by cases absent]
  simp [Json.membersOf, Json.put, withCount, countJson, Json.ofOption]

end SetSpec

namespace ComponentSpec

variable (spec : ComponentSpec settings)

/-- A component with another count for one of its sets. -/
def withCount (set : String) (count : Int32) : ComponentSpec settings :=
  if set = defaultSet then { spec with replicas := some count }
  else { spec with
    sets := spec.sets.map fun entry => (entry.1, if entry.1 = set then entry.2.withCount count else entry.2) }

/-- Whether a set is one that the component has: the implicit one, or one of those named. -/
def Has (set : String) : Prop := set = defaultSet ∨ set ∈ spec.sets.map Prod.fst

/-- The count that a named set has of its own. -/
def ownCount (set : String) : Option Int32 := (spec.sets.lookup set).bind fun own => own.replicas

variable {spec} {set : String} {count : Int32}

theorem has_of_mem {entry : String × settings} (mem : entry ∈ spec.autoscalers) : spec.Has entry.1 := by
  unfold autoscalers at mem
  by_cases bare : spec.sets.isEmpty
  · rw [if_pos bare, Option.mem_toList] at mem
    obtain ⟨_, -, rfl⟩ := Option.map_eq_some_iff.mp mem
    exact .inl rfl
  · rw [if_neg bare] at mem
    obtain ⟨named, listed, given⟩ := List.mem_filterMap.mp mem
    obtain ⟨_, -, rfl⟩ := Option.map_eq_some_iff.mp given
    exact .inr (List.mem_map_of_mem listed)

theorem withCount_default (implicit : set = defaultSet) :
    spec.withCount set count = { spec with replicas := some count } :=
  if_pos implicit

theorem withCount_named (named : set ≠ defaultSet) :
    spec.withCount set count = { spec with
      sets := spec.sets.map fun entry =>
        (entry.1, if entry.1 = set then entry.2.withCount count else entry.2) } :=
  if_neg named

theorem Ordered.withCount (ordered : spec.Ordered) : (spec.withCount set count).Ordered := by
  by_cases implicit : set = defaultSet
  · rw [withCount_default implicit]
    exact ordered
  · rw [withCount_named implicit, Ordered, List.map_map]
    exact ordered

theorem withCount_autoscalers : (spec.withCount set count).autoscalers = spec.autoscalers := by
  by_cases implicit : set = defaultSet
  · rw [withCount_default implicit]
    rfl
  · rw [withCount_named implicit]
    have own (entry : String × SetSpec settings) :
        (if entry.1 = set then entry.2.withCount count else entry.2).autoscaler = entry.2.autoscaler := by
      split <;> rfl
    simp only [autoscalers, List.isEmpty_map, List.filterMap_map, Function.comp_def, own]

theorem replicasFor_named (named : set ≠ defaultSet) :
    spec.replicasFor set = (spec.ownCount set).or spec.replicas :=
  if_neg named

theorem withCount_replicasFor (has : spec.Has set) :
    (spec.withCount set count).replicasFor set = some count := by
  by_cases implicit : set = defaultSet
  · rw [withCount_default implicit, replicasFor, if_pos implicit]
  · obtain ⟨own, found⟩ := Json.mem_names_iff.mp (has.resolve_left implicit)
    have changed := Json.lookup_mapped (fun name (own : SetSpec settings) =>
      if name = set then own.withCount count else own) spec.sets set
    rw [withCount_named implicit, replicasFor, if_neg implicit]
    simp only [changed, found, Option.map_some, Option.bind_some]
    rfl

/-- The count of a set without one of its own is the component's. -/
theorem withCount_replicasFor_other {other : String} (differ : other ≠ set) :
    (spec.withCount set count).replicasFor other =
      if set = defaultSet ∧ spec.ownCount other = none then some count else spec.replicasFor other := by
  by_cases implicit : set = defaultSet
  · have named : other ≠ defaultSet := fun same => differ (same.trans implicit.symm)
    rw [withCount_default implicit, replicasFor_named named, replicasFor_named named]
    change (spec.ownCount other).or (some count) = _
    cases spec.ownCount other with
    | none => simp [implicit]
    | some held => simp
  · rw [withCount_named implicit, if_neg (fun both => implicit both.1)]
    have kept := Json.lookup_mapped (fun name (own : SetSpec settings) =>
      if name = set then own.withCount count else own) spec.sets other
    simp only [replicasFor, kept, if_neg differ, Option.map_id']

/-- A component that has the set is written with the other count after the patch. -/
theorem merge_toJson (write : settings → Json) (ordered : spec.Ordered) (has : spec.Has set)
    (count : Int32) : (spec.toJson write).merge (.obj (countPatch set count.toInt)) =
      (spec.withCount set count).toJson write := by
  by_cases implicit : set = defaultSet
  · rw [withCount_default implicit, countPatch, if_pos implicit, toJson, toJson, Json.merge_obj,
      Json.mergeMembers_one _ _ fun absent => by cases absent]
    simp [Json.membersOf, Json.put, countJson, Json.ofOption]
  · obtain ⟨own, found⟩ := Json.mem_names_iff.mp (has.resolve_left implicit)
    have distinct : (spec.sets.map Prod.fst).Nodup := ordered.imp fun less => String.ne_of_lt less
    have named : spec.sets.isEmpty = false := by
      cases none : spec.sets with
      | nil =>
          rw [none] at found
          cases found
      | cons => rfl
    -- the set is one of the members that are written, so the patch changes it in its place
    have changed := Json.merge_written (SetSpec.toJson write) (fun own => (own.withCount count).toJson write)
      distinct found (own.merge_toJson write count)
    have held : Json.valueOf "sets" [("replicas", countJson spec.replicas),
        ("autoscaler", Json.ofOption write spec.autoscaler),
        ("sets", .obj (spec.sets.map fun entry => (entry.1, entry.2.toJson write)))] =
          .obj (spec.sets.map fun entry => (entry.1, entry.2.toJson write)) := by
      simp [Json.valueOf, List.lookup_cons]
    rw [countPatch, if_neg implicit, toJson_of_named named, Json.merge_member, held, changed,
      withCount_named implicit, toJson_of_named (by simpa using named)]
    simp [Json.put, Function.comp_def, apply_ite]

end ComponentSpec

namespace ClusterSpec

variable (spec : ClusterSpec)

/-- A cluster with another count for one set of a component. -/
def withCount (component : Component) (set : String) (count : Int32) : ClusterSpec :=
  match component with
  | .broker => { spec with broker := spec.broker.map fun broker => broker.withCount set count }
  | .bookkeeper =>
    { spec with bookkeeper := spec.bookkeeper.map fun bookkeeper => bookkeeper.withCount set count }

/-- Whether a set is one of a component that the cluster has. -/
def Has (component : Component) (set : String) : Prop :=
  match component with
  | .broker => ∃ broker, spec.broker = some broker ∧ broker.Has set
  | .bookkeeper => ∃ bookkeeper, spec.bookkeeper = some bookkeeper ∧ bookkeeper.Has set

/-- The count that a named set of a component has of its own. -/
def ownCount (component : Component) (set : String) : Option Int32 :=
  match component with
  | .broker => spec.broker.bind fun broker => broker.ownCount set
  | .bookkeeper => spec.bookkeeper.bind fun bookkeeper => bookkeeper.ownCount set

variable {spec} {component : Component} {set : String} {count : Int32}

theorem has_of_mem {settings : AutoscalerSpec} (mem : (component, set, settings) ∈ spec.autoscalers) :
    spec.Has component set := by
  rcases List.mem_append.mp mem with brokers | bookies
  · obtain ⟨entry, listed, same⟩ := List.mem_map.mp brokers
    cases same
    cases given : spec.broker with
    | none => simp [given] at listed
    | some broker => exact ⟨broker, given, ComponentSpec.has_of_mem (by simpa [given] using listed)⟩
  · obtain ⟨entry, listed, same⟩ := List.mem_map.mp bookies
    cases same
    cases given : spec.bookkeeper with
    | none => simp [given] at listed
    | some bookkeeper =>
        exact ⟨bookkeeper, given, ComponentSpec.has_of_mem (by simpa [given] using listed)⟩

theorem Ordered.withCount (ordered : spec.Ordered) (component : Component) (set : String) (count : Int32) :
    (spec.withCount component set count).Ordered := by
  cases component with
  | broker =>
      refine ⟨fun after given => ?_, ordered.bookkeeper⟩
      obtain ⟨broker, present, rfl⟩ := Option.map_eq_some_iff.mp given
      exact (ordered.broker broker present).withCount
  | bookkeeper =>
      refine ⟨ordered.broker, fun after given => ?_⟩
      obtain ⟨bookkeeper, present, rfl⟩ := Option.map_eq_some_iff.mp given
      exact (ordered.bookkeeper bookkeeper present).withCount

theorem withCount_autoscalers : (spec.withCount component set count).autoscalers = spec.autoscalers := by
  cases component with
  | broker | bookkeeper =>
      simp only [withCount, autoscalers, Option.map_map, Function.comp_def,
        ComponentSpec.withCount_autoscalers]

theorem withCount_replicasFor (has : spec.Has component set) :
    (spec.withCount component set count).replicasFor component set = some count := by
  cases component with
  | broker =>
      obtain ⟨broker, given, has⟩ := has
      simp only [withCount, replicasFor, given, Option.map_some, Option.bind_some,
        ComponentSpec.withCount_replicasFor has]
  | bookkeeper =>
      obtain ⟨bookkeeper, given, has⟩ := has
      simp only [withCount, replicasFor, given, Option.map_some, Option.bind_some,
        ComponentSpec.withCount_replicasFor has]

theorem withCount_replicasFor_other {other : Component} {pool : String} (has : spec.Has other pool)
    (differ : ¬(other = component ∧ pool = set)) :
    (spec.withCount component set count).replicasFor other pool =
      if other = component ∧ set = defaultSet ∧ spec.ownCount other pool = none then some count
      else spec.replicasFor other pool := by
  by_cases same : other = component
  · subst same
    have apart : pool ≠ set := fun equal => differ ⟨rfl, equal⟩
    simp only [true_and]
    cases other with
    | broker =>
        obtain ⟨broker, given, -⟩ := has
        simp only [withCount, replicasFor, ownCount, given, Option.map_some, Option.bind_some,
          ComponentSpec.withCount_replicasFor_other apart]
    | bookkeeper =>
        obtain ⟨bookkeeper, given, -⟩ := has
        simp only [withCount, replicasFor, ownCount, given, Option.map_some, Option.bind_some,
          ComponentSpec.withCount_replicasFor_other apart]
  · rw [if_neg fun all => same all.1]
    -- the patch of one component does not touch the other one
    cases other with
    | broker => cases component with
      | broker => exact absurd rfl same
      | bookkeeper => rfl
    | bookkeeper => cases component with
      | broker => rfl
      | bookkeeper => exact absurd rfl same

/-- A cluster that has the set is written with the other count after the patch. -/
theorem merge_toJson (ordered : spec.Ordered) (has : spec.Has component set) (count : Int32) :
    spec.toJson.merge (.obj [(component.name, .obj (countPatch set count.toInt))]) =
      (spec.withCount component set count).toJson := by
  cases component with
  | broker =>
      obtain ⟨broker, given, has⟩ := has
      have merged := ComponentSpec.merge_toJson BrokerSpec.toJson (ordered.broker broker given) has count
      rw [toJson, Json.merge_member]
      simp [Json.valueOf, Component.name, given, Json.ofOption, merged, Json.put, withCount, toJson]
  | bookkeeper =>
      obtain ⟨bookkeeper, given, has⟩ := has
      have merged :=
        ComponentSpec.merge_toJson BookieSpec.toJson (ordered.bookkeeper bookkeeper given) has count
      rw [toJson, Json.merge_member]
      simp [Json.valueOf, List.lookup_cons, Component.name, given, Json.ofOption, merged, Json.put, withCount,
        toJson]

end ClusterSpec
end SetScaler
