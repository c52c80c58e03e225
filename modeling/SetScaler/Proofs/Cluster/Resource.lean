import SetScaler.Json.Writer
import SetScaler.Proofs.Cluster.Reporting

/-!
# A resource through its written form

A value that is written keeps only what its text can say: a double that is not finite is written as `null`
(`Json.plain`). Specs with finite thresholds and all statuses lose nothing by that, so whatever a spec or a
status was read from, its written form reads as the same, and from then on nothing changes.
-/

namespace SetScaler

namespace Json

mutual

/-- What is left of a value when it is written. -/
def plain : Json → Json
  | .null => .null
  | .bool value => .bool value
  | .int value => .int value
  | .float value => if value.isFinite then .float value else .null
  | .str value => .str value
  | .arr items => .arr (plainItems items)
  | .obj members => .obj (plainMembers members)
  | .unreadable => .null

def plainItems : List Json → List Json
  | [] => []
  | item :: rest => plain item :: plainItems rest

def plainMembers : List (String × Json) → List (String × Json)
  | [] => []
  | (key, value) :: rest => (key, plain value) :: plainMembers rest

end

mutual

/-- The writer does not tell a value from what is left of it. -/
theorem compact_plain (json : Json) : json.plain.compact = json.compact := by
  cases json with
  | float value =>
      rw [plain]
      split
      · rfl
      · next lost => rw [compact, compact, if_neg lost]
  | arr items => rw [plain, compact, compact, compactItems_plain items]
  | obj members => rw [plain, compact, compact, compactMembers_plain members]
  | null | bool | int | str | unreadable => rfl

theorem compactItems_plain (items : List Json) : compactItems (plainItems items) = compactItems items := by
  cases items with
  | nil => rfl
  | cons item rest => rw [plainItems, compactItems, compactItems, compact_plain item, compactItems_plain rest]

theorem compactMembers_plain (members : List (String × Json)) :
    compactMembers (plainMembers members) = compactMembers members := by
  cases members with
  | nil => rfl
  | cons member rest =>
      rw [plainMembers, compactMembers, compactMembers, compact_plain member.2, compactMembers_plain rest]

end

theorem plain_ofOption {α : Type} {write : α → Json} {value : Option α}
    (shown : ∀ held, value = some held → (write held).plain = write held) :
    (ofOption write value).plain = ofOption write value := by
  cases value with
  | none => rfl
  | some held => exact shown held rfl

theorem plainItems_str (texts : List String) : plainItems (texts.map .str) = texts.map .str := by
  induction texts with
  | nil => rfl
  | cons text rest ih => rw [List.map_cons, plainItems, ih, plain]

theorem plainMembers_of_mem {members : List (String × Json)}
    (shown : ∀ member ∈ members, member.2.plain = member.2) : plainMembers members = members := by
  induction members with
  | nil => rfl
  | cons member rest ih =>
      obtain ⟨first, later⟩ := List.forall_mem_cons.mp shown
      rw [plainMembers, first, ih later]

end Json

theorem plain_countJson (count : Option Int32) : (countJson count).plain = countJson count :=
  Json.plain_ofOption fun _ _ => rfl

namespace BrokerSpec

structure Finite (spec : BrokerSpec) : Prop where
  lower : spec.lowerCpuThreshold.isFinite
  higher : spec.higherCpuThreshold.isFinite

theorem plain_toJson {spec : BrokerSpec} (finite : spec.Finite) : spec.toJson.plain = spec.toJson := by
  have ceiling := plain_countJson spec.maxReplicas
  rw [countJson] at ceiling
  simp only [toJson, Json.plain, Json.plainMembers, ceiling, finite.lower, finite.higher, if_true]

end BrokerSpec

namespace BookieSpec

structure Finite (spec : BookieSpec) : Prop where
  high : spec.diskUsageToleranceHwm.isFinite
  low : spec.diskUsageToleranceLwm.isFinite

theorem plain_toJson {spec : BookieSpec} (finite : spec.Finite) : spec.toJson.plain = spec.toJson := by
  simp only [toJson, Json.plain, Json.plainMembers, finite.high, finite.low, if_true]

end BookieSpec

section Settings

variable {settings : Type} {finite : settings → Prop} {write : settings → Json}

/-- What holds of the settings of every autoscaler of a component, its own and those of its named sets. -/
structure ComponentSpec.Settings (finite : settings → Prop) (spec : ComponentSpec settings) : Prop where
  own : ∀ held, spec.autoscaler = some held → finite held
  named : ∀ entry ∈ spec.sets, ∀ held, entry.2.autoscaler = some held → finite held

theorem SetSpec.plain_toJson {spec : SetSpec settings}
    (shown : ∀ held, spec.autoscaler = some held → (write held).plain = write held) :
    (spec.toJson write).plain = spec.toJson write := by
  rw [toJson, Json.plain]
  simp only [Json.plainMembers, plain_countJson, Json.plain_ofOption shown]

theorem ComponentSpec.plain_toJson (shown : ∀ held, finite held → (write held).plain = write held)
    {spec : ComponentSpec settings} (all : spec.Settings finite) :
    (spec.toJson write).plain = spec.toJson write := by
  have own := Json.plain_ofOption fun held given => shown held (all.own held given)
  have sets : Json.plainMembers (spec.sets.map fun entry => (entry.1, entry.2.toJson write)) =
      spec.sets.map fun entry => (entry.1, entry.2.toJson write) := by
    refine Json.plainMembers_of_mem fun member mem => ?_
    obtain ⟨entry, listed, rfl⟩ := List.mem_map.mp mem
    exact SetSpec.plain_toJson fun held given => shown held (all.named entry listed held given)
  cases named : spec.sets.isEmpty with
  | true =>
      simp only [toJson, List.isEmpty_map, named, if_true, List.append_nil, Json.plain, Json.plainMembers,
        plain_countJson, own]
  | false => simp only [toJson_of_named named, Json.plain, Json.plainMembers, plain_countJson, own, sets]

end Settings

namespace ClusterSpec

/-- The thresholds of every autoscaler of a cluster are finite. -/
structure Finite (spec : ClusterSpec) : Prop where
  broker : ∀ broker, spec.broker = some broker → broker.Settings BrokerSpec.Finite
  bookkeeper : ∀ bookkeeper, spec.bookkeeper = some bookkeeper → bookkeeper.Settings BookieSpec.Finite

theorem plain_toJson {spec : ClusterSpec} (finite : spec.Finite) : spec.toJson.plain = spec.toJson := by
  have broker := Json.plain_ofOption fun broker given =>
    ComponentSpec.plain_toJson (fun _ => BrokerSpec.plain_toJson) (finite.broker broker given)
  have bookkeeper := Json.plain_ofOption fun bookkeeper given =>
    ComponentSpec.plain_toJson (fun _ => BookieSpec.plain_toJson) (finite.bookkeeper bookkeeper given)
  simp only [toJson, Json.plain, Json.plainMembers, broker, bookkeeper]

end ClusterSpec

namespace ClusterStatus

theorem plain_toJson (status : ClusterStatus) : status.toJson.plain = status.toJson := by
  have since : (Json.ofOption .str status.lastTransitionTime).plain =
      Json.ofOption .str status.lastTransitionTime := Json.plain_ofOption fun _ _ => rfl
  simp only [toJson, Json.plain, Json.plainMembers, Json.plainItems_str, since]

theorem ofJson?_toJson (status : ClusterStatus) : ofJson? status.toJson = some status := by
  have since : Json.option? Json.str? (Json.ofOption .str status.lastTransitionTime) =
      some status.lastTransitionTime :=
    Json.option?_ofOption (fun _ absent => by cases absent) fun _ _ => rfl
  have record : Record.ofJson? ["autoscaledSets", "lastTransitionTime"] status.toJson =
      some status.toJson.membersOf := Record.ofJson?_obj (by simp) (by simp)
  unfold ofJson?
  rw [record, Option.bind_eq_bind, Option.bind_some]
  simp [Record.optional, List.lookup_cons, toJson, Json.membersOf, Json.list?_str, since]

end ClusterStatus

/-- Whatever a spec with finite thresholds was read from, its written form reads as that spec, is written the
same again, and gives every cluster the same autoscalers and counts. What a status was read from is restored
likewise. -/
theorem resources_round_trip :
    (∀ (json : Json) (spec : ClusterSpec), ClusterSpec.ofJson? json = some spec → spec.Finite →
      ∃ again, ClusterSpec.ofJson? spec.toJson.plain = some again ∧ again = spec ∧
        again.toJson.plain = spec.toJson.plain ∧
        ∀ before after : Cluster, before.spec = spec → after = { before with spec := again } →
          after.autoscalerSpecs = before.autoscalerSpecs ∧
          ∀ component set, after.replicasFor component set = before.replicasFor component set) ∧
    ∀ (json : Json) (status : ClusterStatus), ClusterStatus.ofJson? json = some status →
      ∃ again, ClusterStatus.ofJson? status.toJson.plain = some again ∧ again = status ∧
        again.toJson.plain = status.toJson.plain := by
  constructor
  · intro json spec reads finite
    have again : ClusterSpec.ofJson? spec.toJson.plain = some spec := by
      rw [ClusterSpec.plain_toJson finite]
      exact ClusterSpec.ofJson?_toJson (ClusterSpec.ordered_of_ofJson? reads)
    refine ⟨spec, again, rfl, rfl, ?_⟩
    rintro before _ rfl rfl
    exact ⟨rfl, fun _ _ => rfl⟩
  · intro json status _
    have again : ClusterStatus.ofJson? status.toJson.plain = some status := by
      rw [ClusterStatus.plain_toJson, ClusterStatus.ofJson?_toJson]
    exact ⟨status, again, rfl, rfl⟩

/-- A spec given as records and arrays, with a member it does not know, a set given twice and out of order, and
a whole number for a threshold. -/
def mixedResource : Json := .obj [
  ("note", .str "kept by hand"),
  ("broker", .obj [
    ("sets", .obj [("pool-b", .arr [.int 4]), ("pool-a", .obj [("autoscaler", .arr [.bool true])]),
      ("pool-b", .obj [("replicas", .int 2)])]),
    ("autoscaler", .obj [("higherCpuThreshold", .int 1)])]),
  ("bookkeeper", .arr [.int 3, .obj [("cleanUpPvcs", .bool false)]])]

def mixedSpec : ClusterSpec where
  broker := some {
    autoscaler := some { higherCpuThreshold := 1 }
    sets := [("pool-a", { autoscaler := some { enabled := true } }), ("pool-b", { replicas := some 2 })] }
  bookkeeper := some { replicas := some 3, autoscaler := some { cleanUpPvcs := false } }

def mixedStatus : ClusterStatus := { autoscaledSets := ["broker/pool-a"] }

theorem resources_round_trip_mixed :
    (ClusterSpec.ofJson? mixedResource = some mixedSpec ∧ mixedSpec.Finite ∧
      ∃ again, ClusterSpec.ofJson? mixedSpec.toJson.plain = some again ∧ again = mixedSpec ∧
        again.toJson.plain = mixedSpec.toJson.plain ∧
        ∀ before after : Cluster, before.spec = mixedSpec → after = { before with spec := again } →
          after.autoscalerSpecs = before.autoscalerSpecs ∧
          ∀ component set, after.replicasFor component set = before.replicasFor component set) ∧
    ClusterStatus.ofJson? (.arr [.arr [.str "broker/pool-a"]]) = some mixedStatus ∧
    ∃ again, ClusterStatus.ofJson? mixedStatus.toJson.plain = some again ∧ again = mixedStatus ∧
      again.toJson.plain = mixedStatus.toJson.plain := by
  have reads : ClusterSpec.ofJson? mixedResource = some mixedSpec := by rfl
  have shown : ClusterStatus.ofJson? (.arr [.arr [.str "broker/pool-a"]]) = some mixedStatus := by rfl
  have finite : mixedSpec.Finite := by
    constructor
    · rintro _ ⟨⟩
      constructor
      · rintro _ ⟨⟩
        exact ⟨by decide, by decide⟩
      · intro entry listed held given
        rcases List.mem_pair.mp listed with rfl | rfl
        · cases given
          exact ⟨by decide, by decide⟩
        · cases given
    · rintro _ ⟨⟩
      constructor
      · rintro _ ⟨⟩
        exact ⟨by decide, by decide⟩
      · rintro _ ⟨⟩
  exact ⟨⟨reads, finite, resources_round_trip.1 mixedResource mixedSpec reads finite⟩, shown,
    resources_round_trip.2 _ mixedStatus shown⟩

end SetScaler
