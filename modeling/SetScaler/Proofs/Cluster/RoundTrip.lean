import SetScaler.Cluster.Spec
import SetScaler.Json.MergePatch

/-!
# Reading back what is written

A cluster's spec reads back as it was written, provided that its named sets are in ascending order
(`ClusterSpec.ofJson?_toJson`), as they are in every spec that has been read
(`ClusterSpec.ordered_of_ofJson?`).
-/

namespace SetScaler

namespace Json

@[simp]
theorem bool?_bool (value : Bool) : (bool value).bool? = some value := rfl

@[simp]
theorem float?_float (value : Float) : (float value).float? = some value := rfl

@[simp]
theorem int32?_toInt (count : Int32) : (int count.toInt).int32? = some count := by
  have low := count.le_toInt
  have high := count.toInt_lt
  simp only [int32?, within?]
  rw [if_pos ⟨by omega, by omega⟩]
  simp

@[simp]
theorem uint64?_toNat (count : UInt64) : (int count.toNat).uint64? = some count := by
  have high := count.toNat_lt
  simp only [uint64?, unsigned?, within?]
  rw [if_pos ⟨by omega, by simp only [UInt64.size]; omega⟩]
  simp

theorem option?_ofOption {α : Type} {read : Json → Option α} {write : α → Json}
    (present : ∀ value, write value ≠ .null) {value : Option α}
    (reads : ∀ held, value = some held → read (write held) = some held) :
    option? read (ofOption write value) = some value := by
  cases value with
  | none => rfl
  | some held =>
      have shown := present held
      rw [ofOption, option?.eq_def]
      split
      · contradiction
      · rw [reads held rfl]
        rfl

theorem option?_some {α : Type} {read : Json → Option α} {json : Json} {value : α}
    (reads : option? read json = some (some value)) : read json = some value := by
  cases json with
  | null => cases reads
  | _ =>
      obtain ⟨held, shown, same⟩ := Option.map_eq_some_iff.mp reads
      cases same
      exact shown

theorem option?_cases {α : Type} {read : Json → Option α} {json : Json} {value : Option α}
    (reads : option? read json = some value) : json = .null ∨ ∃ held, read json = some held := by
  cases json with
  | null => exact .inl rfl
  | _ =>
      obtain ⟨held, shown, -⟩ := Option.map_eq_some_iff.mp reads
      exact .inr ⟨held, shown⟩

end Json

theorem Record.ofJson?_obj {names : List String} {members : List (String × Json)}
    (known : ∀ member ∈ members, member.1 ∈ names) (distinct : (members.map Prod.fst).Nodup) :
    Record.ofJson? names (.obj members) = some members := by
  have all : members.filter (fun member => names.contains member.1) = members :=
    List.filter_eq_self.mpr fun member mem => by simpa using known member mem
  simp only [Record.ofJson?, all]
  exact if_pos distinct

theorem Record.optional_cases {α : Type} {record : Record} {name : String} {default : α}
    {read : Json → Option α} {value : α} (reads : record.optional name default read = some value) :
    value = default ∨ ∃ json, read json = some value := by
  unfold optional at reads
  split at reads
  · cases reads
    exact .inl rfl
  · exact .inr ⟨_, reads⟩

theorem option?_countJson (count : Option Int32) :
    Json.option? Json.int32? (countJson count) = some count :=
  Json.option?_ofOption (fun _ absent => by cases absent) fun held _ => Json.int32?_toInt held

theorem BrokerSpec.ofJson?_toJson (spec : BrokerSpec) : ofJson? spec.toJson = some spec := by
  have ceiling := option?_countJson spec.maxReplicas
  have record : Record.ofJson? names spec.toJson = some spec.toJson.membersOf :=
    Record.ofJson?_obj (by simp [names]) (by simp)
  unfold ofJson?
  rw [record, Option.bind_eq_bind, Option.bind_some]
  -- the defaults do not matter, since every member is written
  generalize ({} : BrokerSpec) = base
  rw [countJson] at ceiling
  simp [Record.optional, List.lookup_cons, toJson, Json.membersOf, ceiling]

theorem BookieSpec.ofJson?_toJson (spec : BookieSpec) : ofJson? spec.toJson = some spec := by
  have record : Record.ofJson? names spec.toJson = some spec.toJson.membersOf :=
    Record.ofJson?_obj (by simp [names]) (by simp)
  unfold ofJson?
  rw [record, Option.bind_eq_bind, Option.bind_some]
  generalize ({} : BookieSpec) = base
  simp [Record.optional, List.lookup_cons, toJson, Json.membersOf]

section Settings

variable {settings : Type} {read : Json → Option settings} {write : settings → Json}

theorem SetSpec.ofJson?_toJson (reads : ∀ value, read (write value) = some value)
    (present : ∀ value, write value ≠ .null) (spec : SetSpec settings) :
    ofJson? read (spec.toJson write) = some spec := by
  have count := option?_countJson spec.replicas
  have autoscaler := Json.option?_ofOption present fun held (_ : spec.autoscaler = some held) => reads held
  have record : Record.ofJson? ["replicas", "autoscaler"] (spec.toJson write) =
      some (spec.toJson write).membersOf := Record.ofJson?_obj (by simp) (by simp)
  unfold ofJson?
  rw [record, Option.bind_eq_bind, Option.bind_some]
  simp [Record.optional, List.lookup_cons, toJson, Json.membersOf, count, autoscaler]

end Settings

section Named

variable {α : Type}

theorem compare_gt_iff (name other : String) : Ord.compare name other = .gt ↔ other < name :=
  compareOfLessAndEq_eq_gt String.le_antisymm String.le_total String.not_le name other

theorem insertNamed_last {name : String} {value : α} {sorted : List (String × α)}
    (last : ∀ entry ∈ sorted, entry.1 < name) :
    insertNamed name value sorted = sorted ++ [(name, value)] := by
  induction sorted with
  | nil => rfl
  | cons entry rest ih =>
      have after := (compare_gt_iff name entry.1).mpr (last entry List.mem_cons_self)
      rw [insertNamed, after, ih fun other mem => last other (.tail _ mem)]
      rfl

theorem foldl_insertNamed {sorted entries : List (String × α)}
    (ascending : ((sorted ++ entries).map Prod.fst).Pairwise (· < ·)) :
    entries.foldl (fun sorted (name, value) => insertNamed name value sorted) sorted =
      sorted ++ entries := by
  induction entries generalizing sorted with
  | nil => simp
  | cons entry rest ih =>
      obtain ⟨name, value⟩ := entry
      have last : ∀ other ∈ sorted, other.1 < name := by
        rw [List.map_append, List.pairwise_append] at ascending
        exact fun other mem => ascending.2.2 other.1 (List.mem_map_of_mem mem) name (by simp)
      rw [List.foldl_cons]
      dsimp only
      rw [insertNamed_last last, ih (by simpa using ascending), List.append_assoc]
      rfl

theorem mem_insertNamed {name : String} {value : α} {entry : String × α} {sorted : List (String × α)}
    (mem : entry ∈ insertNamed name value sorted) : entry = (name, value) ∨ entry ∈ sorted := by
  induction sorted with
  | nil => exact .inl (List.mem_singleton.mp mem)
  | cons first rest ih =>
      rw [insertNamed] at mem
      split at mem
      · exact List.mem_cons.mp mem
      · exact (List.mem_cons.mp mem).imp_right (List.mem_cons_of_mem _)
      · rcases List.mem_cons.mp mem with rfl | mem
        · exact .inr List.mem_cons_self
        · exact (ih mem).imp_right (List.mem_cons_of_mem _)

theorem insertNamed_ascending (name : String) (value : α) {sorted : List (String × α)}
    (ascending : (sorted.map Prod.fst).Pairwise (· < ·)) :
    ((insertNamed name value sorted).map Prod.fst).Pairwise (· < ·) := by
  induction sorted with
  | nil => exact List.pairwise_singleton _ _
  | cons entry rest ih =>
      obtain ⟨first, later⟩ := List.pairwise_cons.mp ascending
      rw [insertNamed]
      cases order : Ord.compare name entry.1 with
      | lt =>
          have before : name < entry.1 := compareOfLessAndEq_eq_lt.mp order
          refine List.pairwise_cons.mpr ⟨fun other mem => ?_, ascending⟩
          rcases List.mem_cons.mp mem with rfl | mem
          · exact before
          · exact String.lt_trans before (first other mem)
      | eq =>
          have same : name = entry.1 :=
            (compareOfLessAndEq_eq_eq String.le_refl String.not_le).mp order
          exact List.pairwise_cons.mpr ⟨same ▸ first, later⟩
      | gt =>
          refine List.pairwise_cons.mpr ⟨fun other mem => ?_, ih later⟩
          obtain ⟨held, listed, rfl⟩ := List.mem_map.mp mem
          rcases mem_insertNamed listed with rfl | listed
          · exact (compare_gt_iff name entry.1).mp order
          · exact first held.1 (List.mem_map_of_mem listed)

theorem namedValues?_ascending {read : Json → Option α} {json : Json} {entries : List (String × α)}
    (reads : namedValues? read json = some entries) : (entries.map Prod.fst).Pairwise (· < ·) := by
  have fold (values sorted : List (String × α)) (ascending : (sorted.map Prod.fst).Pairwise (· < ·)) :
      ((values.foldl (fun sorted (name, value) => insertNamed name value sorted) sorted).map
        Prod.fst).Pairwise (· < ·) := by
    induction values generalizing sorted with
    | nil => exact ascending
    | cons value rest ih => exact ih _ (insertNamed_ascending value.1 value.2 ascending)
  unfold namedValues? at reads
  simp only [Option.bind_eq_bind, Option.bind_eq_some_iff] at reads
  obtain ⟨members, -, values, -, given⟩ := reads
  cases given
  exact fold values [] .nil

theorem namedValues?_obj {read : Json → Option α} {write : α → Json}
    (reads : ∀ value, read (write value) = some value) {entries : List (String × α)}
    (ascending : (entries.map Prod.fst).Pairwise (· < ·)) :
    namedValues? read (.obj (entries.map fun entry => (entry.1, write entry.2))) = some entries := by
  have each : (entries.map fun entry => (entry.1, write entry.2)).mapM
      (fun member => (read member.2).map ((member.1, ·))) = some entries := by
    clear ascending
    induction entries with
    | nil => rfl
    | cons entry rest ih => simp [reads, ih]
  rw [namedValues?, Json.members?, Option.bind_eq_bind, Option.bind_some, each, Option.bind_eq_bind,
    Option.bind_some]
  exact congrArg some (foldl_insertNamed (by simpa using ascending))

end Named

namespace ComponentSpec

variable {settings : Type} {read : Json → Option settings} {write : settings → Json}

/-- The named sets are in strictly ascending order, as a map keeps them. -/
def Ordered (spec : ComponentSpec settings) : Prop := (spec.sets.map Prod.fst).Pairwise (· < ·)

theorem ordered_of_ofJson? {json : Json} {spec : ComponentSpec settings}
    (reads : ofJson? read json = some spec) : spec.Ordered := by
  unfold ofJson? at reads
  simp only [Option.bind_eq_bind, Option.bind_eq_some_iff] at reads
  obtain ⟨record, -, replicas, -, autoscaler, -, sets, named, given⟩ := reads
  cases given
  rcases Record.optional_cases named with rfl | ⟨json, named⟩
  · exact .nil
  · exact namedValues?_ascending named

theorem toJson_of_named {spec : ComponentSpec settings} (named : spec.sets.isEmpty = false) :
    spec.toJson write = .obj [("replicas", countJson spec.replicas),
      ("autoscaler", Json.ofOption write spec.autoscaler),
      ("sets", .obj (spec.sets.map fun entry => (entry.1, entry.2.toJson write)))] := by
  rw [toJson, List.isEmpty_map, named]
  rfl

theorem ofJson?_toJson (reads : ∀ value, read (write value) = some value)
    (present : ∀ value, write value ≠ .null) {spec : ComponentSpec settings} (ordered : spec.Ordered) :
    ofJson? read (spec.toJson write) = some spec := by
  have count := option?_countJson spec.replicas
  have autoscaler := Json.option?_ofOption present fun held (_ : spec.autoscaler = some held) => reads held
  have named := namedValues?_obj (SetSpec.ofJson?_toJson reads present) ordered
  have record : Record.ofJson? ["replicas", "autoscaler", "sets"] (spec.toJson write) =
      some (spec.toJson write).membersOf := by
    cases none : spec.sets.isEmpty with
    | true => exact Record.ofJson?_obj (by simp [none]) (by simp [none])
    | false => exact Record.ofJson?_obj (by simp [none]) (by simp [none])
  unfold ofJson?
  rw [record, Option.bind_eq_bind, Option.bind_some]
  obtain ⟨replicas, own, sets⟩ := spec
  cases sets with
  | nil => simp [Record.optional, List.lookup_cons, toJson, Json.membersOf, count, autoscaler]
  | cons first rest =>
      simp only [List.map_cons] at named
      simp [Record.optional, List.lookup_cons, toJson, Json.membersOf, count, autoscaler, named]

end ComponentSpec

namespace ClusterSpec

/-- The named sets of every component are in ascending order. -/
structure Ordered (spec : ClusterSpec) : Prop where
  broker : ∀ broker, spec.broker = some broker → broker.Ordered
  bookkeeper : ∀ bookkeeper, spec.bookkeeper = some bookkeeper → bookkeeper.Ordered

theorem ordered_of_ofJson? {json : Json} {spec : ClusterSpec}
    (reads : ofJson? json = some spec) : spec.Ordered := by
  unfold ofJson? at reads
  simp only [Option.bind_eq_bind, Option.bind_eq_some_iff] at reads
  obtain ⟨record, -, broker, brokers, bookkeeper, bookies, given⟩ := reads
  cases given
  constructor
  · rintro spec rfl
    rcases Record.optional_cases brokers with absent | ⟨json, held⟩
    · cases absent
    · exact ComponentSpec.ordered_of_ofJson? (Json.option?_some held)
  · rintro spec rfl
    rcases Record.optional_cases bookies with absent | ⟨json, held⟩
    · cases absent
    · exact ComponentSpec.ordered_of_ofJson? (Json.option?_some held)

theorem ofJson?_toJson {spec : ClusterSpec} (ordered : spec.Ordered) : ofJson? spec.toJson = some spec := by
  have record : Record.ofJson? ["broker", "bookkeeper"] spec.toJson = some spec.toJson.membersOf :=
    Record.ofJson?_obj (by simp) (by simp)
  have broker : Json.option? (ComponentSpec.ofJson? BrokerSpec.ofJson?)
      (Json.ofOption (ComponentSpec.toJson BrokerSpec.toJson) spec.broker) = some spec.broker :=
    Json.option?_ofOption (fun _ absent => by cases absent) fun held given =>
      ComponentSpec.ofJson?_toJson BrokerSpec.ofJson?_toJson (fun _ absent => by cases absent)
        (ordered.broker held given)
  have bookkeeper : Json.option? (ComponentSpec.ofJson? BookieSpec.ofJson?)
      (Json.ofOption (ComponentSpec.toJson BookieSpec.toJson) spec.bookkeeper) = some spec.bookkeeper :=
    Json.option?_ofOption (fun _ absent => by cases absent) fun held given =>
      ComponentSpec.ofJson?_toJson BookieSpec.ofJson?_toJson (fun _ absent => by cases absent)
        (ordered.bookkeeper held given)
  unfold ofJson?
  rw [record, Option.bind_eq_bind, Option.bind_some]
  simp [Record.optional, List.lookup_cons, toJson, Json.membersOf, broker, bookkeeper]

end ClusterSpec
end SetScaler
