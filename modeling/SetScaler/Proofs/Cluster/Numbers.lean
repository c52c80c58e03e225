import SetScaler.Proofs.Cluster.Scaling
import SetScaler.Proofs.Json.Numbers

/-!
# Thresholds of a cluster that has been read

A cluster that has been read from a text is well read: its sets are in order, and none of its thresholds is
NaN (`Cluster.wellRead_of_read?`).
-/

namespace SetScaler

theorem Json.Numeric.member? {json value : Json} {key : String} (numeric : json.Numeric)
    (held : json.member? key = some value) : value.Numeric := by
  cases numeric with
  | obj each =>
      obtain ⟨member, found, rfl⟩ := Option.map_eq_some_iff.mp held
      exact each member (List.mem_reverse.mp (List.mem_of_find?_eq_some found))
  | null | bool | int | float | str | arr | unreadable => cases held

theorem Json.Numeric.float? {json : Json} {value : Float} (numeric : json.Numeric)
    (read : json.float? = some value) : value.isNaN = false := by
  cases numeric with
  | int whole =>
      cases read
      exact Double.isNaN_ofInt whole
  | float number =>
      cases read
      exact number
  | null | bool | str | arr | obj | unreadable => cases read

namespace Record

variable {record : Record} {name : String}

theorem numeric {names : List String} {json : Json} (numeric : json.Numeric)
    (reads : ofJson? names json = some record) : ∀ member ∈ record, member.2.Numeric := by
  cases numeric with
  | obj each =>
      rw [ofJson?] at reads
      split at reads
      · cases reads
        exact fun member mem => each member (List.mem_filter.mp mem).1
      · cases reads
  | arr each =>
      rw [ofJson?] at reads
      split at reads
      · cases reads
        exact fun member mem => each member.2 (List.of_mem_zip mem).2
      · cases reads
  | null | bool | int | float | str | unreadable => cases reads

theorem optional_numeric {α : Type} {default value : α} {read : Json → Option α}
    (numeric : ∀ member ∈ record, member.2.Numeric) (reads : record.optional name default read = some value) :
    value = default ∨ ∃ json : Json, json.Numeric ∧ read json = some value := by
  unfold optional at reads
  cases found : record.lookup name with
  | none =>
      rw [found] at reads
      cases reads
      exact .inl rfl
  | some json =>
      rw [found] at reads
      obtain ⟨before, after, rfl, -⟩ := List.lookup_eq_some_iff.mp found
      exact .inr ⟨json, numeric (name, json) (by simp), reads⟩

theorem float_number {default value : Float} (numeric : ∀ member ∈ record, member.2.Numeric)
    (number : default.isNaN = false) (reads : record.optional name default Json.float? = some value) :
    value.isNaN = false := by
  rcases optional_numeric numeric reads with rfl | ⟨json, numeric, read⟩
  · exact number
  · exact numeric.float? read

end Record

theorem BrokerSpec.numbers {json : Json} {spec : BrokerSpec} (numeric : json.Numeric)
    (reads : ofJson? json = some spec) : (AutoscalerSpec.broker spec).hasNaN = false := by
  unfold ofJson? at reads
  simp only [Option.bind_eq_bind, Option.bind_eq_some_iff] at reads
  obtain ⟨record, held, _, -, _, -, _, -, _, -, _, -, lower, low, higher, high, _, -, _, -, given⟩ := reads
  cases given
  have members := Record.numeric numeric held
  exact Bool.or_eq_false_iff.mpr ⟨Record.float_number members (by decide +kernel) low,
    Record.float_number members (by decide +kernel) high⟩

theorem BookieSpec.numbers {json : Json} {spec : BookieSpec} (numeric : json.Numeric)
    (reads : ofJson? json = some spec) : (AutoscalerSpec.bookkeeper spec).hasNaN = false := by
  unfold ofJson? at reads
  simp only [Option.bind_eq_bind, Option.bind_eq_some_iff] at reads
  obtain ⟨record, held, _, -, _, -, _, -, hwm, high, lwm, low, _, -, _, -, _, -, _, -, _, -, given⟩ := reads
  cases given
  have members := Record.numeric numeric held
  exact Bool.or_eq_false_iff.mpr ⟨Record.float_number members (by decide +kernel) high,
    Record.float_number members (by decide +kernel) low⟩

section Named

variable {α : Type} {entry : String × α}

theorem mem_foldl_insertNamed {entries sorted : List (String × α)}
    (mem : entry ∈ entries.foldl (fun sorted (name, value) => insertNamed name value sorted) sorted) :
    entry ∈ entries ∨ entry ∈ sorted := by
  induction entries generalizing sorted with
  | nil => exact .inr mem
  | cons first rest ih =>
      rcases ih mem with later | mem
      · exact .inl (List.mem_cons_of_mem _ later)
      · rcases mem_insertNamed mem with rfl | mem
        · exact .inl List.mem_cons_self
        · exact .inr mem

theorem read_of_mem_mapM {read : Json → Option α} {members : List (String × Json)}
    {entries : List (String × α)}
    (reads : (members.mapM fun (name, value) => (read value).map ((name, ·))) = some entries)
    (mem : entry ∈ entries) : ∃ member ∈ members, read member.2 = some entry.2 := by
  induction members generalizing entries with
  | nil =>
      cases reads
      cases mem
  | cons member rest ih =>
      simp only [List.mapM_cons, Option.bind_eq_bind, Option.bind_eq_some_iff, Option.map_eq_some_iff] at reads
      obtain ⟨first, ⟨value, here, rfl⟩, others, later, same⟩ := reads
      cases same
      rcases List.mem_cons.mp mem with rfl | mem
      · exact ⟨member, List.mem_cons_self, here⟩
      · obtain ⟨found, mem, held⟩ := ih later mem
        exact ⟨found, List.mem_cons_of_mem _ mem, held⟩

theorem namedValues?_numeric {read : Json → Option α} {json : Json} {entries : List (String × α)}
    (numeric : json.Numeric) (reads : namedValues? read json = some entries) (mem : entry ∈ entries) :
    ∃ value : Json, value.Numeric ∧ read value = some entry.2 := by
  unfold namedValues? at reads
  simp only [Option.bind_eq_bind, Option.bind_eq_some_iff] at reads
  obtain ⟨members, held, values, given, same⟩ := reads
  cases same
  have listed := (mem_foldl_insertNamed mem).resolve_right (List.not_mem_nil)
  obtain ⟨member, mem, read⟩ := read_of_mem_mapM given listed
  cases numeric with
  | obj each =>
      cases held
      exact ⟨member.2, each member mem, read⟩
  | null | bool | int | float | str | arr | unreadable => cases held

end Named

section Settings

variable {settings : Type} {read : Json → Option settings} {right : settings → Prop}

theorem SetSpec.numbers (each : ∀ json its, json.Numeric → read json = some its → right its)
    {json : Json} {spec : SetSpec settings} {its : settings} (numeric : json.Numeric)
    (reads : ofJson? read json = some spec) (given : spec.autoscaler = some its) : right its := by
  unfold ofJson? at reads
  simp only [Option.bind_eq_bind, Option.bind_eq_some_iff] at reads
  obtain ⟨record, held, _, -, autoscaler, own, same⟩ := reads
  cases same
  cases given
  rcases Record.optional_numeric (Record.numeric numeric held) own with absent | ⟨value, numeric, own⟩
  · cases absent
  · exact each value its numeric (Json.option?_some own)

theorem ComponentSpec.numbers (each : ∀ json its, json.Numeric → read json = some its → right its)
    {json : Json} {spec : ComponentSpec settings} {name : String} {its : settings} (numeric : json.Numeric)
    (reads : ofJson? read json = some spec) (scales : spec.Scales name its) : right its := by
  unfold ofJson? at reads
  simp only [Option.bind_eq_bind, Option.bind_eq_some_iff] at reads
  obtain ⟨record, held, _, -, autoscaler, shared, sets, named, same⟩ := reads
  cases same
  have members := Record.numeric numeric held
  have inherited (given : autoscaler = some its) : right its := by
    subst given
    rcases Record.optional_numeric members shared with absent | ⟨value, numeric, shared⟩
    · cases absent
    · exact each value its numeric (Json.option?_some shared)
  cases scales with
  | implicit _ given => exact inherited given
  | inherited _ _ given => exact inherited given
  | own listed given =>
      rcases Record.optional_numeric members named with absent | ⟨value, numeric, named⟩
      · cases absent
        cases listed
      · obtain ⟨value, numeric, own⟩ := namedValues?_numeric numeric named listed
        exact SetSpec.numbers each numeric own given

end Settings

theorem ClusterSpec.numbers {json : Json} {spec : ClusterSpec} {component : Component} {name : String}
    {its : AutoscalerSpec} (numeric : json.Numeric) (reads : ofJson? json = some spec)
    (scales : spec.Scales component name its) : its.hasNaN = false := by
  unfold ofJson? at reads
  simp only [Option.bind_eq_bind, Option.bind_eq_some_iff] at reads
  obtain ⟨record, held, broker, brokers, bookkeeper, bookies, same⟩ := reads
  cases same
  have members := Record.numeric numeric held
  cases scales with
  | broker present scales =>
      cases present
      rcases Record.optional_numeric members brokers with absent | ⟨value, numeric, brokers⟩
      · cases absent
      · exact ComponentSpec.numbers (fun _ _ numeric reads => BrokerSpec.numbers numeric reads) numeric
          (Json.option?_some brokers) scales
  | bookkeeper present scales =>
      cases present
      rcases Record.optional_numeric members bookies with absent | ⟨value, numeric, bookies⟩
      · cases absent
      · exact ComponentSpec.numbers (fun _ _ numeric reads => BookieSpec.numbers numeric reads) numeric
          (Json.option?_some bookies) scales

namespace Cluster

variable {cluster : Cluster} {json : Json}

theorem wellRead_of_ofJson? (numeric : json.Numeric) (reads : ofJson? json = some cluster) :
    cluster.WellRead := by
  refine ⟨ordered_of_ofJson? reads, fun key its scales => ?_⟩
  unfold ofJson? at reads
  simp only [Option.bind_eq_bind, Option.bind_eq_some_iff] at reads
  obtain ⟨_, -, _, -, spec, ⟨value, held, reads⟩, _, -, same⟩ := reads
  cases same
  exact ClusterSpec.numbers (numeric.member? held) reads scales.scales

theorem wellRead_of_read? {text : String} (read : Json.read? text = some json)
    (reads : ofJson? json = some cluster) : cluster.WellRead :=
  wellRead_of_ofJson? (Json.numeric_of_read? read) reads

end Cluster
end SetScaler
