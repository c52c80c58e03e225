import SetScaler.Spec.Autoscaler

/-!
The desired state of a cluster: for each component a replica count, an autoscaler, and named sets
that may have their own of both. Read from a record and written back as one.
-/

namespace SetScaler

structure SetSpec (settings : Type) where
  replicas : Option Int32 := none
  autoscaler : Option settings := none
deriving Repr, Inhabited

/-- One component of a cluster. The named sets are in ascending order of their names. -/
structure ComponentSpec (settings : Type) where
  replicas : Option Int32 := none
  autoscaler : Option settings := none
  sets : List (String × SetSpec settings) := []
deriving Repr, Inhabited

structure ClusterSpec where
  broker : Option (ComponentSpec BrokerSpec) := none
  bookkeeper : Option (ComponentSpec BookieSpec) := none
deriving Repr, Inhabited

def countJson (count : Option Int32) : Json :=
  Json.ofOption (fun count : Int32 => .int count.toInt) count

namespace SetSpec

variable {settings : Type}

def ofJson? (readSettings : Json → Option settings) (json : Json) : Option (SetSpec settings) := do
  let record ← Record.ofJson? ["replicas", "autoscaler"] json
  return {
    replicas := ← record.optional "replicas" none (Json.option? Json.int32?)
    autoscaler := ← record.optional "autoscaler" none (Json.option? readSettings) }

def toJson (writeSettings : settings → Json) (spec : SetSpec settings) : Json :=
  .obj [("replicas", countJson spec.replicas),
    ("autoscaler", Json.ofOption writeSettings spec.autoscaler)]

end SetSpec

/-- Puts a named value into a list in ascending order of names; it takes the place of one with the
same name. -/
def insertNamed {α : Type} (name : String) (value : α) : List (String × α) → List (String × α)
  | [] => [(name, value)]
  | entry :: rest =>
    match Ord.compare name entry.1 with
    | .lt => (name, value) :: entry :: rest
    | .eq => (name, value) :: rest
    | .gt => entry :: insertNamed name value rest

/-- Reads an object as a collection of named values, put in ascending order of the names. -/
def namedValues? {α : Type} (read : Json → Option α) (json : Json) :
    Option (List (String × α)) := do
  let members ← json.members?
  let entries ← members.mapM fun (name, value) => (read value).map ((name, ·))
  return entries.foldl (fun sorted (name, value) => insertNamed name value sorted) []

namespace ComponentSpec

variable {settings : Type}

def ofJson? (readSettings : Json → Option settings) (json : Json) :
    Option (ComponentSpec settings) := do
  let record ← Record.ofJson? ["replicas", "autoscaler", "sets"] json
  return {
    replicas := ← record.optional "replicas" none (Json.option? Json.int32?)
    autoscaler := ← record.optional "autoscaler" none (Json.option? readSettings)
    sets := ← record.optional "sets" [] (namedValues? (SetSpec.ofJson? readSettings)) }

/-- The record of a component; a component without named sets has no member for them. -/
def toJson (writeSettings : settings → Json) (spec : ComponentSpec settings) : Json :=
  let sets := spec.sets.map fun (name, set) => (name, set.toJson writeSettings)
  .obj ([("replicas", countJson spec.replicas),
    ("autoscaler", Json.ofOption writeSettings spec.autoscaler)] ++
      if sets.isEmpty then [] else [("sets", .obj sets)])

/-- The sets of a component that have an autoscaler, with its settings. Without named sets that is
the implicit set; a named set without an autoscaler of its own inherits the component's. -/
def autoscalers (spec : ComponentSpec settings) : List (String × settings) :=
  if spec.sets.isEmpty then
    (spec.autoscaler.map fun settings => (defaultSet, settings)).toList
  else
    spec.sets.filterMap fun (name, set) =>
      (set.autoscaler.or spec.autoscaler).map fun settings => (name, settings)

/-- The replica count recorded for a set: a named set without a count of its own has the
component's. -/
def replicasFor (spec : ComponentSpec settings) (set : String) : Option Int32 :=
  if set = defaultSet then spec.replicas
  else ((spec.sets.lookup set).bind fun own => own.replicas).or spec.replicas

end ComponentSpec

namespace ClusterSpec

def ofJson? (json : Json) : Option ClusterSpec := do
  let record ← Record.ofJson? ["broker", "bookkeeper"] json
  return {
    broker := ← record.optional "broker" none
      (Json.option? (ComponentSpec.ofJson? BrokerSpec.ofJson?))
    bookkeeper := ← record.optional "bookkeeper" none
      (Json.option? (ComponentSpec.ofJson? BookieSpec.ofJson?)) }

def toJson (spec : ClusterSpec) : Json :=
  .obj [
    ("broker", Json.ofOption (ComponentSpec.toJson BrokerSpec.toJson) spec.broker),
    ("bookkeeper", Json.ofOption (ComponentSpec.toJson BookieSpec.toJson) spec.bookkeeper)]

/-- The replica count recorded for a set of a component; `none` when the component is absent. -/
def replicasFor (spec : ClusterSpec) (component : Component) (set : String) : Option Int32 :=
  match component with
  | .broker => spec.broker.bind fun broker => broker.replicasFor set
  | .bookkeeper => spec.bookkeeper.bind fun bookkeeper => bookkeeper.replicasFor set

/-- Every set with an autoscaler, the brokers' first. -/
def autoscalers (spec : ClusterSpec) : List (Component × String × AutoscalerSpec) :=
  let brokers := (spec.broker.map fun broker => broker.autoscalers).getD []
  let bookies := (spec.bookkeeper.map fun bookkeeper => bookkeeper.autoscalers).getD []
  brokers.map (fun (set, settings) => (.broker, set, .broker settings)) ++
    bookies.map (fun (set, settings) => (.bookkeeper, set, .bookkeeper settings))

end ClusterSpec
end SetScaler
