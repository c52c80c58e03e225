import SetScaler.Json.Basic

/-!
Component sets. A cluster has brokers and bookies, each in one implicit set or in several named
ones; a key names one such set, and with it the stateful set behind it, its pods and the place of
its replica count in the cluster's resource.
-/

namespace SetScaler

inductive Component where
  /-- Brokers, scaled by CPU. -/
  | broker
  /-- Bookies, scaled by disk. -/
  | bookkeeper
deriving DecidableEq, Repr, Inhabited

namespace Component

/-- The component's field in a cluster's spec. -/
def name : Component → String
  | broker => "broker"
  | bookkeeper => "bookkeeper"

def ofName? : String → Option Component
  | "broker" => some broker
  | "bookkeeper" => some bookkeeper
  | _ => none

def rank : Component → Nat
  | broker => 0
  | bookkeeper => 1

end Component

/-- The name of the implicit set of a component without named sets. -/
def defaultSet : String := "default"

/-- One pool of a cluster; `ns` is the namespace that the cluster lives in. -/
structure SetKey where
  ns : String
  cluster : String
  component : Component
  set : String
deriving DecidableEq, Repr, Inhabited

namespace SetKey

def isDefault (key : SetKey) : Bool := key.set == defaultSet

def display (key : SetKey) : String :=
  key.ns ++ "/" ++ key.cluster ++ "/" ++ key.component.name ++ "/" ++ key.set

/-- The set without its cluster, as a status reports it. -/
def shortName (key : SetKey) : String := key.component.name ++ "/" ++ key.set

/-- The stateful set behind a set: the implicit set has the shorter name. -/
def statefulSet (key : SetKey) : String :=
  if key.isDefault then key.cluster ++ "-" ++ key.component.name
  else key.cluster ++ "-" ++ key.component.name ++ "-" ++ key.set

/-- The label selector of a set's pods and volume claims. -/
def selector (key : SetKey) : String :=
  "app.kubernetes.io/instance=" ++ key.cluster ++
    ",app.kubernetes.io/component=" ++ key.component.name ++
    ",pulsar.oss.dev/resource-set=" ++ key.set

/-- Keys are ordered by namespace, cluster, component and set. -/
def compare (a b : SetKey) : Ordering :=
  (((Ord.compare a.ns b.ns).then (Ord.compare a.cluster b.cluster)).then
    (Ord.compare a.component.rank b.component.rank)).then (Ord.compare a.set b.set)

def inCluster (key : SetKey) (ns cluster : String) : Bool :=
  key.ns == ns && key.cluster == cluster

/-- The merge patch that records a replica count: the implicit set's count is the component's own,
a named set has one under its name. -/
def replicasPatch (key : SetKey) (count : Int) : Json :=
  let recorded : Json := .obj [("replicas", .int count)]
  let component : Json :=
    if key.isDefault then recorded else .obj [("sets", .obj [(key.set, recorded)])]
  .obj [("spec", .obj [(key.component.name, component)])]

end SetKey

def sortKeys (keys : List SetKey) : List SetKey :=
  keys.mergeSort fun a b => (a.compare b).isLE

end SetScaler
