import SetScaler.Cluster.Resource
import SetScaler.Schedule.Machine

/-!
Reconciling a cluster: its autoscaler specs are observed, and the sets that are autoscaled now are
reported in its status when the report would change. The status lists sets in the order of their
keys.
-/

namespace SetScaler

/-- What a resource is known by. -/
structure ClusterRef where
  ns : String
  name : String
deriving DecidableEq, Repr, Inhabited

namespace Cluster

def ref (cluster : Cluster) : ClusterRef := ⟨cluster.space, cluster.displayName⟩

def isLeaving (cluster : Cluster) : Bool := cluster.deletionTimestamp.isSome

/-- Whether a status has to be written to report these sets. A status is a change of the resource
itself, so it is only written when it differs. -/
def needsReport (cluster : Cluster) (sets : List String) : Bool :=
  !(cluster.status.any fun status => status.autoscaledSets == sets)

end Cluster

/-- A status to be written: the sets of a cluster that are autoscaled. -/
structure Report where
  ref : ClusterRef
  sets : List String
deriving DecidableEq, Repr

/-- The merge patch that writes a report at a given time of day. -/
def Report.patch (report : Report) (now : String) : Json :=
  .obj [("status", .obj [("autoscaledSets", .arr (report.sets.map .str)),
    ("lastTransitionTime", .str now)])]

namespace Schedule.Machine

variable {σ ρ : Type}

/-- The live sets of a cluster as its status lists them. -/
def liveSets (machine : Machine σ ρ) (ref : ClusterRef) : List String :=
  (machine.registry.keys.filter fun key => key.inCluster ref.ns ref.name).map SetKey.shortName

/-- Brings the tasks of a cluster in line with its resource, and says what has to be reported. A
cluster that is being deleted loses its tasks. -/
def reconcile (machine : Machine σ ρ) (cluster : Cluster) : Machine σ ρ × Option Report :=
  let ref := cluster.ref
  if cluster.isLeaving then (machine.forget ref.ns ref.name, none)
  else
    let machine := machine.observe ref.ns ref.name cluster.autoscalerSpecs
    let sets := machine.liveSets ref
    (machine, if cluster.needsReport sets then some ⟨ref, sets⟩ else none)

end Schedule.Machine
end SetScaler
