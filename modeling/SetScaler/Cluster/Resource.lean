import SetScaler.Cluster.Metadata
import SetScaler.Cluster.Spec

/-!
A cluster's resource as the API server keeps it: metadata, the desired state, and the status that
the scaler reports.
-/

namespace SetScaler

/-- What the scaler reports about a cluster. -/
structure ClusterStatus where
  /-- The sets with a live autoscaler, as `component/set`. -/
  autoscaledSets : List String := []
  /-- When those last changed. -/
  lastTransitionTime : Option String := none
deriving Repr, Inhabited

namespace ClusterStatus

def ofJson? (json : Json) : Option ClusterStatus := do
  let record ← Record.ofJson? ["autoscaledSets", "lastTransitionTime"] json
  return {
    autoscaledSets := ← record.optional "autoscaledSets" [] (Json.list? Json.str?)
    lastTransitionTime := ← record.optional "lastTransitionTime" none (Json.option? Json.str?) }

def toJson (status : ClusterStatus) : Json :=
  .obj [
    ("autoscaledSets", .arr (status.autoscaledSets.map .str)),
    ("lastTransitionTime", Json.ofOption .str status.lastTransitionTime)]

end ClusterStatus

/-- A cluster's resource. -/
structure Cluster extends Metadata where
  spec : ClusterSpec := {}
  status : Option ClusterStatus := none
deriving Repr, Inhabited

namespace Cluster

/-- The name of a cluster, else the stem its name is to be made of, else nothing. -/
def displayName (cluster : Cluster) : String :=
  (cluster.name.or cluster.generateName).getD ""

def space (cluster : Cluster) : String := cluster.ns.getD "default"

/-- Reads a resource: an object with an object of metadata and a spec. -/
def ofJson? (json : Json) : Option Cluster := do
  let _ ← json.members?
  return {
    toMetadata := ← (json.member? "metadata").bind Metadata.ofJson?
    spec := ← (json.member? "spec").bind ClusterSpec.ofJson?
    status := ← json.maybe? "status" ClusterStatus.ofJson? }

/-- Every set of a cluster that has an autoscaler, by its key, with the settings. -/
def autoscalerSpecs (cluster : Cluster) : List (SetKey × AutoscalerSpec) :=
  cluster.spec.autoscalers.map fun (component, set, settings) =>
    (⟨cluster.space, cluster.displayName, component, set⟩, settings)

def replicasFor (cluster : Cluster) (component : Component) (set : String) : Option Int32 :=
  cluster.spec.replicasFor component set

end Cluster
end SetScaler
