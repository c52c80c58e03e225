import SetScaler.Api.Http
import SetScaler.Api.Path
import SetScaler.Api.Resource
import SetScaler.Cluster.Resource
import SetScaler.Run.Program

/-!
The requests of a run as exchanges with the API server: how each of them is sent and how its answer
is read. A request that cannot be put into words is never sent.
-/

namespace SetScaler

open Api

namespace Request

/-- The parameter that selects resources by their labels. -/
def selecting (selector : String) : List (String × String) := [("labelSelector", selector)]

/-- A request as it is sent, before it is known whether it can be. -/
def http : Request → HttpRequest
  | readyReplicas ns statefulSet => { method := .get, path := statefulSetPath ns statefulSet }
  | pods ns selector => { method := .get, path := podsPath ns, query := selecting selector }
  | cpuUsage ns selector =>
    { method := .get, path := podMetricsPath ns, query := selecting selector }
  | volumes ns selector =>
    { method := .get, path := volumeClaimsPath ns, query := selecting selector }
  | deleteVolume ns name =>
    { method := .delete, path := volumeClaimPath ns name
      body := some ("application/json", .obj []) }
  | currentReplicas key => { method := .get, path := clusterPath key.ns key.cluster }
  | patchReplicas key count =>
    { method := .patch, path := clusterPath key.ns key.cluster
      body := some ("application/merge-patch+json", key.replicasPatch count) }

/-- The name of the one resource that a request is about. -/
def subject? : Request → Option String
  | readyReplicas _ name | deleteVolume _ name => some name
  | currentReplicas key | patchReplicas key _ => some key.cluster
  | pods .. | cpuUsage .. | volumes .. => none

/-- Whether a request can be sent: what it is about has a name, and its path needs no escapes. -/
def isSendable (request : Request) : Bool :=
  request.subject? != some "" && request.http.path.toList.all isPathChar

def read (now : Timestamp) (answer : HttpAnswer) : (request : Request) → request.Result
  | readyReplicas .. => answer.payloadIfFound readyReplicas?
  | pods .. => answer.payload (items? (pod? now))
  | cpuUsage .. => (answer.payload (items? podUsage?)).map usageByPod
  | volumes .. => answer.payload (items? volumeClaimName?)
  | deleteVolume .. => answer.payload deleted?
  | currentReplicas key =>
    (answer.payloadIfFound Cluster.ofJson?).map fun cluster =>
      (cluster.bind fun cluster => cluster.replicasFor key.component key.set).map Int32.toInt
  | patchReplicas .. => (answer.payload Cluster.ofJson?).map fun _ => ()

/-- Asks a server: what is sent to it, and what comes of the request. -/
def exchange (server : HttpRequest → HttpAnswer) (now : Timestamp) (request : Request) :
    List HttpRequest × request.Result :=
  if request.isSendable then
    ([request.http], request.read now (server request.http))
  else ([], .error (.api none))

end Request
end SetScaler
