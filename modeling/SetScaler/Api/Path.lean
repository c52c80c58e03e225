import SetScaler.Cluster.Manifest

/-!
Where resources are kept on the API server.
-/

namespace SetScaler.Api

/-- Where resources of one kind are kept, in one namespace or in all of them. -/
def placePath (root : String) (ns : Option String) (plural : String) : String :=
  root ++ "/" ++
    (match ns with
      | some ns => "namespaces/" ++ ns ++ "/"
      | none => "") ++ plural

def podsPath (ns : String) : String := placePath "/api/v1" ns "pods"

def podPath (ns name : String) : String := podsPath ns ++ "/" ++ name

def execPath (ns pod : String) : String := podPath ns pod ++ "/exec"

def volumeClaimsPath (ns : String) : String := placePath "/api/v1" ns "persistentvolumeclaims"

def volumeClaimPath (ns name : String) : String := volumeClaimsPath ns ++ "/" ++ name

def statefulSetPath (ns name : String) : String :=
  placePath "/apis/apps/v1" ns "statefulsets" ++ "/" ++ name

def podMetricsPath (ns : String) : String := placePath "/apis/metrics.k8s.io/v1beta1" ns "pods"

def clustersPath (ns : Option String) : String :=
  placePath ("/apis/" ++ clusterKind.group ++ "/" ++ clusterKind.version) ns clusterKind.plural

def clusterPath (ns name : String) : String := clustersPath (some ns) ++ "/" ++ name

def clusterStatusPath (ns name : String) : String := clusterPath ns name ++ "/status"

end SetScaler.Api
