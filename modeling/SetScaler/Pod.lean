import SetScaler.Quantity

/-!
Pods, as far as the scaler looks at them.
-/

namespace SetScaler

structure Container where
  name : String
  cpuRequest : Option String := none
deriving Repr, Inhabited

/-- The spec of a pod: its containers, and for each of its volumes the claim behind it, if any. -/
structure PodSpec where
  containers : List Container := []
  claims : List (Option String) := []
deriving Repr, Inhabited

structure ContainerStatus where
  name : String
  ready : Bool
deriving Repr, Inhabited

/-- The status of a pod. `ageMs` is how long ago it started, when that is known. -/
structure PodStatus where
  containers : Option (List ContainerStatus) := none
  ageMs : Option Int := none
deriving Repr, Inhabited

structure Pod where
  name : Option String := none
  spec : Option PodSpec := none
  status : Option PodStatus := none
deriving Repr, Inhabited

namespace Pod

/-- The CPU that a pod's containers request together, in cores; `none` when none of them requests
any. -/
def cpuRequest (pod : Pod) : Option Float :=
  pod.spec.bind fun spec =>
    cpuTotal (spec.containers.filterMap fun container => container.cpuRequest)

def claims (pod : Pod) : List String :=
  match pod.spec with
  | none => []
  | some spec => spec.claims.filterMap id

/-- Whether the container of a given name is ready, or the first one when none has that name. -/
def primaryReady (pod : Pod) (container : String) : Bool :=
  match pod.status.bind fun status => status.containers with
  | none => false
  | some containers =>
    match (containers.find? fun status => status.name == container).or containers.head? with
    | none => false
    | some status => status.ready

def ageMs (pod : Pod) : Option Int := pod.status.bind fun status => status.ageMs

end Pod
end SetScaler
