import SetScaler.Cluster.Metadata
import SetScaler.Cluster.Spec
import SetScaler.Pod

/-!
Reading the resources that the API server keeps beside clusters: stateful sets, pods, volume claims,
and the use of CPU that it measures. Members that are absent or `null` take their defaults; a member
of another type makes the whole resource unreadable.
-/

namespace SetScaler.Api

/-- A member that says what a resource is has to say the right thing, if it is there. -/
def tells (name expected : String) (json : Json) : Bool :=
  match json.member? name with
  | none => true
  | some value => value.str? == some expected

/-- Whether a value may be a resource of a given version and kind. -/
def isOfKind (version kind : String) (json : Json) : Bool :=
  json.members?.isSome && tells "apiVersion" version json && tells "kind" kind json

/-- A member that takes a default when it is absent or `null`. -/
def orDefault {α : Type} (json : Json) (name : String) (default : α) (read : Json → Option α) :
    Option α :=
  (json.maybe? name read).map fun value => value.getD default

def metadataOf (json : Json) : Option Metadata := orDefault json "metadata" {} Metadata.ofJson?

/-- The ready replicas of a stateful set; one without a status has none. -/
def readyReplicas? (json : Json) : Option Int := do
  if isOfKind "apps/v1" "StatefulSet" json then
    let _ ← metadataOf json
    let ready ← json.maybe? "status" fun status => do
      let _ ← status.members?
      status.maybe? "readyReplicas" Json.int32?
    return ((ready.join).map Int32.toInt).getD 0
  else none

/-- The request of a container for CPU. All requests and limits are texts. -/
def cpuRequest? (resources : Json) : Option (Option String) := do
  let _ ← resources.members?
  let _ ← resources.maybe? "limits" (Json.map? Json.str?)
  let requests ← resources.maybe? "requests" (Json.map? Json.str?)
  return requests.bind fun requests => requests.reverse.lookup "cpu"

def container? (json : Json) : Option Container := do
  let _ ← json.members?
  let request ← json.maybe? "resources" cpuRequest?
  return ⟨← orDefault json "name" "" Json.str?, request.join⟩

/-- The claim behind a volume, if there is one. -/
def volumeClaim? (json : Json) : Option (Option String) := do
  let _ ← json.members?
  let _ ← json.maybe? "name" Json.str?
  json.maybe? "persistentVolumeClaim" fun claim => do
    let _ ← claim.members?
    let _ ← claim.maybe? "readOnly" Json.bool?
    orDefault claim "claimName" "" Json.str?

def podSpec? (json : Json) : Option PodSpec := do
  let _ ← json.members?
  return {
    containers := ← orDefault json "containers" [] (Json.list? container?)
    claims := ← orDefault json "volumes" [] (Json.list? volumeClaim?) }

def containerStatus? (json : Json) : Option ContainerStatus := do
  let _ ← json.members?
  return ⟨← orDefault json "name" "" Json.str?, ← orDefault json "ready" false Json.bool?⟩

def podStatus? (now : Timestamp) (json : Json) : Option PodStatus := do
  let _ ← json.members?
  let start ← json.maybe? "startTime" Json.time?
  return {
    containers := ← json.maybe? "containerStatuses" (Json.list? containerStatus?)
    ageMs := start.map fun start => now.millis - start.millis }

def pod? (now : Timestamp) (json : Json) : Option Pod := do
  if isOfKind "v1" "Pod" json then
    return {
      name := (← metadataOf json).name
      spec := ← json.maybe? "spec" podSpec?
      status := ← json.maybe? "status" (podStatus? now) }
  else none

def volumeClaimName? (json : Json) : Option (Option String) :=
  if isOfKind "v1" "PersistentVolumeClaim" json then (metadataOf json).map (·.name) else none

def isListMetadata (json : Json) : Bool :=
  json.fits [("continue", Json.isText), ("remainingItemCount", Json.isInt64),
    ("resourceVersion", Json.isText), ("selfLink", Json.isText)]

/-- The items of a listing. They have to be there, but may be `null`. -/
def items? {α : Type} (read : Json → Option α) (json : Json) : Option (List α) := do
  let _ ← json.members?
  let record ← Record.ofJson? ["metadata", "items"] json
  if (record.lookup "metadata").all isListMetadata then
    record.required "items" fun items => (Json.option? (Json.list? read) items).map (·.getD [])
  else none

/-- The CPU in use by all containers of a pod; nothing when no container tells it. -/
def cpuUsed (json : Json) : Option Float := do
  let containers ← (← json.member? "containers").items?
  cpuTotal (containers.filterMap fun container => do
    ((← container.member? "usage").member? "cpu").bind Json.str?)

/-- A pod's name and the CPU in use by it, as far as they are known. -/
def podUsage? (json : Json) : Option (Option (String × Float)) := do
  let _ ← json.members?
  let metadata ← match json.member? "metadata" with
    | none => some {}
    | some metadata => Metadata.ofJson? metadata
  return do return (← metadata.name, ← cpuUsed json)

/-- The CPU in use by pod, in ascending order of the pods' names; the last measurement of a pod
counts. -/
def usageByPod (usages : List (Option (String × Float))) : List (String × Float) :=
  (usages.filterMap id).foldl (fun sorted (pod, cores) => insertNamed pod cores sorted) []

def isCause (json : Json) : Bool :=
  json.fits [("field", Json.isText), ("message", Json.isText), ("reason", Json.isText)]

def areDetails (json : Json) : Bool :=
  json.fits [("causes", fun causes => causes.items?.any (·.all isCause)), ("group", Json.isText),
    ("kind", Json.isText), ("name", Json.isText),
    ("retryAfterSeconds", fun seconds => seconds.int32?.isSome), ("uid", Json.isText)]

def isOutcome (json : Json) : Bool :=
  isOfKind "v1" "Status" json &&
    json.fits [("code", fun code => code.int32?.isSome), ("details", areDetails),
      ("message", Json.isText), ("metadata", isListMetadata), ("reason", Json.isText),
      ("status", Json.isText)]

/-- Whether a deletion was carried out or not. -/
def deletionOutcome? (json : Json) : Option Bool :=
  match json with
  | .str "Success" => some true
  | .str "Failure" => some false
  | _ => none

/-- The answer to a deletion: how it went, or the volume claim as it was. Either will do. -/
def deleted? (json : Json) : Option Unit := do
  if json.member? "kind" |>.any (fun kind => kind.str? == some "Status") then
    let record ← Record.ofJson? ["status", "code", "message", "reason", "details"] json
    let _ ← record.optional "status" none (Json.option? deletionOutcome?)
    let _ ← record.optional "code" 0 Json.uint16?
    let _ ← record.optional "message" "" Json.str?
    let _ ← record.optional "reason" "" Json.str?
    if (record.lookup "details").all fun details => details matches .null || areDetails details then
      return ()
    else none
  else
    let _ ← volumeClaimName? json
    return ()

end SetScaler.Api
