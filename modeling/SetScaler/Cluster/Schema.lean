import SetScaler.Cluster.Spec
import SetScaler.Yaml.Writer

/-!
The schema of a cluster's resource, by which the API server checks it and fills in defaults. The
defaults are those of the records themselves.
-/

namespace SetScaler

inductive ScalarKind where
  | boolean
  | int32
  | uint64
  | double
  | string
deriving DecidableEq, Repr

namespace ScalarKind

def typeName : ScalarKind → String
  | boolean => "boolean"
  | int32 | uint64 => "integer"
  | double => "number"
  | string => "string"

/-- What the name of the type leaves open. -/
def format? : ScalarKind → Option String
  | int32 => some "int32"
  | uint64 => some "uint64"
  | double => some "double"
  | boolean | string => none

def minimum? : ScalarKind → Option String
  | uint64 => some "0.0"
  | _ => none

end ScalarKind

structure SchemaNotes where
  default : Option String := none
  description : Option String := none
  nullable : Bool := false
deriving Repr

inductive Schema where
  | scalar (kind : ScalarKind) (notes : SchemaNotes)
  | list (item : Schema) (notes : SchemaNotes)
  /-- Values of one shape under names of the user's choice. -/
  | named (entry : Schema) (notes : SchemaNotes)
  | record (fields : List (String × Schema)) (notes : SchemaNotes)

namespace Schema

/-- An entry that is there only if it has a value. -/
def entry (key : String) (value : Option String) : List (String × Yaml) :=
  value.toList.map fun text => (key, .word text)

def nullableEntry (notes : SchemaNotes) : List (String × Yaml) :=
  if notes.nullable then [("nullable", .word "true")] else []

def noteEntries (notes : SchemaNotes) : List (String × Yaml) :=
  entry "default" notes.default ++ entry "description" notes.description

mutual

/-- A schema as a document, keys in ascending order. -/
def toYaml : Schema → Yaml
  | .scalar kind notes => .mapping (noteEntries notes ++ entry "format" kind.format? ++
      entry "minimum" kind.minimum? ++ nullableEntry notes ++ [("type", .word kind.typeName)])
  | .list item notes => .mapping (noteEntries notes ++ [("items", item.toYaml)] ++
      nullableEntry notes ++ [("type", .word "array")])
  | .named item notes => .mapping (("additionalProperties", item.toYaml) :: noteEntries notes ++
      nullableEntry notes ++ [("type", .word "object")])
  | .record fields notes => .mapping (noteEntries notes ++ nullableEntry notes ++
      [("properties", .mapping ((fieldsYaml fields).mergeSort fun a b => decide (a.1 ≤ b.1))),
        ("type", .word "object")])

def fieldsYaml : List (String × Schema) → List (String × Yaml)
  | [] => []
  | (name, field) :: rest => (name, field.toYaml) :: fieldsYaml rest

end

end Schema

open Schema

def ratioSchema (default : Float) (description : String) : Schema :=
  .scalar .double { default := some (Decimal.text default), description := some description }

def spanSchema (default : UInt64) (description : Option String) : Schema :=
  .scalar .uint64 { default := some (toString default), description }

def countSchema (default : Int32) (description : Option String) : Schema :=
  .scalar .int32 { default := some (toString default), description }

def openCountSchema (description : Option String) : Schema :=
  .scalar .int32 { description, nullable := true }

def switchSchema (default : Bool) (description : Option String) : Schema :=
  .scalar .boolean { default := some (toString default), description }

def BrokerSpec.schema (description : String) : Schema :=
  let base : BrokerSpec := {}
  .record [
    ("enabled", switchSchema base.enabled none),
    ("periodMs", spanSchema base.periodMs
      "Delay between two runs, measured from the end of the previous run"),
    ("stabilizationWindowMs", spanSchema base.stabilizationWindowMs
      "Minimum pod age before the set is evaluated"),
    ("min", countSchema base.minReplicas none),
    ("max", openCountSchema none),
    ("lowerCpuThreshold", ratioSchema base.lowerCpuThreshold
      "Usage ratio (used / requested) under which a broker votes to scale down"),
    ("higherCpuThreshold", ratioSchema base.higherCpuThreshold
      "Usage ratio above which a broker votes to scale up"),
    ("scaleUpBy", countSchema base.scaleUpBy none),
    ("scaleDownBy", countSchema base.scaleDownBy none)]
    { description := some description, nullable := true }

def BookieSpec.schema (description : String) : Schema :=
  let base : BookieSpec := {}
  .record [
    ("enabled", switchSchema base.enabled none),
    ("periodMs", spanSchema base.periodMs none),
    ("stabilizationWindowMs", spanSchema base.stabilizationWindowMs none),
    ("diskUsageToleranceHwm", ratioSchema base.diskUsageToleranceHwm
      "Disk usage ratio at or above which a disk is considered full"),
    ("diskUsageToleranceLwm", ratioSchema base.diskUsageToleranceLwm
      "Disk usage ratio every writable disk must stay under before scaling down"),
    ("minWritableBookies", countSchema base.minWritableBookies
      "Number of writable bookies the set must keep"),
    ("scaleUpBy", countSchema base.scaleUpBy none),
    ("scaleDownBy", countSchema base.scaleDownBy none),
    ("scaleUpMaxLimit", countSchema base.scaleUpMaxLimit "Replica ceiling for scale-up"),
    ("cleanUpPvcs", switchSchema base.cleanUpPvcs "Delete detached volumes of removed bookies")]
    { description := some description, nullable := true }

def SetSpec.schema (autoscaler : Schema) (description : String) : Schema :=
  .record [("replicas", openCountSchema none), ("autoscaler", autoscaler)]
    { description := some description }

/-- The broker component: the two schemas of autoscalers differ in their descriptions. -/
def ClusterSpec.brokerSchema : Schema :=
  let set := SetSpec.schema (BrokerSpec.schema "CPU-driven autoscaler settings for a broker set")
    "One named broker set"
  .record [
    ("replicas", openCountSchema
      "Desired replicas of the default set (also the fallback for named sets)"),
    ("autoscaler",
      BrokerSpec.schema "Autoscaler for the default set, inherited by named sets"),
    ("sets", .named set {
      description := "Named broker sets; when present the default set is not deployed" })]
    { description := "Broker (compute tier) settings", nullable := true }

def ClusterSpec.bookkeeperSchema : Schema :=
  let autoscaler := BookieSpec.schema "Disk-driven autoscaler settings for a bookie set"
  .record [
    ("replicas", openCountSchema none),
    ("autoscaler", autoscaler),
    ("sets", .named (SetSpec.schema autoscaler "One named bookie set") {})]
    { description := "BookKeeper (storage tier) settings", nullable := true }

def ClusterSpec.schema : Schema :=
  .record [("broker", ClusterSpec.brokerSchema), ("bookkeeper", ClusterSpec.bookkeeperSchema)]
    { description := "Spec for the PulsarCluster custom resource" }

end SetScaler
