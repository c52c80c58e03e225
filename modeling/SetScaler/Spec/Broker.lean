import SetScaler.Failure
import SetScaler.Json.Basic

/-!
The autoscaler settings of a broker set: when a broker votes, how far a step goes, and the bounds of
the replica count.
-/

namespace SetScaler

structure BrokerSpec where
  enabled : Bool := false
  /-- Delay between two runs, from the end of the one to the start of the other. -/
  periodMs : UInt64 := 60000
  /-- The age that every pod must have before the set is evaluated. -/
  stabilizationWindowMs : UInt64 := 300000
  minReplicas : Int32 := 1
  maxReplicas : Option Int32 := none
  /-- A broker below this ratio of used to requested CPU votes to scale down. -/
  lowerCpuThreshold : Float := 0.3
  /-- A broker above this ratio votes to scale up. -/
  higherCpuThreshold : Float := 0.8
  scaleUpBy : Int32 := 1
  scaleDownBy : Int32 := 1
deriving BEq, Repr, Inhabited

namespace BrokerSpec

/-- The members of the record, in their order. -/
def names : List String :=
  ["enabled", "periodMs", "stabilizationWindowMs", "min", "max", "lowerCpuThreshold",
   "higherCpuThreshold", "scaleUpBy", "scaleDownBy"]

def ofJson? (json : Json) : Option BrokerSpec := do
  let record ← Record.ofJson? names json
  let base : BrokerSpec := {}
  return {
    enabled := ← record.optional "enabled" base.enabled Json.bool?
    periodMs := ← record.optional "periodMs" base.periodMs Json.uint64?
    stabilizationWindowMs :=
      ← record.optional "stabilizationWindowMs" base.stabilizationWindowMs Json.uint64?
    minReplicas := ← record.optional "min" base.minReplicas Json.int32?
    maxReplicas := ← record.optional "max" base.maxReplicas (Json.option? Json.int32?)
    lowerCpuThreshold := ← record.optional "lowerCpuThreshold" base.lowerCpuThreshold Json.float?
    higherCpuThreshold :=
      ← record.optional "higherCpuThreshold" base.higherCpuThreshold Json.float?
    scaleUpBy := ← record.optional "scaleUpBy" base.scaleUpBy Json.int32?
    scaleDownBy := ← record.optional "scaleDownBy" base.scaleDownBy Json.int32? }

def toJson (spec : BrokerSpec) : Json :=
  .obj [
    ("enabled", .bool spec.enabled),
    ("periodMs", .int spec.periodMs.toNat),
    ("stabilizationWindowMs", .int spec.stabilizationWindowMs.toNat),
    ("min", .int spec.minReplicas.toInt),
    ("max", Json.ofOption (fun count : Int32 => .int count.toInt) spec.maxReplicas),
    ("lowerCpuThreshold", .float spec.lowerCpuThreshold),
    ("higherCpuThreshold", .float spec.higherCpuThreshold),
    ("scaleUpBy", .int spec.scaleUpBy.toInt),
    ("scaleDownBy", .int spec.scaleDownBy.toInt)]

/-- The first contradiction in a spec, if there is one. -/
def defect? (spec : BrokerSpec) : Option Defect :=
  if spec.maxReplicas.any fun ceiling => ceiling.toInt < max spec.minReplicas.toInt 1 then
    spec.maxReplicas.map fun ceiling => .maxBelowMin ceiling spec.minReplicas
  else if spec.lowerCpuThreshold > spec.higherCpuThreshold then
    some (.lowerAboveHigher spec.lowerCpuThreshold spec.higherCpuThreshold)
  else if spec.scaleUpBy.toInt < 1 ∨ spec.scaleDownBy.toInt < 1 then some .stepBelowOne
  else none

end BrokerSpec
end SetScaler
