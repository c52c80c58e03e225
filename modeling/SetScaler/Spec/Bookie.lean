import SetScaler.Failure
import SetScaler.Json.Basic

/-!
The autoscaler settings of a bookie set: the disk watermarks, the number of writable bookies to
keep, how far a step goes and how far the set may grow.
-/

namespace SetScaler

structure BookieSpec where
  enabled : Bool := false
  /-- Delay between two runs, from the end of the one to the start of the other. -/
  periodMs : UInt64 := 10000
  /-- The age that every pod must have before the set is evaluated. -/
  stabilizationWindowMs : UInt64 := 300000
  /-- A disk at or above this usage ratio is full. -/
  diskUsageToleranceHwm : Float := 0.92
  /-- No writable disk may be above this usage ratio when the set shrinks. -/
  diskUsageToleranceLwm : Float := 0.75
  minWritableBookies : Int32 := 3
  scaleUpBy : Int32 := 1
  scaleDownBy : Int32 := 1
  /-- The replica count that a step up stops at. -/
  scaleUpMaxLimit : Int32 := 30
  /-- Whether volumes of removed bookies are deleted. -/
  cleanUpPvcs : Bool := true
deriving BEq, Repr, Inhabited

namespace BookieSpec

/-- The members of the record, in their order. -/
def names : List String :=
  ["enabled", "periodMs", "stabilizationWindowMs", "diskUsageToleranceHwm",
   "diskUsageToleranceLwm", "minWritableBookies", "scaleUpBy", "scaleDownBy", "scaleUpMaxLimit",
   "cleanUpPvcs"]

def ofJson? (json : Json) : Option BookieSpec := do
  let record ← Record.ofJson? names json
  let base : BookieSpec := {}
  return {
    enabled := ← record.optional "enabled" base.enabled Json.bool?
    periodMs := ← record.optional "periodMs" base.periodMs Json.uint64?
    stabilizationWindowMs :=
      ← record.optional "stabilizationWindowMs" base.stabilizationWindowMs Json.uint64?
    diskUsageToleranceHwm :=
      ← record.optional "diskUsageToleranceHwm" base.diskUsageToleranceHwm Json.float?
    diskUsageToleranceLwm :=
      ← record.optional "diskUsageToleranceLwm" base.diskUsageToleranceLwm Json.float?
    minWritableBookies :=
      ← record.optional "minWritableBookies" base.minWritableBookies Json.int32?
    scaleUpBy := ← record.optional "scaleUpBy" base.scaleUpBy Json.int32?
    scaleDownBy := ← record.optional "scaleDownBy" base.scaleDownBy Json.int32?
    scaleUpMaxLimit := ← record.optional "scaleUpMaxLimit" base.scaleUpMaxLimit Json.int32?
    cleanUpPvcs := ← record.optional "cleanUpPvcs" base.cleanUpPvcs Json.bool? }

def toJson (spec : BookieSpec) : Json :=
  .obj [
    ("enabled", .bool spec.enabled),
    ("periodMs", .int spec.periodMs.toNat),
    ("stabilizationWindowMs", .int spec.stabilizationWindowMs.toNat),
    ("diskUsageToleranceHwm", .float spec.diskUsageToleranceHwm),
    ("diskUsageToleranceLwm", .float spec.diskUsageToleranceLwm),
    ("minWritableBookies", .int spec.minWritableBookies.toInt),
    ("scaleUpBy", .int spec.scaleUpBy.toInt),
    ("scaleDownBy", .int spec.scaleDownBy.toInt),
    ("scaleUpMaxLimit", .int spec.scaleUpMaxLimit.toInt),
    ("cleanUpPvcs", .bool spec.cleanUpPvcs)]

/-- The first contradiction in a spec, if there is one. -/
def defect? (spec : BookieSpec) : Option Defect :=
  if spec.minWritableBookies.toInt < 0 then some (.negativeFloor spec.minWritableBookies)
  else if spec.scaleUpMaxLimit.toInt < spec.minWritableBookies.toInt then
    some (.ceilingBelowFloor spec.scaleUpMaxLimit spec.minWritableBookies)
  else if spec.diskUsageToleranceLwm > spec.diskUsageToleranceHwm then
    some (.lowAboveHigh spec.diskUsageToleranceLwm spec.diskUsageToleranceHwm)
  else if spec.scaleUpBy.toInt < 1 ∨ spec.scaleDownBy.toInt < 1 then some .stepBelowOne
  else none

end BookieSpec
end SetScaler
