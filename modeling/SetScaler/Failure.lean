import SetScaler.Decimal.Positional

/-!
What can go wrong, by cause. The wording of every cause is in one place, so that nothing depends on
a message's text.
-/

namespace SetScaler

/-- A contradiction inside an autoscaler spec. -/
inductive Defect where
  /-- A broker ceiling below the floor, or below one. -/
  | maxBelowMin (max min : Int32)
  | lowerAboveHigher (lower higher : Float)
  /-- A step that changes nothing or points the wrong way. -/
  | stepBelowOne
  | negativeFloor (count : Int32)
  /-- A bookie ceiling below the number of bookies to keep. -/
  | ceilingBelowFloor (ceiling floor : Int32)
  | lowAboveHigh (low high : Float)
  /-- A contradiction found by a caller, in its words. -/
  | described (text : String)
deriving Repr

def Defect.message : Defect → String
  | maxBelowMin max min =>
    "max (" ++ toString max ++ ") must be >= min (" ++ toString min ++ ") and at least 1"
  | lowerAboveHigher lower higher =>
    "lowerCpuThreshold (" ++ Decimal.text lower ++ ") must be <= higherCpuThreshold (" ++
      Decimal.text higher ++ ")"
  | stepBelowOne => "scaleUpBy and scaleDownBy must be at least 1"
  | negativeFloor count =>
    "minWritableBookies must not be negative (got " ++ toString count ++ ")"
  | ceilingBelowFloor ceiling floor =>
    "scaleUpMaxLimit (" ++ toString ceiling ++ ") must be >= minWritableBookies (" ++
      toString floor ++ ")"
  | lowAboveHigh low high =>
    "diskUsageToleranceLwm (" ++ Decimal.text low ++ ") must be <= diskUsageToleranceHwm (" ++
      Decimal.text high ++ ")"
  | described text => text

inductive Failure where
  /-- The API server could not be asked, or answered with this status. -/
  | api (status : Option Nat)
  /-- A command could not be run in a pod, or did not do its work there. -/
  | exec (pod message : String)
  | cancelled
  | invalidSpec (defect : Defect)
  /-- What a pod printed was not what it should have been. -/
  | unparsable (what detail : String)
deriving Repr

def Failure.message : Failure → String
  | api none => "kubernetes error"
  | api (some status) => "kubernetes error: status " ++ toString status
  | exec pod message => "exec in pod " ++ pod ++ " failed: " ++ message
  | cancelled => "operation cancelled"
  | invalidSpec defect => "invalid autoscaler configuration: " ++ defect.message
  | unparsable what detail => "failed to parse " ++ what ++ ": " ++ detail

end SetScaler
