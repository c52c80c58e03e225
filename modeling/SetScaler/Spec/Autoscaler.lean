import SetScaler.Spec.Bookie
import SetScaler.Spec.Broker
import SetScaler.SetKey

/-!
The autoscaler settings of a set of either component.
-/

namespace SetScaler

/-- Settings of one set's autoscaler. Equality is that of the settings, doubles compared as
numbers. -/
inductive AutoscalerSpec where
  | broker (spec : BrokerSpec)
  | bookkeeper (spec : BookieSpec)
deriving BEq, Repr, Inhabited

namespace AutoscalerSpec

def component : AutoscalerSpec → Component
  | broker _ => .broker
  | bookkeeper _ => .bookkeeper

def enabled : AutoscalerSpec → Bool
  | broker spec => spec.enabled
  | bookkeeper spec => spec.enabled

/-- Delay in milliseconds between the end of one run and the start of the next. -/
def periodMs : AutoscalerSpec → Nat
  | broker spec => spec.periodMs.toNat
  | bookkeeper spec => spec.periodMs.toNat

/-- The age in milliseconds that every pod must have before the set is evaluated. -/
def stabilizationMs : AutoscalerSpec → Nat
  | broker spec => spec.stabilizationWindowMs.toNat
  | bookkeeper spec => spec.stabilizationWindowMs.toNat

def ofJson? : Component → Json → Option AutoscalerSpec
  | .broker, json => (BrokerSpec.ofJson? json).map broker
  | .bookkeeper, json => (BookieSpec.ofJson? json).map bookkeeper

def toJson : AutoscalerSpec → Json
  | broker spec => spec.toJson
  | bookkeeper spec => spec.toJson

end AutoscalerSpec
end SetScaler
