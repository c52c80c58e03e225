import SetScaler.Readiness
import SetScaler.Survey

/-!
One evaluation of a broker set: gate, samples, votes, and the patch of the replica count.
-/

namespace SetScaler

namespace BrokerTask

/-- Evaluates a set whose samples are known, and records its new replica count if that changes. -/
def apply (key : SetKey) (spec : BrokerSpec) (current : Int) (nodes : List BrokerNode) :
    Program (Except Failure Unit) :=
  let target := spec.target current (spec.decide nodes)
  if target = current then return .ok ()
  else Program.ask (.patchReplicas key target)

/-- Evaluates a set once. A set that is not recorded, not settled or without samples is left
alone. -/
def run (key : SetKey) (spec : BrokerSpec) (settings : ScalingSettings) :
    Program (Except Failure Unit) := do
  match spec.defect? with
  | some defect => return .error (.invalidSpec defect)
  | none =>
    match ← Program.ask (.currentReplicas key) with
    | .error failure => return .error failure
    | .ok none => return .ok ()
    | .ok (some current) =>
      match ← Readiness.isReady key settings.brokerContainer current
          spec.stabilizationWindowMs.toNat with
      | .error failure => return .error failure
      | .ok false => return .ok ()
      | .ok true =>
        match ← Survey.brokerNodes key with
        | .error failure => return .error failure
        | .ok nodes => apply key spec current nodes

end BrokerTask
end SetScaler
