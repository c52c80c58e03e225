import SetScaler.Bookie.Task
import SetScaler.Broker.Task
import SetScaler.Spec.Autoscaler

/-!
One evaluation of a set of either component.
-/

namespace SetScaler

def AutoscalerSpec.run (spec : AutoscalerSpec) (key : SetKey) (settings : ScalingSettings) :
    Program (Except Failure Unit) :=
  match spec with
  | .broker spec => BrokerTask.run key spec settings
  | .bookkeeper spec => BookieTask.run key spec settings

end SetScaler
