import SetScaler.Bookie.Cleanup
import SetScaler.Readiness
import SetScaler.Removal.Protocol

/-!
One evaluation of a bookie set: volume cleanup, gate, state and disks of the bookies, plan, and the
patch of the replica count, after the safe removal of bookies when the set is to shrink.
-/

namespace SetScaler

namespace BookieTask

/-- The identity that a set's bookie registers under: its host name and client port. -/
def bookieId (key : SetKey) (settings : ScalingSettings) (pod : String) : String :=
  pod ++ "." ++ key.statefulSet ++ "." ++ key.ns ++ ".svc.cluster.local:" ++
    toString settings.bookiePort.toNat

/-- Records a replica count if it differs from the current one. -/
def patch (key : SetKey) (current target : Int) : Program (Except Failure Unit) :=
  if target = current then return .ok () else Program.ask (.patchReplicas key target)

/-- Removes bookies from the end of the set, and lowers the count by as many as were removed. -/
def shrink (key : SetKey) (spec : BookieSpec) (settings : ScalingSettings) (current : Int)
    (nodes : List BookieNode) (queryPod : String) (magnitude : Nat) :
    Program (Except Failure Unit) := do
  let protocol : Removal.Protocol :=
    ⟨key.ns, queryPod, settings.settleDelayMs.toNat, settings.cookieDeleteAttempts.toNat⟩
  let summary ← protocol.run (Removal.candidates nodes magnitude)
  if summary.delta = 0 then return .ok ()
  else patch key current (spec.target current summary.delta)

/-- Carries out a plan. Replication is looked at only when the set is to shrink, by asking the first
bookie. -/
def carryOut (key : SetKey) (spec : BookieSpec) (settings : ScalingSettings) (current : Int)
    (nodes : List BookieNode) : BookiePlan → Program (Except Failure Unit)
  | .hold => return .ok ()
  | .scaleUp count => patch key current (spec.target current (Decision.up count).delta)
  | .scaleDownIfReplicated count => do
    match nodes with
    | [] => return .ok ()
    | first :: _ =>
      if ← Admin.noUnderReplicated key.ns first.pod then
        shrink key spec settings current nodes first.pod count
      else return .ok ()

def cleanUp (key : SetKey) (spec : BookieSpec) (current : Int) : Program Unit :=
  if spec.cleanUpPvcs then Cleanup.run key current else return ()

def evaluate (key : SetKey) (spec : BookieSpec) (settings : ScalingSettings) (current : Int) :
    Program (Except Failure Unit) := do
  match ← Readiness.isReady key settings.bookieContainer current
      spec.stabilizationWindowMs.toNat with
  | .error failure => return .error failure
  | .ok false => return .ok ()
  | .ok true =>
    match ← Survey.bookieNodes key (bookieId key settings) with
    | .error failure => return .error failure
    | .ok nodes => carryOut key spec settings current nodes (spec.planFor nodes)

/-- Evaluates a set once. A set that is not recorded or not settled is left alone. -/
def run (key : SetKey) (spec : BookieSpec) (settings : ScalingSettings) :
    Program (Except Failure Unit) := do
  match spec.defect? with
  | some defect => return .error (.invalidSpec defect)
  | none =>
    match ← Program.ask (.currentReplicas key) with
    | .error failure => return .error failure
    | .ok none => return .ok ()
    | .ok (some current) =>
      cleanUp key spec current
      evaluate key spec settings current

end BookieTask
end SetScaler
