import SetScaler.Run.Program

/-!
The gate in front of every evaluation: a set is looked at only when its stateful set is fully ready,
it has exactly the recorded number of pods, and every pod is ready and has been running for a while.
-/

namespace SetScaler.Readiness

/-- The longest age that is ever asked for, in milliseconds. -/
def longestWindow : Int := 9223372036854775807

/-- The age that pods must have, cut at the longest one. -/
def windowOf (windowMs : Nat) : Int := min windowMs longestWindow

/-- Whether a pod's primary container is ready and the pod is old enough. -/
def podSettled (container : String) (windowMs : Nat) (pod : Pod) : Bool :=
  pod.primaryReady container && pod.ageMs.any fun age => windowOf windowMs ≤ age

/-- Whether a listing has exactly the expected number of pods, all of them settled. -/
def podsSettled (container : String) (windowMs : Nat) (expected : Int) (pods : List Pod) : Bool :=
  pods.length == expected.toNat && pods.all (podSettled container windowMs)

/-- Whether a set is settled enough to be scaled from `expected` replicas. -/
def isReady (key : SetKey) (container : String) (expected : Int) (windowMs : Nat) :
    Program (Except Failure Bool) := do
  match ← Program.ask (.readyReplicas key.ns key.statefulSet) with
  | .error failure => return .error failure
  | .ok none => return .ok false
  | .ok (some ready) =>
    if ready ≠ expected then return .ok false
    else
      match ← Program.ask (.pods key.ns key.selector) with
      | .error failure => return .error failure
      | .ok pods => return .ok (podsSettled container windowMs expected pods)

end SetScaler.Readiness
