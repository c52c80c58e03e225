import SetScaler.Run.Backend

/-!
A cluster kept in memory, to carry out runs on: what the API server knows, and requests that are
made to fail on purpose.
-/

namespace SetScaler.Simulation

/-- The objects of a cluster kept in memory. Listings are returned as they are, whatever the
namespace and the selector. -/
structure Store where
  /-- The ready replicas of stateful sets, by `namespace/name`. -/
  ready : List (String × Int) := []
  pods : List Pod := []
  cpu : List (String × Float) := []
  volumes : List (Option String) := []
  /-- The recorded replica counts, by the display of the set's key. -/
  replicas : List (String × Int) := []
  /-- The calls that fail: a method, its `n`-th call as `method#n`, or its calls with a given last
  argument as `method:argument`. -/
  faults : List String := []
  calls : List (String × Nat) := []
deriving Inhabited

def assign {α : Type} (name : String) (value : α) : List (String × α) → List (String × α)
  | [] => [(name, value)]
  | entry :: rest =>
    if entry.1 = name then (name, value) :: rest else entry :: assign name value rest

/-- A request's method and its arguments, as they are logged. -/
def describe : Request → String × List String
  | .readyReplicas ns statefulSet => ("statefulset_ready_replicas", [ns, statefulSet])
  | .pods ns selector => ("list_pods", [ns, selector])
  | .cpuUsage ns selector => ("pod_cpu_usage", [ns, selector])
  | .volumes ns selector => ("list_pvcs", [ns, selector])
  | .deleteVolume ns name => ("delete_pvc", [ns, name])
  | .currentReplicas key => ("current_replicas", [key.display])
  | .patchReplicas key count => ("patch_replicas", [key.display, toString count])

namespace Store

/-- Counts a call of a method; the number of the call is the second result. -/
def count (store : Store) (method : String) : Store × Nat :=
  let number := (store.calls.lookup method).getD 0 + 1
  ({ store with calls := assign method number store.calls }, number)

/-- Whether the `number`-th call of a method is one that fails. -/
def isFaulty (store : Store) (method : String) (number : Nat) (arguments : List String) : Bool :=
  store.faults.contains method || store.faults.contains (method ++ "#" ++ toString number) ||
    store.faults.contains (method ++ ":" ++ arguments.getLastD "")

/-- The answer to a request that does not fail. -/
def answer (store : Store) : (request : Request) → request.Reply × Store
  | .readyReplicas ns statefulSet => (store.ready.lookup (ns ++ "/" ++ statefulSet), store)
  | .pods _ _ => (store.pods, store)
  | .cpuUsage _ _ => (store.cpu, store)
  | .volumes _ _ => (store.volumes, store)
  | .deleteVolume _ name =>
    ((), { store with volumes := store.volumes.filter fun volume => volume != some name })
  | .currentReplicas key => (store.replicas.lookup key.display, store)
  | .patchReplicas key count =>
    ((), { store with replicas := assign key.display count store.replicas })

def reply (request : Request) (store : Store) : request.Result × Store :=
  let (method, arguments) := describe request
  let (store, number) := store.count method
  if store.isFaulty method number arguments then
    (.error (.exec "api" ("injected " ++ method)), store)
  else
    let (reply, store) := store.answer request
    (.ok reply, store)

end Store
end SetScaler.Simulation
