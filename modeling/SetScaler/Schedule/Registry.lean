import SetScaler.Spec.Autoscaler

/-!
Which sets have a live task. An observation of a cluster brings its tasks in line with the latest
specs: a set whose spec is unchanged keeps its task, any other is cancelled, and where the spec is
enabled a new task takes its place. A task that was cancelled is remembered until it has finished,
so that the next task of its set can wait for it.
-/

namespace SetScaler.Schedule

/-- A live task. Its generation tells it from every other task there has ever been. -/
structure Scheduled where
  key : SetKey
  spec : AutoscalerSpec
  generation : Nat
deriving Repr, Inhabited

structure Registry where
  live : List Scheduled := []
  /-- For each set the newest cancelled task that may still be finishing a run. -/
  retiring : List (SetKey × Nat) := []
  /-- Set by a shutdown; nothing is scheduled after it. -/
  closed : Bool := false
  next : Nat := 1
deriving Repr, Inhabited

/-- What the registry asks to be done about tasks. -/
inductive Order where
  | cancel (generation : Nat)
  /-- Start a task, which waits for the task of generation `after` first. -/
  | start (task : Scheduled) (after : Option Nat)
deriving Repr

namespace Registry

def find? (registry : Registry) (key : SetKey) : Option Scheduled :=
  registry.live.find? fun task => task.key == key

/-- Forgets cancelled tasks that have finished. -/
def prune (registry : Registry) (finished : Nat → Bool) : Registry :=
  { registry with retiring := registry.retiring.filter fun entry => !finished entry.2 }

/-- Cancels the task of a set, if there is one. -/
def retire (registry : Registry) (key : SetKey) : Registry × List Order :=
  match registry.find? key with
  | none => (registry, [])
  | some task =>
    ({ registry with
        live := registry.live.filter fun other => other.key != key
        -- in place of an older one, which this task waits for itself
        retiring :=
          (key, task.generation) :: registry.retiring.filter fun entry => entry.1 != key },
      [.cancel task.generation])

def retireAll (registry : Registry) : List SetKey → Registry × List Order
  | [] => (registry, [])
  | key :: rest =>
    let (registry, first) := registry.retire key
    let (registry, later) := registry.retireAll rest
    (registry, first ++ later)

/-- Starts a task for a set that has none. -/
def launch (registry : Registry) (key : SetKey) (spec : AutoscalerSpec) : Registry × List Order :=
  let task : Scheduled := ⟨key, spec, registry.next⟩
  ({ registry with
      live := registry.live ++ [task]
      retiring := registry.retiring.filter fun entry => entry.1 != key
      next := registry.next + 1 },
    [.start task (registry.retiring.lookup key)])

/-- Brings the task of one set in line with its spec. -/
def align (registry : Registry) (key : SetKey) (spec : AutoscalerSpec) : Registry × List Order :=
  if (registry.find? key).any fun task => task.spec == spec then (registry, [])
  else
    let (registry, first) := registry.retire key
    if spec.enabled then
      let (registry, later) := registry.launch key spec
      (registry, first ++ later)
    else (registry, first)

def alignAll (registry : Registry) : List (SetKey × AutoscalerSpec) → Registry × List Order
  | [] => (registry, [])
  | (key, spec) :: rest =>
    let (registry, first) := registry.align key spec
    let (registry, later) := registry.alignAll rest
    (registry, first ++ later)

/-- The live sets of a cluster that an observation no longer mentions. -/
def gone (registry : Registry) (ns cluster : String) (specs : List (SetKey × AutoscalerSpec)) :
    List SetKey :=
  (registry.live.map Scheduled.key).filter fun key =>
    key.inCluster ns cluster && !(specs.any fun entry => entry.1 == key)

/-- Takes in the latest specs of a cluster; `finished` tells which tasks have finished. -/
def observe (registry : Registry) (finished : Nat → Bool) (ns cluster : String)
    (specs : List (SetKey × AutoscalerSpec)) : Registry × List Order :=
  if registry.closed then (registry, [])
  else
    let registry := registry.prune finished
    let (registry, first) := registry.retireAll (registry.gone ns cluster specs)
    let (registry, later) := registry.alignAll specs
    (registry, first ++ later)

def forget (registry : Registry) (finished : Nat → Bool) (ns cluster : String) :
    Registry × List Order :=
  registry.observe finished ns cluster []

/-- Cancels every task for good. The tasks to wait for are those still remembered. -/
def close (registry : Registry) : Registry × List Order × List Nat :=
  let (registry, orders) :=
    { registry with closed := true }.retireAll (registry.live.map Scheduled.key)
  ({ registry with retiring := [] }, orders, registry.retiring.map (·.2))

/-- The sets with a live task, in the order of their keys. -/
def keys (registry : Registry) : List SetKey := sortKeys (registry.live.map Scheduled.key)

def generation? (registry : Registry) (key : SetKey) : Option Nat :=
  (registry.find? key).map Scheduled.generation

end Registry
end SetScaler.Schedule
