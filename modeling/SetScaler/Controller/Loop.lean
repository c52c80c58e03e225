import SetScaler.Controller.Reconcile

/-!
The controller's loop. Every new version of a resource is reconciled at once, and again some time
after each reconciliation; a resource that is gone by then loses its tasks. Between reconciliations
the tasks go on.
-/

namespace SetScaler

open Schedule

/-- Milliseconds from a successful reconciliation to the next. -/
def requeueMs : Nat := 300000

/-- Milliseconds from a failed reconciliation to the next. -/
def retryMs : Nat := 60000

/-- The controller: the tasks, the latest versions of all resources, and when each is to be
reconciled next. -/
structure Controller (σ ρ : Type) where
  machine : Machine σ ρ
  cache : List (ClusterRef × Cluster) := []
  queue : List (ClusterRef × Nat) := []
  reports : List Report := []

namespace Controller

variable {σ ρ : Type}

/-- Sets when a resource is to be reconciled next. -/
def schedule (controller : Controller σ ρ) (ref : ClusterRef) (time : Nat) : Controller σ ρ :=
  { controller with
    queue := controller.queue.filter (fun entry => entry.1 != ref) ++ [(ref, time)] }

/-- Takes in a new version of a resource, which is to be reconciled at once. -/
def applied (controller : Controller σ ρ) (cluster : Cluster) : Controller σ ρ :=
  let ref := cluster.ref
  let others := controller.cache.filter fun entry => entry.1 != ref
  schedule { controller with cache := others ++ [(ref, cluster)] } ref controller.machine.time

/-- Takes in that a resource is gone. That alone reconciles nothing. -/
def deleted (controller : Controller σ ρ) (ref : ClusterRef) : Controller σ ρ :=
  { controller with cache := controller.cache.filter fun entry => entry.1 != ref }

/-- Reconciles one resource. `reportFails` says that the API server refuses reports. -/
def reconcile (reportFails : Bool) (controller : Controller σ ρ) (ref : ClusterRef) :
    Controller σ ρ :=
  match controller.cache.lookup ref with
  | none => { controller with machine := controller.machine.forget ref.ns ref.name }
  | some cluster =>
    let (machine, report) := controller.machine.reconcile cluster
    let controller := { controller with machine, reports := controller.reports ++ report.toList }
    if cluster.isLeaving then controller
    else
      let delay := if report.isSome && reportFails then retryMs else requeueMs
      controller.schedule ref (machine.time + delay)

def reconcileDue (reportFails : Bool) (controller : Controller σ ρ) : Controller σ ρ :=
  let (due, later) := controller.queue.partition fun entry => entry.2 ≤ controller.machine.time
  (due.map (·.1)).foldl (reconcile reportFails) { controller with queue := later }

/-- When something is to be reconciled next, after the present. -/
def nextDue? (controller : Controller σ ρ) : Option Nat :=
  (controller.queue.filterMap fun entry =>
    if controller.machine.time < entry.2 then some entry.2 else none).min?

theorem time_lt_of_nextDue? {controller : Controller σ ρ} {due : Nat}
    (h : controller.nextDue? = some due) : controller.machine.time < due := by
  have member := List.min?_mem h
  obtain ⟨entry, _, found⟩ := List.mem_filterMap.mp member
  split at found
  · next later => exact (Option.some.inj found) ▸ later
  · simp at found

theorem reconcile_time (reportFails : Bool) (controller : Controller σ ρ) (ref : ClusterRef) :
    (controller.reconcile reportFails ref).machine.time = controller.machine.time := by
  unfold reconcile
  split
  · simp [Machine.forget]
  · next cluster _ =>
    cases leaving : cluster.isLeaving <;>
      simp [Machine.reconcile, leaving, schedule, Machine.forget]

theorem reconcileDue_time (reportFails : Bool) (controller : Controller σ ρ) :
    (controller.reconcileDue reportFails).machine.time = controller.machine.time := by
  have fold (refs : List ClusterRef) (start : Controller σ ρ) :
      (refs.foldl (reconcile reportFails) start).machine.time = start.machine.time := by
    induction refs generalizing start with
    | nil => rfl
    | cons ref rest ih => rw [List.foldl_cons, ih, reconcile_time]
  exact fold _ _

/-- Lets time pass, up to an instant that is left to the next step. -/
def advanceTo (work : Workload σ ρ) (reportFails : Bool) (limit : Nat)
    (controller : Controller σ ρ) : Controller σ ρ :=
  let settled := controller.reconcileDue reportFails
  match _later : settled.nextDue? with
  | none => { settled with machine := settled.machine.advanceTo work limit }
  | some due =>
    if due < limit then
      advanceTo work reportFails limit
        { settled with machine := settled.machine.advanceTo work due }
    else { settled with machine := settled.machine.advanceTo work limit }
termination_by limit - controller.machine.time
decreasing_by
  have later := time_lt_of_nextDue? _later
  rw [reconcileDue_time] at later
  simp only [Machine.advanceTo_time, reconcileDue_time]
  omega

def advance (work : Workload σ ρ) (reportFails : Bool) (ms : Nat) (controller : Controller σ ρ) :
    Controller σ ρ :=
  controller.advanceTo work reportFails (controller.machine.time + ms)

end Controller

end SetScaler
