import SetScaler.Survey

/-!
Deleting the volumes of bookies that are gone: those with an ordinal at or beyond the recorded count
that no listed pod mounts.
-/

namespace SetScaler.Cleanup

/-- Whether a volume belongs to no bookie that the count keeps, and no pod mounts it. A name without
an ordinal is never taken. -/
def isOrphan (count : Int) (mounted : List String) (name : String) : Bool :=
  match ordinal? name with
  | none => false
  | some ordinal => count ≤ ordinal && !mounted.contains name

/-- The orphans among volumes, in the order of the listing. -/
def orphans (count : Int) (volumes : List (Option String)) (pods : List Pod) : List String :=
  (volumes.filterMap id).filter (isOrphan count (pods.flatMap Pod.claims))

/-- Deletes volumes one after the other; a failure does not stop the others. Counts the
deletions. -/
def deleteEach (ns : String) : List String → Program Nat
  | [] => return 0
  | name :: rest => do
    let answer ← Program.ask (.deleteVolume ns name)
    let others ← deleteEach ns rest
    return (if answer.toBool then 1 else 0) + others

/-- Deletes the orphaned volumes of a set; none when a listing fails. Counts the deletions. -/
def sweep (key : SetKey) (count : Int) : Program Nat := do
  match ← Program.ask (.volumes key.ns key.selector) with
  | .error _ => return 0
  | .ok [] => return 0
  | .ok volumes =>
    match ← Program.ask (.pods key.ns key.selector) with
    | .error _ => return 0
    | .ok pods => deleteEach key.ns (orphans count volumes pods)

/-- Deletes orphaned volumes, and after a deletion has the first pod trigger an audit, which only
speeds up the bookkeeping of re-replication. Nothing here makes the run fail. -/
def run (key : SetKey) (count : Int) : Program Unit := do
  if (← sweep key count) = 0 then return ()
  else
    match ← Survey.podNames key with
    | .error _ => return ()
    | .ok [] => return ()
    | .ok (pod :: _) =>
      if ← Program.isCancelled then return ()
      else
        let _ ← Admin.triggerAudit key.ns pod
        return ()

end SetScaler.Cleanup
