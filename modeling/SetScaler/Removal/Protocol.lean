import SetScaler.Bookie.Admin
import SetScaler.Removal.Summary

/-!
The safe removal of bookies. A bookie may only go once it is proven to hold no data that the rest of
the cluster depends on. Each step is taken for all candidates before the next one begins: mark them
read-only, wait, recover their ledgers, look for ledgers left over, look at the replication of the
whole cluster, and delete the cookies from the highest ordinal down. Whatever happens, every
candidate that stays has its read-only flag cleared at the end.

Only the wait is ended by cancellation; what comes after it runs to its end.
-/

namespace SetScaler.Removal

/-- The plan of a removal: the namespace of the bookies, the pod that is asked about the replication
of the whole cluster, the wait after marking, and how often a cookie's deletion is tried. -/
structure Protocol where
  ns : String
  queryPod : String
  settleMs : Nat
  cookieAttempts : Nat
deriving DecidableEq, Repr

namespace Protocol

/-- Marks every candidate read-only, whether or not earlier ones accepted. -/
def markAll (protocol : Protocol) : List Attempt → Program (List Attempt)
  | [] => return []
  | attempt :: rest => do
    let answer ← Admin.setReadOnly protocol.ns attempt.node.pod true
    let rest ← protocol.markAll rest
    return { attempt with progress := attempt.progress.afterReadOnly answer.toBool } :: rest

/-- Recovers the candidates in order, and passes over those after the first that fails. Tells
whether one failed. -/
def recoverAll (protocol : Protocol) : List Attempt → Program (List Attempt × Bool)
  | [] => return ([], false)
  | attempt :: rest => do
    let recovered ← Admin.recover protocol.ns attempt.node.pod attempt.node.bookieId
    let attempt := { attempt with progress := attempt.progress.afterRecovery recovered }
    if recovered then
      let (rest, failed) ← protocol.recoverAll rest
      return (attempt :: rest, failed)
    else return (attempt :: rest.map (Attempt.abort .recoverySkipped), true)

/-- Looks for ledgers left over on every candidate. -/
def checkAll (protocol : Protocol) : List Attempt → Program (List Attempt)
  | [] => return []
  | attempt :: rest => do
    let mayHold ← Admin.mayHoldLedgers protocol.ns attempt.node.pod attempt.node.bookieId
    let rest ← protocol.checkAll rest
    return { attempt with progress := attempt.progress.afterLedgerCheck mayHold } :: rest

/-- Deletes the cookie of one recovered candidate, after one more look for ledgers. -/
def deleteOne (protocol : Protocol) (attempt : Attempt) : Program Attempt := do
  let node := attempt.node
  let mayHold ← Admin.mayHoldLedgers protocol.ns node.pod node.bookieId
  let checked := attempt.progress.afterLedgerCheck mayHold
  if checked ≠ .recovered then return { attempt with progress := checked }
  else
    let deleted ← Admin.deleteCookie protocol.ns node.pod node.bookieId protocol.cookieAttempts
    if deleted then
      -- may fail without consequence
      let _ ← Admin.retireMarkers protocol.ns node.pod
      return { attempt with progress := checked.afterCookie true }
    else return { attempt with progress := checked.afterCookie false }

/-- Deletes cookies from the last candidate to the first. Tells whether one has to stay. -/
def deleteAll (protocol : Protocol) : List Attempt → Program (List Attempt × Bool)
  | [] => return ([], false)
  | attempt :: rest => do
    let (rest, blocked) ← protocol.deleteAll rest
    -- a lower replica count can only drop the end of a set
    if blocked || attempt.progress != .recovered then
      return (attempt.abort .blocked :: rest, true)
    else
      let attempt ← protocol.deleteOne attempt
      return (attempt :: rest, !attempt.isRemoved)

/-- What follows the wait: recovery, checks and deletion. The reason is that of abandoning the whole
removal. -/
def clear (protocol : Protocol) (attempts : List Attempt) :
    Program (List Attempt × Option Reason) := do
  let (attempts, failed) ← protocol.recoverAll attempts
  if failed then return (attempts, some .recoveryFailed)
  else
    let attempts ← protocol.checkAll attempts
    if ← Admin.noUnderReplicated protocol.ns protocol.queryPod then
      let (attempts, _) ← protocol.deleteAll attempts
      return (attempts, none)
    else return (attempts, some .replicationUnhealthy)

/-- All steps but the last. -/
def advance (protocol : Protocol) (attempts : List Attempt) :
    Program (List Attempt × Option Reason) := do
  let attempts ← protocol.markAll attempts
  if attempts.any Attempt.isFailed then return (attempts, some .readOnlyRejected)
  else if ← Program.wait protocol.settleMs then return (attempts, some .cancelled)
  else protocol.clear attempts

/-- Clears the read-only flag of every candidate that stays, as far as that succeeds. -/
def rollBack (protocol : Protocol) : List Attempt → Program Unit
  | [] => return ()
  | attempt :: rest => do
    if attempt.progress.needsRollback then
      let _ ← Admin.setReadOnly protocol.ns attempt.node.pod false
      protocol.rollBack rest
    else protocol.rollBack rest

/-- The attempts of an abandoned removal: those that had not come to an end fail for the reason it
was abandoned for. -/
def concluded (attempts : List Attempt) : Option Reason → List Attempt
  | none => attempts
  | some reason => attempts.map (Attempt.abort reason)

/-- Removes candidates, given in ordinal order. -/
def run (protocol : Protocol) (nodes : List BookieNode) : Program Summary := do
  let (attempts, abandoned) ← protocol.advance (nodes.map Attempt.ofNode)
  let attempts := concluded attempts abandoned
  protocol.rollBack attempts
  return .ofAttempts attempts abandoned

end Protocol
end SetScaler.Removal
