import SetScaler.Bookie.Disk

/-!
The progress of one bookie that is to be removed: from writable over read-only and recovered to the
deletion of its cookie, or to a failure. Both ends are final.
-/

namespace SetScaler.Removal

inductive Reason where
  | readOnlyRejected
  | recoveryFailed
  /-- The recovery of an earlier candidate failed first. -/
  | recoverySkipped
  | residualLedgers
  | replicationUnhealthy
  | cookieNotDeleted
  /-- A candidate of higher ordinal stays, so this one has to stay too. -/
  | blocked
  | cancelled
deriving DecidableEq, Repr

def Reason.name : Reason → String
  | readOnlyRejected => "ReadOnlyRejected"
  | recoveryFailed => "RecoveryFailed"
  | recoverySkipped => "RecoverySkipped"
  | residualLedgers => "ResidualLedgers"
  | replicationUnhealthy => "ReplicationUnhealthy"
  | cookieNotDeleted => "CookieNotDeleted"
  | blocked => "Blocked"
  | cancelled => "Cancelled"

def Reason.all : List Reason :=
  [readOnlyRejected, recoveryFailed, recoverySkipped, residualLedgers, replicationUnhealthy,
   cookieNotDeleted, blocked, cancelled]

def Reason.ofName? (name : String) : Option Reason := all.find? fun reason => reason.name == name

inductive Progress where
  | writable
  | markedReadOnly
  | recovered
  | cookieDeleted
  | failed (reason : Reason)
deriving DecidableEq, Repr

namespace Progress

def name : Progress → String
  | writable => "Writable"
  | markedReadOnly => "MarkedReadOnly"
  | recovered => "Recovered"
  | cookieDeleted => "CookieDeleted"
  | failed reason => "Failed:" ++ reason.name

def afterReadOnly : Progress → Bool → Progress
  | writable, true => markedReadOnly
  | writable, false => failed .readOnlyRejected
  | progress, _ => progress

def afterRecovery : Progress → Bool → Progress
  | markedReadOnly, true => recovered
  | markedReadOnly, false => failed .recoveryFailed
  | progress, _ => progress

/-- After a look for ledgers that the bookie may still hold. -/
def afterLedgerCheck : Progress → Bool → Progress
  | recovered, true => failed .residualLedgers
  | progress, _ => progress

def afterCookie : Progress → Bool → Progress
  | recovered, true => cookieDeleted
  | recovered, false => failed .cookieNotDeleted
  | progress, _ => progress

/-- Fails a candidate that has not come to an end. -/
def abort (progress : Progress) (reason : Reason) : Progress :=
  match progress with
  | cookieDeleted => cookieDeleted
  | failed earlier => failed earlier
  | _ => failed reason

/-- Every candidate that stays has its read-only flag cleared again: a rejected request may have
been carried out all the same. -/
def needsRollback (progress : Progress) : Bool := progress != cookieDeleted

end Progress

inductive Occurrence where
  | readOnly (accepted : Bool)
  | recovery (completed : Bool)
  | ledgerCheck (mayHold : Bool)
  | cookie (deleted : Bool)
  | abort (reason : Reason)
deriving DecidableEq, Repr

def Progress.step (progress : Progress) : Occurrence → Progress
  | .readOnly accepted => progress.afterReadOnly accepted
  | .recovery completed => progress.afterRecovery completed
  | .ledgerCheck mayHold => progress.afterLedgerCheck mayHold
  | .cookie deleted => progress.afterCookie deleted
  | .abort reason => progress.abort reason

/-- The bookies that a count lower by `count` drops: the last ones in ordinal order. -/
def candidates (nodes : List BookieNode) (count : Nat) : List BookieNode :=
  nodes.drop (nodes.length - count)

end SetScaler.Removal
