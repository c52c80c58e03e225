import SetScaler.Removal.Candidate

/-!
The outcome of a removal: how many candidates were asked for, how many are gone, and the change of
the replica count that follows from it.
-/

namespace SetScaler.Removal

structure Attempt where
  node : BookieNode
  progress : Progress
deriving DecidableEq, Repr

namespace Attempt

def ofNode (node : BookieNode) : Attempt := ⟨node, .writable⟩

def abort (reason : Reason) (attempt : Attempt) : Attempt :=
  { attempt with progress := attempt.progress.abort reason }

def isRemoved (attempt : Attempt) : Bool := attempt.progress == .cookieDeleted

def isFailed (attempt : Attempt) : Bool :=
  match attempt.progress with
  | .failed _ => true
  | _ => false

end Attempt

inductive Outcome where
  | complete
  /-- Only the candidates of highest ordinal were removed. -/
  | partially
  /-- No candidate was removed. -/
  | aborted (reason : Reason)
deriving DecidableEq, Repr

def Outcome.name : Outcome → String
  | complete => "Complete"
  | partially => "Partial"
  | aborted reason => "Aborted:" ++ reason.name

structure Summary where
  requested : Nat
  removed : Nat
  outcome : Outcome
  attempts : List Attempt
deriving DecidableEq, Repr

namespace Summary

/-- Sums up the attempts, given the reason for which the whole removal was abandoned, if it was. -/
def ofAttempts (attempts : List Attempt) (abandoned : Option Reason) : Summary :=
  let removed := attempts.countP Attempt.isRemoved
  let outcome : Outcome :=
    if removed = 0 then .aborted (abandoned.getD .blocked)
    else if removed = attempts.length then .complete
    else .partially
  ⟨attempts.length, removed, outcome, attempts⟩

/-- The change of the replica count: minus the number of removed bookies, none after an abort. -/
def delta (summary : Summary) : Int :=
  match summary.outcome with
  | .aborted _ => 0
  | .complete | .partially => -(min summary.removed summary.requested : Nat)

end Summary
end SetScaler.Removal
