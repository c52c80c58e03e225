import SetScaler.Bookie.Report
import SetScaler.Run.Program
import SetScaler.Text.Search

/-!
Administration of bookies. The outcome of a command is read off its output alone: a marker that has
to be there, or markers that must not be. A command that could not be run never counts as the good
case.
-/

namespace SetScaler.Admin

/-- The only output that says that replication is healthy. -/
def healthyMarker : String := "No under replicated ledgers found"

/-- Printed when a recovery has re-replicated every ledger. -/
def recoveredMarker : String := "Recover bookie operation completed with rc : OK"

/-- Marks of ledgers in a listing, or of a listing that went wrong. -/
def residueMarkers : List String := ["ledgerID", "Exception", "ERROR"]

/-- Marks of a cookie that is gone, whether by this deletion or before. -/
def cookieGoneMarkers : List String := ["Deleted cookie", "NoNodeException", "cookie not found"]

/-- Printed once the version markers are out of the way. -/
def retiredMarker : String := "retired"

/-- Whether an output holds a marker; a failed command has no output. -/
def shows (marker : String) : Output → Bool
  | .ok output => Text.contains output marker
  | .error _ => false

def saysHealthy (output : Output) : Bool := shows healthyMarker output

def saysRecovered (output : Output) : Bool := shows recoveredMarker output

/-- Whether an output leaves it open that ledgers are still held; a failed command does. -/
def mayHold : Output → Bool
  | .ok output => residueMarkers.any fun marker => Text.contains output marker
  | .error _ => true

def saysCookieGone (output : Output) : Bool :=
  cookieGoneMarkers.any fun marker => shows marker output

def readState : Output → Except Failure BookieState
  | .error failure => .error failure
  | .ok output =>
    match BookieState.ofOutput? output with
    | some state => .ok state
    | none => .error (.unparsable "bookie state" "malformed")

def readInfo : Output → Except Failure BookieInfo
  | .error failure => .error failure
  | .ok output =>
    match BookieInfo.ofOutput? output with
    | some info => .ok info
    | none => .error (.unparsable "bookie info" "malformed")

/-- What the output of a read-only request comes to: the bookie has to report the flag that was
asked for. -/
def readSwitch (pod : String) (flag : Bool) (output : Output) : Except Failure Unit :=
  match readState output with
  | .error failure => .error failure
  | .ok state =>
    if state.readOnly = flag then .ok ()
    else .error (.exec pod ("bookie did not switch read-only to " ++ toString flag))

def readRetired (pod : String) : Output → Except Failure Unit
  | .error failure => .error failure
  | .ok output =>
    if Text.contains output retiredMarker then .ok ()
    else .error (.exec pod ("unexpected output: " ++ Text.trim output))

/-- The state of a bookie; a query that cancellation interrupts. -/
def state (ns pod : String) : Program (Except Failure BookieState) := do
  return readState (← Program.queryOne ⟨ns, pod, .state⟩)

/-- The disk space of a bookie; a query that cancellation interrupts. -/
def info (ns pod : String) : Program (Except Failure BookieInfo) := do
  return readInfo (← Program.queryOne ⟨ns, pod, .info⟩)

def setReadOnly (ns pod : String) (flag : Bool) : Program (Except Failure Unit) := do
  return readSwitch pod flag (← Program.execute ⟨ns, pod, .setReadOnly flag⟩)

def noUnderReplicated (ns pod : String) : Program Bool := do
  return saysHealthy (← Program.execute ⟨ns, pod, .listUnderReplicated⟩)

/-- Re-replicates every ledger of a bookie; whether that came to its end. -/
def recover (ns pod bookieId : String) : Program Bool := do
  return saysRecovered (← Program.execute ⟨ns, pod, .recover bookieId⟩)

def mayHoldLedgers (ns pod bookieId : String) : Program Bool := do
  return mayHold (← Program.execute ⟨ns, pod, .listLedgers bookieId⟩)

/-- Tries to delete a bookie's cookie so many times; whether it is gone. -/
def deleteCookieWithin (ns pod bookieId : String) : Nat → Program Bool
  | 0 => return false
  | attempts + 1 => do
    if saysCookieGone (← Program.execute ⟨ns, pod, .deleteCookie bookieId⟩) then return true
    else deleteCookieWithin ns pod bookieId attempts

/-- Deletes a bookie's cookie, with at least one attempt. -/
def deleteCookie (ns pod bookieId : String) (attempts : Nat) : Program Bool :=
  deleteCookieWithin ns pod bookieId (max attempts 1)

/-- Moves the version markers of a bookie's directories aside. -/
def retireMarkers (ns pod : String) : Program (Except Failure Unit) := do
  return readRetired pod (← Program.execute ⟨ns, pod, .retireMarkers⟩)

/-- Asks the auditor to check the placement of ledgers again. -/
def triggerAudit (ns pod : String) : Program (Except Failure Unit) := do
  match ← Program.execute ⟨ns, pod, .triggerAudit⟩ with
  | .ok _ => return .ok ()
  | .error failure => return .error failure

end SetScaler.Admin
