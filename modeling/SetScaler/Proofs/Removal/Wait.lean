import SetScaler.Proofs.Removal.Phases
import SetScaler.Proofs.Run.Cancellation

/-!
# The wait of a removal

A removal hears of a cancellation only while it waits. Before the wait is over it sends nothing but
requests to set or clear a read-only flag (`run_heeds`).
-/

namespace SetScaler

/-- Whether an action is left to what follows the wait of a removal. -/
def BookieAction.followsWait : BookieAction → Bool
  | recover _ | listLedgers _ | deleteCookie _ | retireMarkers => true
  | state | info | setReadOnly _ | listUnderReplicated | triggerAudit => false

/-- A command that may be sent before the wait is over. -/
abbrev BookieCommand.Early (command : BookieCommand) : Prop := command.action.followsWait = false

namespace Removal.Protocol

variable {request : Request → Prop} (protocol : Protocol)

theorem markAll_deaf (attempts : List Attempt) :
    (protocol.markAll attempts).Deaf request BookieCommand.Early := by
  induction attempts with
  | nil => trivial
  | cons attempt rest ih => exact ⟨rfl, fun _ => ih.bind fun _ => trivial⟩

theorem rollBack_deaf (attempts : List Attempt) :
    (protocol.rollBack attempts).Deaf request BookieCommand.Early := by
  induction attempts with
  | nil => trivial
  | cons attempt rest ih =>
      unfold rollBack
      split
      · exact ⟨rfl, fun _ => ih⟩
      · exact ih

theorem recoverAll_deaf (attempts : List Attempt) :
    (protocol.recoverAll attempts).Deaf request fun _ => True := by
  induction attempts with
  | nil => trivial
  | cons attempt rest ih =>
      refine ⟨trivial, fun output => ?_⟩
      change Program.Deaf _ _ (if Admin.saysRecovered output = true then _ else _)
      split
      · exact ih.bind fun _ => trivial
      · trivial

theorem checkAll_deaf (attempts : List Attempt) :
    (protocol.checkAll attempts).Deaf request fun _ => True := by
  induction attempts with
  | nil => trivial
  | cons attempt rest ih => exact ⟨trivial, fun _ => ih.bind fun _ => trivial⟩

theorem deleteCookieWithin_deaf (ns pod bookieId : String) (tries : Nat) :
    (Admin.deleteCookieWithin ns pod bookieId tries).Deaf request fun _ => True := by
  induction tries with
  | zero => trivial
  | succ tries ih =>
      refine ⟨trivial, fun output => ?_⟩
      change Program.Deaf _ _ (if Admin.saysCookieGone output = true then _ else _)
      split
      · trivial
      · exact ih

theorem deleteOne_deaf (attempt : Attempt) :
    (protocol.deleteOne attempt).Deaf request fun _ => True := by
  refine ⟨trivial, fun ledgers => ?_⟩
  change Program.Deaf _ _ (if attempt.progress.afterLedgerCheck (Admin.mayHold ledgers) ≠ .recovered
    then _ else _)
  split
  · trivial
  · refine (deleteCookieWithin_deaf _ _ _ _).bind fun deleted => ?_
    cases deleted with
    | true => exact ⟨trivial, fun _ => trivial⟩
    | false => trivial

theorem deleteAll_deaf (attempts : List Attempt) :
    (protocol.deleteAll attempts).Deaf request fun _ => True := by
  induction attempts with
  | nil => trivial
  | cons attempt rest ih =>
      refine ih.bind fun result => ?_
      change Program.Deaf _ _ (if (result.2 || attempt.progress != .recovered) = true then _ else _)
      split
      · trivial
      · exact (protocol.deleteOne_deaf attempt).bind fun _ => trivial

theorem clear_deaf (attempts : List Attempt) : (protocol.clear attempts).Deaf request fun _ => True := by
  refine (protocol.recoverAll_deaf attempts).bind fun recovered => ?_
  change Program.Deaf _ _ (if recovered.2 = true then _ else _)
  split
  · trivial
  · refine (protocol.checkAll_deaf recovered.1).bind fun checked => ⟨trivial, fun health => ?_⟩
    change Program.Deaf _ _ (if Admin.saysHealthy health = true then _ else _)
    split
    · exact (protocol.deleteAll_deaf checked).bind fun _ => trivial
    · trivial

theorem advance_heeds (attempts : List Attempt) :
    (protocol.advance attempts).Heeds request BookieCommand.Early := by
  refine (protocol.markAll_deaf attempts).waitless.bind_heeds fun marked => ?_
  split
  · trivial
  · exact ⟨trivial, protocol.clear_deaf marked⟩

theorem run_heeds (nodes : List BookieNode) : (protocol.run nodes).Heeds request BookieCommand.Early :=
  (protocol.advance_heeds _).bind fun _ => (protocol.rollBack_deaf _).bind fun _ => trivial

end Removal.Protocol
end SetScaler
