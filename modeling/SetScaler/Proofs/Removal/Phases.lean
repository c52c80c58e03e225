import SetScaler.Proofs.Run.Conversation
import SetScaler.Removal.Protocol

/-!
# The phases of a removal

What each loop of the removal protocol leaves behind: which commands it sent, in which order, with
which outputs, and how far that brought every candidate.
-/

namespace SetScaler

namespace Admin

/-- Whether an output is a state whose read-only flag is as asked for. -/
def reports (flag : Bool) (output : Output) : Bool :=
  match readState output with
  | .ok state => state.readOnly == flag
  | .error _ => false

theorem readSwitch_toBool (pod : String) (flag : Bool) (output : Output) :
    (readSwitch pod flag output).toBool = reports flag output := by
  unfold readSwitch reports
  cases readState output with
  | error failure => rfl
  | ok state =>
      by_cases same : state.readOnly = flag
      · simp [same, Except.toBool]
      · simp [same, Except.toBool]

end Admin

namespace Removal

namespace Protocol

variable (protocol : Protocol) (node : BookieNode)

def marking : BookieCommand := ⟨protocol.ns, node.pod, .setReadOnly true⟩

def clearing : BookieCommand := ⟨protocol.ns, node.pod, .setReadOnly false⟩

def recovering : BookieCommand := ⟨protocol.ns, node.pod, .recover node.bookieId⟩

def listing : BookieCommand := ⟨protocol.ns, node.pod, .listLedgers node.bookieId⟩

def deleting : BookieCommand := ⟨protocol.ns, node.pod, .deleteCookie node.bookieId⟩

def retiring : BookieCommand := ⟨protocol.ns, node.pod, .retireMarkers⟩

/-- The look at the replication of the whole cluster. -/
def surveying : BookieCommand := ⟨protocol.ns, protocol.queryPod, .listUnderReplicated⟩

end Protocol

namespace Attempt

/-- A candidate after the answer to its read-only request. -/
def ofMark (answer : BookieNode × Output) : Attempt :=
  ⟨answer.1, Progress.writable.afterReadOnly (Admin.reports true answer.2)⟩

/-- A recovered candidate after the look for ledgers left over. -/
def ofCheck (answer : BookieNode × Output) : Attempt :=
  ⟨answer.1, Progress.recovered.afterLedgerCheck (Admin.mayHold answer.2)⟩

end Attempt

namespace Protocol

variable {σ : Type} (protocol : Protocol) (backend : Backend σ) (cancellation : Cancellation)

theorem markAll_run (nodes : List BookieNode) (time : Nat) (state : σ) :
    ∃ answers trace finish state', answers.map Prod.fst = nodes ∧
      Asked protocol.marking time answers trace finish ∧
      (protocol.markAll (nodes.map .ofNode)).run backend cancellation time state =
        ⟨answers.map .ofMark, trace, finish, state'⟩ := by
  induction nodes generalizing time state with
  | nil => exact ⟨[], [], time, state, rfl, .nil time, rfl⟩
  | cons node rest ih =>
      obtain ⟨output, middle, between, later, ran⟩ := Program.run_execute_bind backend cancellation
        (protocol.marking node) (fun output =>
          (protocol.markAll (rest.map .ofNode)).bind fun rest =>
            .done (⟨node, Progress.writable.afterReadOnly
              (Admin.readSwitch node.pod true output).toBool⟩ :: rest)) time state
      obtain ⟨answers, trace, finish, state', listed, asked, rested⟩ := ih middle between
      refine ⟨(node, output) :: answers, _, finish, state', by simp [listed], .cons later asked,
        ran.trans ?_⟩
      simp [Program.run_bind, rested, Ended.after, Admin.readSwitch_toBool, Attempt.ofMark]

/-- Recovery goes through to the end, or up to the first candidate for which it does not. -/
theorem recoverAll_run (nodes : List BookieNode) (time : Nat) (state : σ) :
    (∃ trace finish state', Asks protocol.recovering Admin.saysRecovered time nodes trace finish ∧
      (protocol.recoverAll (nodes.map (⟨·, .markedReadOnly⟩))).run backend cancellation time state =
        ⟨(nodes.map (⟨·, .recovered⟩), false), trace, finish, state'⟩) ∨
    ∃ answers node output skipped trace finish state',
      nodes = answers.map Prod.fst ++ node :: skipped ∧
      (∀ answer ∈ answers, Admin.saysRecovered answer.2 = true) ∧ Admin.saysRecovered output = false ∧
      Asked protocol.recovering time (answers ++ [(node, output)]) trace finish ∧
      (protocol.recoverAll (nodes.map (⟨·, .markedReadOnly⟩))).run backend cancellation time state =
        ⟨(answers.map (⟨·.1, .recovered⟩) ++ ⟨node, .failed .recoveryFailed⟩ ::
            skipped.map (⟨·, .failed .recoverySkipped⟩), true), trace, finish, state'⟩ := by
  induction nodes generalizing time state with
  | nil => exact .inl ⟨[], time, state, ⟨[], rfl, by simp, .nil time⟩, rfl⟩
  | cons node rest ih =>
      obtain ⟨output, middle, between, later, ran⟩ := Program.run_execute_bind backend cancellation
        (protocol.recovering node) (fun output =>
          let attempt : Attempt :=
            ⟨node, Progress.markedReadOnly.afterRecovery (Admin.saysRecovered output)⟩
          if Admin.saysRecovered output then
            (protocol.recoverAll (rest.map (⟨·, .markedReadOnly⟩))).bind fun others =>
              .done (attempt :: others.1, others.2)
          else .done (attempt :: (rest.map (⟨·, .markedReadOnly⟩)).map (Attempt.abort .recoverySkipped),
            true)) time state
      cases said : Admin.saysRecovered output with
      | false =>
          refine .inr ⟨[], node, output, rest, _, middle, between, rfl, by simp, said,
            .cons later (.nil middle), ran.trans ?_⟩
          simp [said, Ended.after, Progress.afterRecovery, Attempt.abort, Progress.abort]
      | true =>
          rcases ih middle between with ⟨trace, finish, state', ⟨answers, listed, all, asked⟩, rested⟩ |
            ⟨answers, bad, refused, skipped, trace, finish, state', listed, all, failed, asked, rested⟩
          · refine .inl ⟨_, finish, state', ⟨(node, output) :: answers, by simp [listed], ?_,
              .cons later asked⟩, ran.trans ?_⟩
            · simpa [said] using all
            · simp [said, Program.run_bind, rested, Ended.after, Progress.afterRecovery]
          · refine .inr ⟨(node, output) :: answers, bad, refused, skipped, _, finish, state',
              by simp [listed], ?_, failed, .cons later asked, ran.trans ?_⟩
            · simpa [said] using all
            · simp [said, Program.run_bind, rested, Ended.after, Progress.afterRecovery]

theorem checkAll_run (nodes : List BookieNode) (time : Nat) (state : σ) :
    ∃ answers trace finish state', answers.map Prod.fst = nodes ∧
      Asked protocol.listing time answers trace finish ∧
      (protocol.checkAll (nodes.map (⟨·, .recovered⟩))).run backend cancellation time state =
        ⟨answers.map .ofCheck, trace, finish, state'⟩ := by
  induction nodes generalizing time state with
  | nil => exact ⟨[], [], time, state, rfl, .nil time, rfl⟩
  | cons node rest ih =>
      obtain ⟨output, middle, between, later, ran⟩ := Program.run_execute_bind backend cancellation
        (protocol.listing node) (fun output =>
          (protocol.checkAll (rest.map (⟨·, .recovered⟩))).bind fun rest =>
            .done (⟨node, Progress.recovered.afterLedgerCheck (Admin.mayHold output)⟩ :: rest))
        time state
      obtain ⟨answers, trace, finish, state', listed, asked, rested⟩ := ih middle between
      refine ⟨(node, output) :: answers, _, finish, state', by simp [listed], .cons later asked,
        ran.trans ?_⟩
      simp [Program.run_bind, rested, Ended.after, Attempt.ofCheck]

/-- Clearing goes on whatever comes of it, and passes over those that are gone. -/
theorem rollBack_run (attempts : List Attempt) (time : Nat) (state : σ) :
    ∃ answers trace finish state',
      answers.map Prod.fst =
        (attempts.filter fun attempt => attempt.progress.needsRollback).map Attempt.node ∧
      Asked protocol.clearing time answers trace finish ∧
      (protocol.rollBack attempts).run backend cancellation time state =
        ⟨(), trace, finish, state'⟩ := by
  induction attempts generalizing time state with
  | nil => exact ⟨[], [], time, state, rfl, .nil time, rfl⟩
  | cons attempt rest ih =>
      cases stays : attempt.progress.needsRollback with
      | false =>
          obtain ⟨answers, trace, finish, state', listed, asked, rested⟩ := ih time state
          refine ⟨answers, trace, finish, state', ?_, asked, ?_⟩
          · simpa [stays] using listed
          · simpa [rollBack, stays] using rested
      | true =>
          obtain ⟨output, middle, between, later, ran⟩ := Program.run_execute_bind backend cancellation
            (protocol.clearing attempt.node) (fun _ => protocol.rollBack rest) time state
          obtain ⟨answers, trace, finish, state', listed, asked, rested⟩ := ih middle between
          refine ⟨(attempt.node, output) :: answers, _, finish, state', ?_, .cons later asked, ?_⟩
          · simp [stays, listed]
          · rw [rested] at ran
            simpa [rollBack, stays, Admin.setReadOnly, Program.bind_assoc, clearing, Ended.after] using ran

end Protocol
end Removal
end SetScaler
