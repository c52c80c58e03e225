import Mathlib.Data.List.Nodup
import SetScaler.Proofs.Removal.Accounting

/-!
# What a removal takes back

However a removal ends, its last commands clear the read-only flags of the candidates that stay, one
candidate after the other in their order. No flag is cleared before that, and none of a candidate
that is gone (`run_rolls_back`).
-/

namespace SetScaler.Removal

/-- A candidate that has come to an end is gone or has failed for a reason. -/
theorem Progress.cases_of_isFinal {progress : Progress} (final : progress.isFinal = true) :
    progress = .cookieDeleted ∨ ∃ reason, progress = .failed reason := by
  cases progress with
  | cookieDeleted => exact .inl rfl
  | failed reason => exact .inr ⟨reason, rfl⟩
  | writable | markedReadOnly | recovered => cases final

/-- Up to the end of the deletions no flag is cleared. -/
theorem Advance.clears_nothing {protocol : Protocol} {cancellation : Cancellation}
    {nodes : List BookieNode} {start finish : Nat} {trace : Trace} {attempts : List Attempt}
    {reason : Option Reason}
    (advance : Advance protocol cancellation nodes start trace attempts reason finish) :
    ∀ command ∈ trace.sends, command.action ≠ .setReadOnly false := by
  have drives (node : BookieNode) :
      protocol.Drives (fun command => command.action ≠ .setReadOnly false) node := by
    constructor <;> simp [Protocol.marking, Protocol.recovering, Protocol.listing, Protocol.deleting,
      Protocol.retiring]
  have others : ∀ event ∈ trace,
      event.Within (fun _ => True) fun command => command.action ≠ .setReadOnly false :=
    advance.within (by simp [Protocol.surveying]) fun node _ => drives node
  intro command mem
  obtain ⟨time, sent⟩ := Trace.mem_sends.mp mem
  exact others _ sent

/-- The candidates that stay, in their order. -/
def Summary.staying (summary : Summary) : List BookieNode :=
  (summary.attempts.filter fun attempt => !attempt.isRemoved).map Attempt.node

/-- Among candidates in different pods, the flag of each one that stays is to be cleared once. -/
theorem Summary.count_clearing (summary : Summary) (protocol : Protocol)
    (distinct : (summary.attempts.map fun attempt => attempt.node.pod).Nodup) {attempt : Attempt}
    (mem : attempt ∈ summary.attempts) :
    (summary.staying.map protocol.clearing).count (protocol.clearing attempt.node) =
      if attempt.isRemoved then 0 else 1 := by
  have same {other : Attempt} (listed : other ∈ summary.attempts)
      (equal : protocol.clearing other.node = protocol.clearing attempt.node) : other = attempt :=
    List.inj_on_of_nodup_map distinct listed mem (congrArg BookieCommand.pod equal)
  cases gone : attempt.isRemoved with
  | true =>
      refine List.count_eq_zero.mpr fun cleared => ?_
      obtain ⟨node, stays, equal⟩ := List.mem_map.mp cleared
      obtain ⟨other, kept, rfl⟩ := List.mem_map.mp stays
      obtain ⟨listed, left⟩ := List.mem_filter.mp kept
      rw [same listed equal, gone] at left
      cases left
  | false =>
      have pods : (summary.staying.map protocol.clearing).map BookieCommand.pod =
          (summary.attempts.filter fun attempt => !attempt.isRemoved).map
            fun attempt => attempt.node.pod := by
        simp [staying, Protocol.clearing, Function.comp_def]
      have once : (summary.staying.map protocol.clearing).Nodup := by
        refine List.Nodup.of_map BookieCommand.pod ?_
        rw [pods]
        exact distinct.sublist (List.filter_sublist.map _)
      refine List.count_eq_one_of_mem once (List.mem_map_of_mem (List.mem_map_of_mem ?_))
      exact List.mem_filter.mpr ⟨mem, by simp [gone]⟩

/-- How a removal leaves the flags of its candidates. -/
structure RolledBack (protocol : Protocol) (nodes : List BookieNode) (trace : Trace)
    (summary : Summary) : Prop where
  candidates : summary.attempts.map Attempt.node = nodes
  /-- Whatever way a candidate went, it is gone or it has failed. -/
  ends : ∀ attempt ∈ summary.attempts,
    attempt.progress = .cookieDeleted ∨ ∃ reason, attempt.progress = .failed reason
  /-- A removal that was given up before any deletion leaves all of its candidates. -/
  abandoned : (∃ event ∈ trace, event.abandons = true) → summary.staying = nodes
  /-- All other commands come first, each of them answered, and none of them clears a flag. Then the
  flag of every candidate that stays is cleared, whatever the outputs are. -/
  last : ∃ earlier clears cleared middle finish, trace = earlier ++ clears ∧ earlier.Paired ∧
    (∀ command ∈ earlier.sends, command.action ≠ .setReadOnly false) ∧
    cleared.map Prod.fst = summary.staying ∧
    Asked protocol.clearing middle cleared clears finish
  /-- So, where no two candidates share a pod, one that stays has its flag cleared once, and one that
  is gone never. -/
  once : (nodes.map BookieNode.pod).Nodup → ∀ attempt ∈ summary.attempts,
    trace.sends.count (protocol.clearing attempt.node) = if attempt.isRemoved then 0 else 1

theorem staying_of_stays {attempts : List Attempt} {nodes : List BookieNode} {reason : Option Reason}
    (listed : attempts.map Attempt.node = nodes) (stay : ∀ attempt ∈ attempts, attempt.isRemoved = false) :
    (Summary.ofAttempts attempts reason).staying = nodes := by
  have kept : attempts.filter (fun attempt => !attempt.isRemoved) = attempts :=
    List.filter_eq_self.mpr fun attempt mem => by simp [stay attempt mem]
  change (attempts.filter fun attempt => !attempt.isRemoved).map Attempt.node = nodes
  rw [kept, listed]

/-- However a removal goes, it clears the flag of every candidate that stays, at its very end, and of
no other one. -/
theorem run_rolls_back {σ : Type} (protocol : Protocol) (backend : Backend σ)
    (cancellation : Cancellation) (nodes : List BookieNode) (time : Nat) (state : σ) :
    RolledBack protocol nodes
      ((protocol.run nodes).run backend cancellation time state).trace
      ((protocol.run nodes).run backend cancellation time state).result := by
  obtain ⟨trace, attempts, reason, middle, cleared, clears, finish, state', advance, stays, clearing,
    ran⟩ := protocol.run_course backend cancellation nodes time state
  rw [ran]
  have listed := advance.concluded_map_node
  exact {
    candidates := listed
    ends := fun attempt mem => Progress.cases_of_isFinal (advance.isFinal attempt mem)
    abandoned := by
      rintro ⟨event, mem, abandons⟩
      cases reason with
      | some why => exact staying_of_stays listed advance.stays_of_abandoned
      | none =>
          rcases List.mem_append.mp mem with mem | mem
          · rw [advance.not_abandons event mem] at abandons
            cases abandons
          · rw [clearing.not_abandons (fun _ _ _ => rfl) event mem] at abandons
            cases abandons
    last := ⟨trace, clears, cleared, middle, finish, rfl, advance.paired, advance.clears_nothing, stays,
      clearing⟩
    once := fun distinct attempt mem => by
      have unsent : protocol.clearing attempt.node ∉ trace.sends :=
        fun sent => advance.clears_nothing _ sent rfl
      have commands : clears.sends =
          (Summary.ofAttempts (Protocol.concluded attempts reason) reason).staying.map
            protocol.clearing := by
        have named := congrArg (List.map protocol.clearing) stays
        rw [List.map_map] at named
        exact clearing.trace_sends.trans named
      rw [Trace.sends_append, List.count_append, List.count_eq_zero.mpr unsent, commands, Nat.zero_add]
      refine Summary.count_clearing _ protocol ?_ mem
      rw [← listed, List.map_map] at distinct
      exact distinct }

end SetScaler.Removal
