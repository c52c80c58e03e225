import SetScaler.Proofs.Removal.Deletion
import SetScaler.Proofs.Run.Cancellation

/-!
# The course of a removal

A removal goes one of five ways (`Advance`), by the barrier that it stops at: a candidate does not
report the read-only flag, the wait is cancelled, a recovery does not come to its end, replication is
not healthy, or the cookies are deleted. After that every candidate that stays has its flag cleared
(`run_course`).
-/

namespace SetScaler

namespace Removal

/-- Every candidate reported the read-only flag, and the wait after that was not cancelled. -/
def Settled (protocol : Protocol) (cancellation : Cancellation) (nodes : List BookieNode)
    (start : Nat) (trace : Trace) (settled : Nat) : Prop :=
  ∃ marks ready, trace = marks ++ [.settled settled false] ∧
    Asks protocol.marking (Admin.reports true) start nodes marks ready ∧
    waitUntil cancellation ready protocol.settleMs = (settled, false)

/-- After that, the recovery of every candidate came to its end. -/
def Recovered (protocol : Protocol) (cancellation : Cancellation) (nodes : List BookieNode)
    (start : Nat) (trace : Trace) (finish : Nat) : Prop :=
  ∃ waited recoveries settled, trace = waited ++ recoveries ∧
    Settled protocol cancellation nodes start waited settled ∧
    Asks protocol.recovering Admin.saysRecovered settled nodes recoveries finish

/-- The ways of a removal up to the clearing of flags: its events from a time on and up to another,
how far the candidates have come, and the reason for which it was abandoned, if it was. -/
inductive Advance (protocol : Protocol) (cancellation : Cancellation) (nodes : List BookieNode)
    (start : Nat) : Trace → List Attempt → Option Reason → (finish : Nat) → Prop where
  | rejected {marked : List (BookieNode × Output)} {marks : Trace} {finish : Nat} :
      marked.map Prod.fst = nodes → Asked protocol.marking start marked marks finish →
      (∃ answer ∈ marked, Admin.reports true answer.2 = false) →
      Advance protocol cancellation nodes start marks (marked.map .ofMark) (some .readOnlyRejected)
        finish
  | cancelled {marks : Trace} {ready finish : Nat} :
      Asks protocol.marking (Admin.reports true) start nodes marks ready →
      waitUntil cancellation ready protocol.settleMs = (finish, true) →
      Advance protocol cancellation nodes start (marks ++ [.settled finish true])
        (nodes.map (⟨·, .markedReadOnly⟩)) (some .cancelled) finish
  | recoveryFailed {answers : List (BookieNode × Output)} {node : BookieNode} {output : Output}
      {skipped : List BookieNode} {waited recoveries : Trace} {settled finish : Nat} :
      Settled protocol cancellation nodes start waited settled →
      nodes = answers.map Prod.fst ++ node :: skipped →
      (∀ answer ∈ answers, Admin.saysRecovered answer.2 = true) →
      Admin.saysRecovered output = false →
      Asked protocol.recovering settled (answers ++ [(node, output)]) recoveries finish →
      Advance protocol cancellation nodes start (waited ++ recoveries)
        (answers.map (⟨·.1, .recovered⟩) ++
          ⟨node, .failed .recoveryFailed⟩ :: skipped.map (⟨·, .failed .recoverySkipped⟩))
        (some .recoveryFailed) finish
  | unhealthy {checked : List (BookieNode × Output)} {health : Output}
      {recovered checks look : Trace} {middle looked finish : Nat} :
      Recovered protocol cancellation nodes start recovered middle → checked.map Prod.fst = nodes →
      Asked protocol.listing middle checked checks looked →
      Asked id looked [(protocol.surveying, health)] look finish →
      Admin.saysHealthy health = false →
      Advance protocol cancellation nodes start (recovered ++ checks ++ look)
        (checked.map .ofCheck) (some .replicationUnhealthy) finish
  | deleted {checked : List (BookieNode × Output)} {health : Output}
      {recovered checks look deletions : Trace} {afters : List Attempt}
      {middle looked healthy finish : Nat} :
      Recovered protocol cancellation nodes start recovered middle → checked.map Prod.fst = nodes →
      Asked protocol.listing middle checked checks looked →
      Asked id looked [(protocol.surveying, health)] look healthy →
      Admin.saysHealthy health = true →
      Turns protocol healthy (checked.map .ofCheck) deletions afters finish →
      Advance protocol cancellation nodes start (recovered ++ checks ++ look ++ deletions) afters none
        finish

section Within

variable {protocol : Protocol} {cancellation : Cancellation} {nodes : List BookieNode}
  {request : Request → Prop} {kind : BookieCommand → Prop} {trace : Trace} {start finish : Nat}

theorem Settled.within (drives : ∀ node ∈ nodes, protocol.Drives kind node)
    (settled : Settled protocol cancellation nodes start trace finish) :
    ∀ event ∈ trace, event.Within request kind := by
  obtain ⟨marks, ready, rfl, ⟨answers, rfl, -, asked⟩, -⟩ := settled
  refine List.forall_mem_append.mpr ⟨asked.within fun answer mem => ?_, by simp [Event.Within]⟩
  exact (drives _ (List.mem_map_of_mem mem)).marking

theorem Recovered.within (drives : ∀ node ∈ nodes, protocol.Drives kind node)
    (recovered : Recovered protocol cancellation nodes start trace finish) :
    ∀ event ∈ trace, event.Within request kind := by
  obtain ⟨waited, recoveries, settled, rfl, before, ⟨answers, rfl, -, asked⟩⟩ := recovered
  refine List.forall_mem_append.mpr ⟨before.within drives, asked.within fun answer mem => ?_⟩
  exact (drives _ (List.mem_map_of_mem mem)).recovering

/-- A removal asks nothing of the API server, and tells nobody anything but the candidates, but for
the look at the replication of the whole cluster. -/
theorem Advance.within {attempts : List Attempt} {reason : Option Reason}
    (surveys : kind protocol.surveying) (drives : ∀ node ∈ nodes, protocol.Drives kind node)
    (advance : Advance protocol cancellation nodes start trace attempts reason finish) :
    ∀ event ∈ trace, event.Within request kind := by
  cases advance with
  | rejected listed asked =>
      subst listed
      exact asked.within fun answer mem => (drives _ (List.mem_map_of_mem mem)).marking
  | cancelled asks =>
      obtain ⟨answers, rfl, -, asked⟩ := asks
      refine List.forall_mem_append.mpr ⟨asked.within fun answer mem => ?_, by simp [Event.Within]⟩
      exact (drives _ (List.mem_map_of_mem mem)).marking
  | recoveryFailed before split _ _ asked =>
      refine List.forall_mem_append.mpr ⟨before.within drives, asked.within fun answer mem => ?_⟩
      have chosen : answer.1 ∈ nodes := by
        rcases List.mem_append.mp mem with mem | mem
        · exact split ▸ List.mem_append_left _ (List.mem_map_of_mem mem)
        · cases List.mem_singleton.mp mem
          exact split ▸ List.mem_append_right _ List.mem_cons_self
      exact (drives _ chosen).recovering
  | unhealthy before listed checks look =>
      refine List.forall_mem_append.mpr ⟨List.forall_mem_append.mpr
        ⟨before.within drives, checks.within fun answer mem => ?_⟩, look.within (by simpa using surveys)⟩
      exact (drives _ (listed ▸ List.mem_map_of_mem mem)).listing
  | deleted before listed checks look _ turns =>
      refine List.forall_mem_append.mpr ⟨List.forall_mem_append.mpr ⟨List.forall_mem_append.mpr
        ⟨before.within drives, checks.within fun answer mem => ?_⟩,
        look.within (by simpa using surveys)⟩, turns.within ?_⟩
      · exact (drives _ (listed ▸ List.mem_map_of_mem mem)).listing
      · exact List.forall_mem_map.mpr fun answer mem => drives _ (listed ▸ List.mem_map_of_mem mem)

end Within

namespace Attempt

theorem isRemoved_ofCheck (answer : BookieNode × Output) : (ofCheck answer).isRemoved = false := by
  cases held : Admin.mayHold answer.2 <;>
    simp [ofCheck, held, Progress.afterLedgerCheck, isRemoved]

theorem isFailed_ofMark (answer : BookieNode × Output) :
    (ofMark answer).isFailed = !Admin.reports true answer.2 := by
  cases said : Admin.reports true answer.2 <;> simp [ofMark, said, Progress.afterReadOnly, isFailed]

end Attempt

namespace Protocol

variable {σ : Type} (protocol : Protocol) (backend : Backend σ) (cancellation : Cancellation)

/-- What follows the wait, given how the run got there. -/
theorem clear_run {nodes : List BookieNode} {start settled : Nat} {waited : Trace}
    (before : Settled protocol cancellation nodes start waited settled) (state : σ) :
    ∃ trace attempts reason finish tail state', waited ++ tail = trace ∧
      Advance protocol cancellation nodes start trace attempts reason finish ∧
      (protocol.clear (nodes.map (⟨·, .markedReadOnly⟩))).run backend cancellation settled state =
        ⟨(attempts, reason), tail, finish, state'⟩ := by
  rcases protocol.recoverAll_run backend cancellation nodes settled state with
    ⟨recoveries, middle, between, all, recovered⟩ |
    ⟨answers, node, output, skipped, recoveries, finish, state', split, all, failed, asked, recovered⟩
  · obtain ⟨checked, checks, looked, next, listed, checking, checkedRun⟩ :=
      protocol.checkAll_run backend cancellation nodes middle between
    let judged (health : Output) : Program (List Attempt × Option Reason) :=
      if Admin.saysHealthy health then
        (protocol.deleteAll (checked.map .ofCheck)).bind fun afters => .done (afters.1, none)
      else .done (checked.map .ofCheck, some .replicationUnhealthy)
    obtain ⟨health, healthy, last, later, surveyed⟩ := Program.run_execute_bind backend cancellation
      protocol.surveying judged looked next
    have recoveredAll : Recovered protocol cancellation nodes start (waited ++ recoveries) middle :=
      ⟨waited, recoveries, settled, rfl, before, all⟩
    let look : Trace := [.sent looked protocol.surveying, .answered healthy protocol.surveying health]
    have looking : Asked id looked [(protocol.surveying, health)] look healthy :=
      .cons later (.nil healthy)
    have opened : (protocol.clear (nodes.map (⟨·, .markedReadOnly⟩))).run backend cancellation settled
        state = Ended.after recoveries (Ended.after checks (Program.run backend cancellation
          ((Program.execute protocol.surveying).bind judged) looked next)) := by
      rw [clear, Program.bind_eq, Program.run_bind, recovered]
      simp only [Bool.false_eq_true, if_false]
      rw [Program.bind_eq, Program.run_bind, checkedRun]
      rfl
    cases said : Admin.saysHealthy health with
    | false =>
        refine ⟨_, _, _, healthy, recoveries ++ checks ++ look, last, by simp only [List.append_assoc],
          .unhealthy recoveredAll listed checking looking said, ?_⟩
        rw [opened, surveyed]
        simp [judged, said, look, Ended.after]
    | true =>
        obtain ⟨afters, deletions, finish, state', turns, deleted⟩ :=
          protocol.deleteAll_run backend cancellation (checked.map .ofCheck)
            (List.forall_mem_map.mpr fun answer _ => Attempt.isRemoved_ofCheck answer) healthy last
        refine ⟨_, afters, none, finish, recoveries ++ checks ++ look ++ deletions, state',
          by simp only [List.append_assoc], .deleted recoveredAll listed checking looking said turns, ?_⟩
        rw [opened, surveyed]
        simp [judged, said, Program.run_bind, deleted, look, Ended.after]
  · refine ⟨_, _, _, finish, recoveries, state', rfl, .recoveryFailed before split all failed asked, ?_⟩
    rw [clear, Program.bind_eq, Program.run_bind, recovered]
    simp [Ended.after]

theorem advance_run (nodes : List BookieNode) (time : Nat) (state : σ) :
    ∃ trace attempts reason finish state',
      Advance protocol cancellation nodes time trace attempts reason finish ∧
      (protocol.advance (nodes.map .ofNode)).run backend cancellation time state =
        ⟨(attempts, reason), trace, finish, state'⟩ := by
  obtain ⟨marked, marks, ready, between, listed, marking, marks_run⟩ :=
    protocol.markAll_run backend cancellation nodes time state
  have opened : (protocol.advance (nodes.map .ofNode)).run backend cancellation time state =
      Ended.after marks (Program.run backend cancellation
        (if (marked.map Attempt.ofMark).any Attempt.isFailed then
          .done (marked.map .ofMark, some .readOnlyRejected)
        else .settle protocol.settleMs fun cancelled =>
          if cancelled then .done (marked.map .ofMark, some .cancelled)
          else protocol.clear (marked.map .ofMark)) ready between) := by
    rw [advance, Program.bind_eq, Program.run_bind, marks_run]
    rfl
  by_cases refused : ∃ answer ∈ marked, Admin.reports true answer.2 = false
  · refine ⟨marks, _, _, ready, between, .rejected listed marking refused, ?_⟩
    rw [opened, if_pos (by simpa [Attempt.isFailed_ofMark] using refused)]
    simp [Ended.after]
  · have accepted : ∀ answer ∈ marked, Admin.reports true answer.2 = true := by
      simpa using refused
    have all : Asks protocol.marking (Admin.reports true) time nodes marks ready :=
      ⟨marked, listed, accepted, marking⟩
    have progress : marked.map Attempt.ofMark = nodes.map (⟨·, .markedReadOnly⟩) := by
      rw [← listed, List.map_map]
      refine List.map_congr_left fun answer mem => ?_
      simp [Attempt.ofMark, accepted answer mem, Progress.afterReadOnly]
    rw [opened, if_neg (by simpa [Attempt.isFailed_ofMark] using accepted), progress]
    rcases waited : waitUntil cancellation ready protocol.settleMs with ⟨settled, cancelled⟩
    cases cancelled with
    | true =>
        refine ⟨_, _, _, settled, between, .cancelled all waited, ?_⟩
        simp [Program.run, waited, Ended.after]
    | false =>
        obtain ⟨trace, attempts, reason, finish, tail, state', rfl, advanced, cleared⟩ :=
          protocol.clear_run backend cancellation ⟨marks, ready, rfl, all, waited⟩ between
        refine ⟨_, attempts, reason, finish, state', advanced, ?_⟩
        simp [Program.run, waited, cleared, Ended.after]

/-- A removal goes one of its ways, and then clears the flag of every candidate that stays. -/
theorem run_course (nodes : List BookieNode) (time : Nat) (state : σ) :
    ∃ trace attempts reason middle cleared clears finish state',
      Advance protocol cancellation nodes time trace attempts reason middle ∧
      cleared.map Prod.fst = ((concluded attempts reason).filter fun attempt =>
        attempt.progress.needsRollback).map Attempt.node ∧
      Asked protocol.clearing middle cleared clears finish ∧
      (protocol.run nodes).run backend cancellation time state =
        ⟨.ofAttempts (concluded attempts reason) reason, trace ++ clears, finish, state'⟩ := by
  obtain ⟨trace, attempts, reason, middle, between, advanced, advance_run⟩ :=
    protocol.advance_run backend cancellation nodes time state
  obtain ⟨cleared, clears, finish, state', listed, asked, rolled⟩ :=
    protocol.rollBack_run backend cancellation (concluded attempts reason) middle between
  refine ⟨trace, attempts, reason, middle, cleared, clears, finish, state', advanced, listed, asked, ?_⟩
  rw [run, Program.bind_eq, Program.run_bind, advance_run]
  simp [Program.run_bind, rolled, Ended.after]

end Protocol
end Removal
end SetScaler
