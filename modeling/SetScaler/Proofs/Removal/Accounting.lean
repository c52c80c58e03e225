import SetScaler.Proofs.Removal.Course

/-!
# What a removal accounts for

The candidates that count as removed are the last ones, and they are those whose deletion a bookie
confirmed; the summary counts them and nothing else (`run_accounts`).
-/

namespace SetScaler

def BookieAction.isDeletion : BookieAction → Bool
  | deleteCookie _ => true
  | _ => false

/-- The tries to delete a cookie that came back, with their outputs. -/
def Trace.deletions (trace : Trace) : List (BookieCommand × Output) :=
  trace.answers.filter fun answer => answer.1.action.isDeletion

@[simp]
theorem Trace.deletions_append (first second : Trace) :
    (first ++ second).deletions = first.deletions ++ second.deletions := by
  simp [deletions]

theorem Asked.deletions_eq_nil {ι : Type} {command : ι → BookieCommand} {answers : List (ι × Output)}
    {trace : Trace} {start finish : Nat} (asked : Asked command start answers trace finish)
    (other : ∀ answer ∈ answers, (command answer.1).action.isDeletion = false) :
    trace.deletions = [] := by
  rw [Trace.deletions, asked.trace_answers, List.filter_eq_nil_iff]
  intro answer mem
  obtain ⟨answer, listed, rfl⟩ := List.mem_map.mp mem
  simp [other answer listed]

theorem Asked.deletions_eq {ι : Type} {command : ι → BookieCommand} {answers : List (ι × Output)}
    {trace : Trace} {start finish : Nat} (asked : Asked command start answers trace finish)
    (all : ∀ item, (command item).action.isDeletion = true) :
    trace.deletions = answers.map fun answer => (command answer.1, answer.2) := by
  rw [Trace.deletions, asked.trace_answers, List.filter_eq_self]
  intro answer mem
  obtain ⟨item, -, rfl⟩ := List.mem_map.mp mem
  exact all item.1

/-- Every command that a part of a trace sends is answered in it, and in the same order. -/
def Trace.Paired (trace : Trace) : Prop := trace.sends = trace.answers.map Prod.fst

theorem Trace.Paired.append {first second : Trace} (head : first.Paired) (tail : second.Paired) :
    (first ++ second).Paired := by
  simp only [Paired, sends_append, answers_append, List.map_append] at *
  rw [head, tail]

theorem Trace.Paired.filter_sends {trace : Trace} (paired : trace.Paired) :
    trace.sends.filter (fun command => command.action.isDeletion) = trace.deletions.map Prod.fst := by
  rw [paired, Trace.deletions, List.filter_map]
  rfl

theorem Asked.paired {ι : Type} {command : ι → BookieCommand} {answers : List (ι × Output)}
    {trace : Trace} {start finish : Nat} (asked : Asked command start answers trace finish) :
    trace.Paired := by
  rw [Trace.Paired, asked.trace_sends, asked.trace_answers, List.map_map]
  rfl

namespace Removal

namespace Progress

/-- Whether a candidate has come to an end. -/
def isFinal : Progress → Bool
  | cookieDeleted | failed _ => true
  | writable | markedReadOnly | recovered => false

theorem isFinal_abort (progress : Progress) (reason : Reason) :
    (progress.abort reason).isFinal = true := by
  cases progress <;> rfl

end Progress

/-- The outputs of the tries to delete the cookie of a candidate: not too many, none after one that
is confirmed, and one is confirmed just when the candidate counts as removed. -/
def Tried (protocol : Protocol) (attempt : Attempt) (outputs : List Output) : Prop :=
  outputs.length ≤ max 1 protocol.cookieAttempts ∧
    (∀ output ∈ outputs.dropLast, Admin.saysCookieGone output = false) ∧
    (attempt.isRemoved = true ↔ ∃ output ∈ outputs, Admin.saysCookieGone output = true)

theorem Tried.none (protocol : Protocol) {attempt : Attempt} (stays : attempt.isRemoved = false) :
    Tried protocol attempt [] := by
  simp [Tried, stays]

namespace Turn

variable {protocol : Protocol} {free : Bool} {attempt after : Attempt} {trace : Trace}
  {start finish : Nat}

theorem tried (turn : Turn protocol free start attempt trace after finish)
    (untouched : attempt.isRemoved = false) :
    ∃ outputs, trace.deletions = outputs.map (protocol.deleting after.node, ·) ∧
      Tried protocol after outputs := by
  cases turn with
  | passed skipped =>
      exact ⟨[], rfl, .none protocol ((Attempt.isRemoved_abort _ _).trans untouched)⟩
  | holding looked held => exact ⟨[], looked.deletions_eq_nil fun _ _ => rfl, .none protocol rfl⟩
  | @unconfirmed node listed refusals looked tried start middle finish look clean try_ all many =>
      refine ⟨refusals, ?_, ?_, ?_, ?_⟩
      · rw [Trace.deletions_append, look.deletions_eq_nil fun _ _ => rfl,
          try_.deletions_eq fun _ => rfl]
        simp
      · omega
      · exact fun output mem => all output (List.dropLast_subset _ mem)
      · simpa [Attempt.isRemoved] using all
  | @removed node listed confirmed moved refusals looked tried retired start middle gone finish look
      clean try_ all said few retire =>
      refine ⟨refusals ++ [confirmed], ?_, ?_, ?_, ?_⟩
      · rw [Trace.deletions_append, Trace.deletions_append, look.deletions_eq_nil fun _ _ => rfl,
          try_.deletions_eq fun _ => rfl, retire.deletions_eq_nil fun _ _ => rfl]
        simp
      · simp only [List.length_append, List.length_cons, List.length_nil]
        omega
      · simpa using all
      · simp [Attempt.isRemoved, said]

theorem isFinal (turn : Turn protocol free start attempt trace after finish) :
    after.progress.isFinal = true := by
  cases turn with
  | passed skipped => exact attempt.progress.isFinal_abort _
  | holding | unconfirmed | removed => rfl

theorem paired (turn : Turn protocol free start attempt trace after finish) : trace.Paired := by
  cases turn with
  | passed skipped => rfl
  | holding looked held => exact looked.paired
  | unconfirmed looked held tried => exact looked.paired.append tried.paired
  | removed looked held tried all said few retired =>
      exact (looked.paired.append tried.paired).append retired.paired

end Turn

namespace Turns

variable {protocol : Protocol} {attempts afters : List Attempt} {trace : Trace} {start finish : Nat}

theorem tried (turns : Turns protocol start attempts trace afters finish)
    (untouched : ∀ attempt ∈ attempts, attempt.isRemoved = false) :
    ∃ tries : List (Attempt × List Output), tries.map Prod.fst = afters ∧
      trace.deletions =
        tries.reverse.flatMap (fun each => each.2.map (protocol.deleting each.1.node, ·)) ∧
      ∀ each ∈ tries, Tried protocol each.1 each.2 := by
  induction turns with
  | nil => exact ⟨[], rfl, rfl, by simp⟩
  | @cons attempt after rest rested above own start middle finish _ turn ih =>
      obtain ⟨tries, rfl, deleted, all⟩ := ih fun other mem => untouched other (.tail _ mem)
      obtain ⟨outputs, here, tried⟩ := turn.tried (untouched attempt List.mem_cons_self)
      refine ⟨(after, outputs) :: tries, rfl, ?_, ?_⟩
      · simp [deleted, here]
      · simpa using ⟨tried, by simpa using all⟩

theorem isFinal (turns : Turns protocol start attempts trace afters finish) :
    ∀ attempt ∈ afters, attempt.progress.isFinal = true := by
  induction turns with
  | nil => simp
  | cons _ turn ih => simpa [turn.isFinal] using ih

theorem paired (turns : Turns protocol start attempts trace afters finish) : trace.Paired := by
  induction turns with
  | nil => rfl
  | cons _ turn ih => exact ih.append turn.paired

end Turns

theorem Settled.deletions_eq_nil {protocol : Protocol} {cancellation : Cancellation}
    {nodes : List BookieNode} {start settled : Nat} {trace : Trace}
    (before : Settled protocol cancellation nodes start trace settled) : trace.deletions = [] := by
  obtain ⟨marks, ready, rfl, ⟨answers, -, -, asked⟩, -⟩ := before
  rw [Trace.deletions_append, asked.deletions_eq_nil fun _ _ => rfl]
  rfl

theorem Settled.paired {protocol : Protocol} {cancellation : Cancellation}
    {nodes : List BookieNode} {start settled : Nat} {trace : Trace}
    (before : Settled protocol cancellation nodes start trace settled) : trace.Paired := by
  obtain ⟨marks, ready, rfl, ⟨answers, -, -, asked⟩, -⟩ := before
  exact asked.paired.append rfl

theorem Recovered.deletions_eq_nil {protocol : Protocol} {cancellation : Cancellation}
    {nodes : List BookieNode} {start finish : Nat} {trace : Trace}
    (before : Recovered protocol cancellation nodes start trace finish) : trace.deletions = [] := by
  obtain ⟨waited, recoveries, settled, rfl, before, ⟨answers, -, -, asked⟩⟩ := before
  rw [Trace.deletions_append, before.deletions_eq_nil, asked.deletions_eq_nil fun _ _ => rfl]
  rfl

theorem Recovered.paired {protocol : Protocol} {cancellation : Cancellation}
    {nodes : List BookieNode} {start finish : Nat} {trace : Trace}
    (before : Recovered protocol cancellation nodes start trace finish) : trace.Paired := by
  obtain ⟨waited, recoveries, settled, rfl, before, ⟨answers, -, -, asked⟩⟩ := before
  exact before.paired.append asked.paired

namespace Advance

variable {protocol : Protocol} {cancellation : Cancellation} {nodes : List BookieNode}
  {start finish : Nat} {trace : Trace} {attempts : List Attempt} {reason : Option Reason}

theorem map_node (advance : Advance protocol cancellation nodes start trace attempts reason finish) :
    attempts.map Attempt.node = nodes := by
  cases advance with
  | rejected listed => simpa [Attempt.ofMark, Function.comp_def] using listed
  | cancelled => simp [Function.comp_def]
  | recoveryFailed _ split => simp [split, Function.comp_def]
  | unhealthy _ listed => simpa [Attempt.ofCheck, Function.comp_def] using listed
  | deleted _ listed _ _ _ turns =>
      rw [turns.map_node]
      simpa [Attempt.ofCheck, Function.comp_def] using listed

theorem paired (advance : Advance protocol cancellation nodes start trace attempts reason finish) :
    trace.Paired := by
  cases advance with
  | rejected _ asked => exact asked.paired
  | cancelled asks =>
      obtain ⟨answers, -, -, asked⟩ := asks
      exact asked.paired.append rfl
  | recoveryFailed before _ _ _ asked => exact before.paired.append asked.paired
  | unhealthy before _ checks look => exact (before.paired.append checks.paired).append look.paired
  | deleted before _ checks look _ turns =>
      exact ((before.paired.append checks.paired).append look.paired).append turns.paired

/-- A removal that is abandoned has tried no deletion. -/
theorem untried_of_abandoned (advance : Advance protocol cancellation nodes start trace attempts reason
    finish) (abandoned : reason ≠ none) :
    trace.deletions = [] ∧ ∀ attempt ∈ attempts, attempt.isRemoved = false := by
  cases advance with
  | rejected _ asked =>
      refine ⟨asked.deletions_eq_nil fun _ _ => rfl, List.forall_mem_map.mpr fun answer _ => ?_⟩
      cases said : Admin.reports true answer.2 <;>
        simp [Attempt.ofMark, said, Progress.afterReadOnly, Attempt.isRemoved]
  | cancelled asks =>
      obtain ⟨answers, -, -, asked⟩ := asks
      refine ⟨?_, List.forall_mem_map.mpr fun _ _ => rfl⟩
      rw [Trace.deletions_append, asked.deletions_eq_nil fun _ _ => rfl]
      rfl
  | recoveryFailed before _ _ _ asked =>
      refine ⟨?_, ?_⟩
      · rw [Trace.deletions_append, before.deletions_eq_nil, asked.deletions_eq_nil fun _ _ => rfl]
        rfl
      · exact List.forall_mem_append.mpr ⟨List.forall_mem_map.mpr fun _ _ => rfl,
          List.forall_mem_cons.mpr ⟨rfl, List.forall_mem_map.mpr fun _ _ => rfl⟩⟩
  | unhealthy before _ checks look =>
      refine ⟨?_, List.forall_mem_map.mpr fun answer _ => Attempt.isRemoved_ofCheck answer⟩
      rw [Trace.deletions_append, Trace.deletions_append, before.deletions_eq_nil,
        checks.deletions_eq_nil fun _ _ => rfl,
        look.deletions_eq_nil fun answer mem => by cases List.mem_singleton.mp mem; rfl]
      rfl
  | deleted => exact absurd rfl abandoned

theorem isFinal (advance : Advance protocol cancellation nodes start trace attempts reason finish) :
    ∀ attempt ∈ Protocol.concluded attempts reason, attempt.progress.isFinal = true := by
  cases reason with
  | some reason => exact List.forall_mem_map.mpr fun attempt _ => attempt.progress.isFinal_abort reason
  | none =>
      cases advance with
      | deleted _ _ _ _ _ turns => exact turns.isFinal

theorem concluded_map_node
    (advance : Advance protocol cancellation nodes start trace attempts reason finish) :
    (Protocol.concluded attempts reason).map Attempt.node = nodes := by
  rw [← advance.map_node]
  cases reason with
  | none => rfl
  | some why => simp [Protocol.concluded, Attempt.abort, Function.comp_def]

/-- After an abandoned removal every candidate stays. -/
theorem stays_of_abandoned {why : Reason}
    (advance : Advance protocol cancellation nodes start trace attempts (some why) finish) :
    ∀ attempt ∈ Protocol.concluded attempts (some why), attempt.isRemoved = false := by
  refine List.forall_mem_map.mpr fun attempt mem => ?_
  rw [Attempt.isRemoved_abort]
  exact (advance.untried_of_abandoned (by simp)).2 attempt mem

theorem removed_suffix
    (advance : Advance protocol cancellation nodes start trace attempts reason finish) :
    ∃ kept gone, Protocol.concluded attempts reason = kept ++ gone ∧
      (∀ attempt ∈ kept, attempt.isRemoved = false) ∧ ∀ attempt ∈ gone, attempt.isRemoved = true := by
  cases reason with
  | some why => exact ⟨_, [], (List.append_nil _).symm, advance.stays_of_abandoned, by simp⟩
  | none =>
      cases advance with
      | deleted _ _ _ _ _ turns =>
          exact turns.removed_suffix
            (List.forall_mem_map.mpr fun answer _ => Attempt.isRemoved_ofCheck answer)

theorem tried (advance : Advance protocol cancellation nodes start trace attempts reason finish) :
    ∃ tries : List (Attempt × List Output),
      tries.map Prod.fst = Protocol.concluded attempts reason ∧
      trace.deletions =
        tries.reverse.flatMap (fun each => each.2.map (protocol.deleting each.1.node, ·)) ∧
      ∀ each ∈ tries, Tried protocol each.1 each.2 := by
  cases reason with
  | some why =>
      refine ⟨(Protocol.concluded attempts (some why)).map (·, []), by simp [Function.comp_def], ?_, ?_⟩
      · rw [(advance.untried_of_abandoned (by simp)).1]
        simp
      · exact List.forall_mem_map.mpr fun attempt mem =>
          .none protocol (advance.stays_of_abandoned attempt mem)
  | none =>
      cases advance with
      | deleted before _ checks look _ turns =>
          obtain ⟨tries, listed, deleted, all⟩ := turns.tried
            (List.forall_mem_map.mpr fun answer _ => Attempt.isRemoved_ofCheck answer)
          refine ⟨tries, listed, ?_, all⟩
          rw [← deleted, Trace.deletions_append, Trace.deletions_append, Trace.deletions_append,
            before.deletions_eq_nil, checks.deletions_eq_nil fun _ _ => rfl,
            look.deletions_eq_nil fun answer mem => by cases List.mem_singleton.mp mem; rfl]
          rfl

end Advance

end Removal

/-- Whether an event makes the whole removal be abandoned before any cookie is deleted. -/
def Event.abandons : Event → Bool
  | .answered _ ⟨_, _, .setReadOnly true⟩ output => !Admin.reports true output
  | .answered _ ⟨_, _, .recover _⟩ output => !Admin.saysRecovered output
  | .answered _ ⟨_, _, .listUnderReplicated⟩ output => !Admin.saysHealthy output
  | .settled _ cancelled => cancelled
  | _ => false

theorem Asked.not_abandons {ι : Type} {command : ι → BookieCommand} {answers : List (ι × Output)}
    {trace : Trace} {start finish : Nat} (asked : Asked command start answers trace finish)
    (fine : ∀ answer ∈ answers, ∀ time,
      (Event.answered time (command answer.1) answer.2).abandons = false) :
    ∀ event ∈ trace, event.abandons = false := by
  intro event mem
  obtain ⟨answer, listed, ⟨time, rfl⟩ | ⟨time, rfl⟩⟩ := asked.mem_cases mem
  · rfl
  · exact fine answer listed time

namespace Removal

theorem Turn.not_abandons {protocol : Protocol} {free : Bool} {attempt after : Attempt}
    {trace : Trace} {start finish : Nat}
    (turn : Turn protocol free start attempt trace after finish) :
    ∀ event ∈ trace, event.abandons = false := by
  cases turn with
  | passed => simp
  | holding looked => exact looked.not_abandons fun _ _ _ => rfl
  | unconfirmed looked _ tried =>
      exact List.forall_mem_append.mpr
        ⟨looked.not_abandons fun _ _ _ => rfl, tried.not_abandons fun _ _ _ => rfl⟩
  | removed looked _ tried _ _ _ retired =>
      exact List.forall_mem_append.mpr ⟨List.forall_mem_append.mpr
        ⟨looked.not_abandons fun _ _ _ => rfl, tried.not_abandons fun _ _ _ => rfl⟩,
        retired.not_abandons fun _ _ _ => rfl⟩

theorem Turns.not_abandons {protocol : Protocol} {attempts afters : List Attempt} {trace : Trace}
    {start finish : Nat} (turns : Turns protocol start attempts trace afters finish) :
    ∀ event ∈ trace, event.abandons = false := by
  induction turns with
  | nil => simp
  | cons _ turn ih => exact List.forall_mem_append.mpr ⟨ih, turn.not_abandons⟩

theorem Recovered.not_abandons {protocol : Protocol} {cancellation : Cancellation}
    {nodes : List BookieNode} {start finish : Nat} {trace : Trace}
    (before : Recovered protocol cancellation nodes start trace finish) :
    ∀ event ∈ trace, event.abandons = false := by
  obtain ⟨waited, recoveries, settled, rfl, ⟨marks, ready, rfl, marked, -⟩, recovered⟩ := before
  obtain ⟨marks', -, accepted, marking⟩ := marked
  obtain ⟨recoveries', -, complete, recovering⟩ := recovered
  refine List.forall_mem_append.mpr ⟨List.forall_mem_append.mpr ⟨?_, by simp [Event.abandons]⟩, ?_⟩
  · refine marking.not_abandons fun answer mem time => ?_
    simp [Event.abandons, Protocol.marking, accepted answer mem]
  · refine recovering.not_abandons fun answer mem time => ?_
    simp [Event.abandons, Protocol.recovering, complete answer mem]

/-- A removal that is not abandoned has met nothing that would have it abandoned. -/
theorem Advance.not_abandons {protocol : Protocol} {cancellation : Cancellation}
    {nodes : List BookieNode} {start finish : Nat} {trace : Trace} {attempts : List Attempt}
    (advance : Advance protocol cancellation nodes start trace attempts none finish) :
    ∀ event ∈ trace, event.abandons = false := by
  cases advance with
  | deleted before _ checks look healthy turns =>
      refine List.forall_mem_append.mpr ⟨List.forall_mem_append.mpr ⟨List.forall_mem_append.mpr
        ⟨before.not_abandons, checks.not_abandons fun _ _ _ => rfl⟩, ?_⟩, turns.not_abandons⟩
      refine look.not_abandons fun answer mem time => ?_
      cases List.mem_singleton.mp mem
      simp [Event.abandons, Protocol.surveying, healthy]

namespace Summary

theorem removed_le_requested (attempts : List Attempt) (abandoned : Option Reason) :
    (ofAttempts attempts abandoned).removed ≤ (ofAttempts attempts abandoned).requested :=
  List.countP_le_length

/-- How a removal of `requested` candidates ended of which `removed` are gone. -/
theorem outcome_cases (attempts : List Attempt) (abandoned : Option Reason) :
    ((ofAttempts attempts abandoned).removed = 0 ∧
        ∃ reason, (ofAttempts attempts abandoned).outcome = .aborted reason) ∨
      (0 < (ofAttempts attempts abandoned).removed ∧
        (ofAttempts attempts abandoned).removed = (ofAttempts attempts abandoned).requested ∧
        (ofAttempts attempts abandoned).outcome = .complete) ∨
      (0 < (ofAttempts attempts abandoned).removed ∧
        (ofAttempts attempts abandoned).removed < (ofAttempts attempts abandoned).requested ∧
        (ofAttempts attempts abandoned).outcome = .partially) := by
  have bound : attempts.countP Attempt.isRemoved ≤ attempts.length := List.countP_le_length
  by_cases zero : attempts.countP Attempt.isRemoved = 0
  · exact .inl ⟨zero, _, if_pos zero⟩
  · by_cases all : attempts.countP Attempt.isRemoved = attempts.length
    · exact .inr (.inl ⟨Nat.pos_of_ne_zero zero, all, (if_neg zero).trans (if_pos all)⟩)
    · exact .inr (.inr ⟨Nat.pos_of_ne_zero zero, Nat.lt_of_le_of_ne bound all,
        (if_neg zero).trans (if_neg all)⟩)

theorem delta_ofAttempts (attempts : List Attempt) (abandoned : Option Reason) :
    (ofAttempts attempts abandoned).delta = -((ofAttempts attempts abandoned).removed : Int) := by
  unfold delta
  rcases outcome_cases attempts abandoned with ⟨zero, reason, ended⟩ | ⟨-, all, ended⟩ | ⟨-, few, ended⟩
  · simp [ended, zero]
  · simp [ended, all]
  · simp only [ended, Nat.min_eq_left (Nat.le_of_lt few)]

theorem complete_iff (attempts : List Attempt) (abandoned : Option Reason) :
    (ofAttempts attempts abandoned).outcome = .complete ↔
      (ofAttempts attempts abandoned).removed = (ofAttempts attempts abandoned).requested ∧
        0 < (ofAttempts attempts abandoned).requested := by
  rcases outcome_cases attempts abandoned with ⟨zero, reason, ended⟩ | ⟨some, all, ended⟩ | ⟨-, few, ended⟩
  · simp only [ended, reduceCtorEq, false_iff]
    omega
  · simp only [ended, true_iff]
    omega
  · simp only [ended, reduceCtorEq, false_iff]
    omega

theorem partially_iff (attempts : List Attempt) (abandoned : Option Reason) :
    (ofAttempts attempts abandoned).outcome = .partially ↔
      0 < (ofAttempts attempts abandoned).removed ∧
        (ofAttempts attempts abandoned).removed < (ofAttempts attempts abandoned).requested := by
  rcases outcome_cases attempts abandoned with ⟨zero, reason, ended⟩ | ⟨-, all, ended⟩ | ⟨some, few, ended⟩
  · simp only [ended, reduceCtorEq, false_iff]
    omega
  · simp only [ended, reduceCtorEq, false_iff]
    omega
  · simp only [ended, true_iff]
    exact ⟨some, few⟩

theorem aborted_iff (attempts : List Attempt) (abandoned : Option Reason) :
    (∃ reason, (ofAttempts attempts abandoned).outcome = .aborted reason) ↔
      (ofAttempts attempts abandoned).removed = 0 := by
  rcases outcome_cases attempts abandoned with ⟨zero, reason, ended⟩ | ⟨some, -, ended⟩ | ⟨some, -, ended⟩
  · exact ⟨fun _ => zero, fun _ => ⟨reason, ended⟩⟩
  · simp [ended, Nat.ne_of_gt some]
  · simp [ended, Nat.ne_of_gt some]

end Summary

/-- What the trace and the summary of a removal have to do with each other. -/
structure Accounts (protocol : Protocol) (nodes : List BookieNode) (trace : Trace)
    (summary : Summary) : Prop where
  candidates : summary.attempts.map Attempt.node = nodes
  final : ∀ attempt ∈ summary.attempts, attempt.progress.isFinal = true
  suffix : ∃ kept gone, summary.attempts = kept ++ gone ∧
    (∀ attempt ∈ kept, attempt.isRemoved = false) ∧ ∀ attempt ∈ gone, attempt.isRemoved = true
  /-- The last candidate is tried first, and the tries of one come together. -/
  tried : ∃ tries : List (Attempt × List Output), tries.map Prod.fst = summary.attempts ∧
    trace.deletions =
      tries.reverse.flatMap (fun each => each.2.map (protocol.deleting each.1.node, ·)) ∧
    ∀ each ∈ tries, Tried protocol each.1 each.2
  sent : trace.sends.filter (fun command => command.action.isDeletion) = trace.deletions.map Prod.fst
  requested : summary.requested = nodes.length
  removed : summary.removed = summary.attempts.countP Attempt.isRemoved
  delta : summary.delta = -(summary.removed : Int)
  complete : summary.outcome = .complete ↔ summary.removed = summary.requested ∧ 0 < summary.requested
  partially : summary.outcome = .partially ↔
    0 < summary.removed ∧ summary.removed < summary.requested
  aborted : (∃ reason, summary.outcome = .aborted reason) ↔
    ¬(summary.removed = summary.requested ∧ 0 < summary.requested) ∧
      ¬(0 < summary.removed ∧ summary.removed < summary.requested)
  abandoned : (∃ event ∈ trace, event.abandons = true) → summary.removed = 0

/-- Every removal accounts for what it did, whatever the bookies answer and whenever it is
cancelled. -/
theorem run_accounts {σ : Type} (protocol : Protocol) (backend : Backend σ)
    (cancellation : Cancellation) (nodes : List BookieNode) (time : Nat) (state : σ) :
    Accounts protocol nodes
      ((protocol.run nodes).run backend cancellation time state).trace
      ((protocol.run nodes).run backend cancellation time state).result := by
  obtain ⟨trace, attempts, reason, middle, cleared, clears, finish, state', advance, listed, clearing,
    ran⟩ := protocol.run_course backend cancellation nodes time state
  rw [ran]
  have tail : (trace ++ clears).deletions = trace.deletions := by
    rw [Trace.deletions_append, clearing.deletions_eq_nil fun _ _ => rfl, List.append_nil]
  have listed := advance.concluded_map_node
  have total : (Protocol.concluded attempts reason).length = nodes.length := by
    rw [← listed, List.length_map]
  have counted := Summary.removed_le_requested (Protocol.concluded attempts reason) reason
  have aborts := Summary.aborted_iff (Protocol.concluded attempts reason) reason
  exact {
    candidates := listed
    final := advance.isFinal
    suffix := advance.removed_suffix
    tried := tail ▸ advance.tried
    sent := (advance.paired.append clearing.paired).filter_sends
    requested := total
    removed := rfl
    delta := Summary.delta_ofAttempts _ _
    complete := Summary.complete_iff _ _
    partially := Summary.partially_iff _ _
    aborted := by
      dsimp only
      rw [aborts]
      omega
    abandoned := by
      rintro ⟨event, mem, abandons⟩
      cases reason with
      | some why => exact List.countP_eq_zero.mpr (by simpa using advance.stays_of_abandoned)
      | none =>
          rcases List.mem_append.mp mem with mem | mem
          · rw [advance.not_abandons event mem] at abandons
            cases abandons
          · rw [clearing.not_abandons (fun _ _ _ => rfl) event mem] at abandons
            cases abandons }

end Removal
end SetScaler
