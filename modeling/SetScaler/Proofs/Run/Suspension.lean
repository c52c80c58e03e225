import SetScaler.Proofs.Run.Answering
import SetScaler.Proofs.Run.Cancellation
import SetScaler.Run.Suspension

/-!
# Runs that are put down

A run that is put down waits for something that is still to come (`Program.proceed_later`), and each time it is
taken up with something to go on with, fewer commands are left to answer (`Row.advanceAll_lt`).
-/

namespace SetScaler

variable {σ : Type} (backend : Backend σ) (time : Nat)

namespace Row

/-- A row with no command in flight has none left to send. -/
def Sent (row : Row) : Prop := row.inFlight = none → row.waiting = []

theorem send_sent (outputs : List Output) (commands : List BookieCommand) (state : σ) :
    (send backend time outputs commands state).1.Sent ∧
      (send backend time outputs commands state).1.pending ≤ commands.length := by
  induction commands generalizing outputs state with
  | nil => exact ⟨fun _ => rfl, Nat.le_refl _⟩
  | cons first rest ih =>
      unfold send
      dsimp only
      split
      · obtain ⟨sent, fewer⟩ := ih (outputs ++ [(backend.output first time state).1.2])
          (backend.output first time state).2
        exact ⟨sent, Nat.le_succ_of_le fewer⟩
      · refine ⟨fun unsent => ?_, Nat.le_of_eq (Nat.add_comm _ _)⟩
        cases unsent

theorem advance_sent (row : Row) (state : σ) :
    (row.advance backend time state).1.Sent ∧ (row.advance backend time state).1.pending ≤ row.pending := by
  unfold advance
  split
  · rename_i unsent
    obtain ⟨sent, fewer⟩ := send_sent backend time row.outputs row.waiting state
    exact ⟨sent, Nat.le_trans fewer (Nat.le_add_left _ _)⟩
  · rename_i flight flying
    split
    · obtain ⟨sent, fewer⟩ := send_sent backend time (row.outputs ++ [flight.output]) row.waiting state
      exact ⟨sent, Nat.le_trans fewer (Nat.le_add_left _ _)⟩
    · refine ⟨fun unsent => ?_, Nat.le_refl _⟩
      cases flying.symm.trans unsent

/-- A command that answers is no longer pending. -/
theorem advance_lt {row : Row} {flight : InFlight} (flying : row.inFlight = some flight)
    (answers : flight.due ≤ time) (state : σ) :
    (row.advance backend time state).1.pending < row.pending := by
  have fewer := (send_sent backend time (row.outputs ++ [flight.output]) row.waiting state).2
  simp only [advance, flying, answers, if_true]
  refine Nat.lt_of_le_of_lt fewer ?_
  simp [pending, flying]

theorem advance_early {row : Row} (sent : row.Sent) (ahead : row.Ahead time) (state : σ) :
    row.advance backend time state = (row, [], state) := by
  obtain ⟨outputs, flight, waiting⟩ := row
  cases flight with
  | none =>
      obtain rfl : waiting = [] := sent rfl
      rfl
  | some flight => exact if_neg (Nat.not_le_of_lt (ahead flight rfl))

/-- The number of commands of several rows that have not answered. -/
def pendingOf : List Row → Nat
  | [] => 0
  | row :: rest => row.pending + pendingOf rest

theorem advanceAll_sent (rows : List Row) (state : σ) :
    (∀ row ∈ (advanceAll backend time rows state).1, row.Sent) ∧
      pendingOf (advanceAll backend time rows state).1 ≤ pendingOf rows := by
  induction rows generalizing state with
  | nil => exact ⟨nofun, Nat.le_refl _⟩
  | cons row rest ih =>
      obtain ⟨sent, fewer⟩ := row.advance_sent backend time state
      obtain ⟨others, fewers⟩ := ih (row.advance backend time state).2.2
      exact ⟨List.forall_mem_cons.mpr ⟨sent, others⟩, Nat.add_le_add fewer fewers⟩

theorem advanceAll_lt {rows : List Row} {row : Row} {flight : InFlight} (listed : row ∈ rows)
    (flying : row.inFlight = some flight) (answers : flight.due ≤ time) (state : σ) :
    pendingOf (advanceAll backend time rows state).1 < pendingOf rows := by
  induction rows generalizing state with
  | nil => cases listed
  | cons first rest ih =>
      rcases List.mem_cons.mp listed with rfl | listed
      · exact Nat.add_lt_add_of_lt_of_le (advance_lt backend time flying answers state)
          (advanceAll_sent backend time rest _).2
      · exact Nat.add_lt_add_of_le_of_lt (first.advance_sent backend time state).2 (ih listed _)

theorem advanceAll_early {rows : List Row} (sent : ∀ row ∈ rows, row.Sent)
    (ahead : ∀ row ∈ rows, row.Ahead time) (state : σ) :
    advanceAll backend time rows state = (rows, [], state) := by
  induction rows with
  | nil => rfl
  | cons row rest ih =>
      obtain ⟨first, others⟩ := List.forall_mem_cons.mp sent
      obtain ⟨early, later⟩ := List.forall_mem_cons.mp ahead
      simp only [advanceAll, row.advance_early backend time first early, ih others later, List.append_nil]

theorem allOver_cancelAll (rows : List Row) : allOver (cancelAll time rows).1 = true := by
  simp [allOver, cancelAll, cancel, isOver]

/-- While rows are not over, one of them has a command in flight. -/
theorem nextDue?_of_sent {rows : List Row} (sent : ∀ row ∈ rows, row.Sent) (left : allOver rows = false) :
    ∃ due, nextDue? rows = some due := by
  cases next : nextDue? rows with
  | some due => exact ⟨due, rfl⟩
  | none =>
      have whole : allOver rows = true := by
        refine List.all_eq_true.mpr fun row listed => ?_
        have unsent := nextDue?_eq_none next row listed
        simp [isOver, unsent, sent row listed unsent]
      cases left.symm.trans whole

end Row

variable {α : Type} (cancelled : Bool)

/-- Rows that are taken up are over, and the run goes on with their outputs, or they have been advanced as far as
it goes. -/
theorem Suspension.resume_querying (rows : List Row) (next : List (List Output) → Program α) (state : σ) :
    (∃ outputs later, ((querying rows next).resume backend time cancelled state).1 =
      ((next outputs).proceed backend time cancelled later).1) ∨
    ((querying rows next).resume backend time cancelled state).1 =
        .querying (Row.advanceAll backend time rows state).1 next ∧
      Row.allOver (Row.advanceAll backend time rows state).1 = false := by
  cases cancelled with
  | true =>
      have whole := Row.allOver_cancelAll time rows
      refine .inl ⟨Row.outputsOf (Row.cancelAll time rows).1, state, ?_⟩
      simp only [resume, if_true, whole]
  | false =>
      cases whole : Row.allOver (Row.advanceAll backend time rows state).1 with
      | true =>
          refine .inl ⟨Row.outputsOf (Row.advanceAll backend time rows state).1,
            (Row.advanceAll backend time rows state).2.2, ?_⟩
          simp only [resume, Bool.false_eq_true, if_false, whole, if_true]
      | false => exact .inr ⟨by simp only [resume, Bool.false_eq_true, if_false, whole], rfl⟩

/-- A query is taken up as soon as it is met. -/
theorem Program.proceed_query (rows : List (List BookieCommand)) (next : List (List Output) → Program α)
    (state : σ) : (query rows next).proceed backend time cancelled state =
      (Suspension.querying (rows.map Row.ofCommands) next).resume backend time cancelled state :=
  rfl

/-- A run that is put down waits for something that is still to come. -/
theorem Program.proceed_later (program : Program α) (state : σ) {due : Nat}
    (waits : (program.proceed backend time cancelled state).1.due? = some due) : time < due := by
  induction program generalizing state with
  | done result => cases waits
  | call request next ih => exact ih _ _ waits
  | exec command next ih =>
      simp only [proceed] at waits
      split at waits
      · exact ih _ _ waits
      · rename_i lasts
        obtain rfl := Option.some.inj waits
        exact Nat.lt_add_of_pos_right (Nat.pos_of_ne_zero lasts)
  | query rows next ih =>
      rw [proceed_query] at waits
      rcases Suspension.resume_querying backend time cancelled (rows.map Row.ofCommands) next state with
        ⟨outputs, later, same⟩ | ⟨same, -⟩
      · exact ih outputs later (same ▸ waits)
      · rw [same] at waits
        exact Row.lt_of_nextDue time (Row.advanceAll_ahead backend time _ state).1 waits
  | settle delayMs next ih =>
      simp only [proceed] at waits
      split at waits
      · exact ih _ _ waits
      · rename_i lasts
        obtain rfl := Option.some.inj waits
        rw [Bool.or_eq_true, not_or, decide_eq_true_eq] at lasts
        exact Nat.lt_add_of_pos_right (Nat.pos_of_ne_zero lasts.2)
  | look next ih => exact ih _ _ waits

theorem Suspension.resume_later (suspension : Suspension α) (state : σ) {due : Nat}
    (waits : (suspension.resume backend time cancelled state).1.due? = some due) : time < due := by
  cases suspension with
  | done result => cases waits
  | executing flight next =>
      simp only [resume] at waits
      split at waits
      · exact Program.proceed_later backend time cancelled _ _ waits
      · rename_i early
        obtain rfl := Option.some.inj waits
        exact Nat.lt_of_not_le early
  | querying rows next =>
      rcases Suspension.resume_querying backend time cancelled rows next state with
        ⟨outputs, later, same⟩ | ⟨same, -⟩
      · exact Program.proceed_later backend time cancelled _ later (same ▸ waits)
      · rw [same] at waits
        exact Row.lt_of_nextDue time (Row.advanceAll_ahead backend time _ state).1 waits
  | settling later next =>
      simp only [resume] at waits
      split at waits
      · exact Program.proceed_later backend time cancelled _ _ waits
      · rename_i early
        obtain rfl := Option.some.inj waits
        rw [Bool.or_eq_true, not_or, decide_eq_true_eq] at early
        exact Nat.lt_of_not_le early.2

end SetScaler
