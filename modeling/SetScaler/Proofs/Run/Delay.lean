import SetScaler.Proofs.Run.Cancellation

/-!
# Runs that begin later

Where a backend's answers depend on nothing but what it is asked (`Backend.Constant`), an uncancelled run that
begins later goes the same way, with all of its events later by as much (`Program.run_later`).
-/

namespace SetScaler

/-- The answers of a backend depend on nothing but the arguments of a call. -/
structure Backend.Constant {σ : Type} (backend : Backend σ) : Prop where
  reply : ∀ request time time' state state',
    (backend.reply request time state).1 = (backend.reply request time' state').1
  output : ∀ command time time' state state',
    (backend.output command time state).1 = (backend.output command time' state').1

def Event.later (delay : Nat) : Event → Event
  | called time request reply => called (time + delay) request reply
  | sent time command => sent (time + delay) command
  | answered time command output => answered (time + delay) command output
  | settled time cancelled => settled (time + delay) cancelled

/-- The same events, all of them later by as much. -/
def Trace.later (delay : Nat) (trace : Trace) : Trace := trace.map (Event.later delay)

@[simp]
theorem Trace.later_nil (delay : Nat) : Trace.later delay [] = [] := rfl

@[simp]
theorem Trace.later_cons (delay : Nat) (event : Event) (trace : Trace) :
    Trace.later delay (event :: trace) = event.later delay :: trace.later delay :=
  rfl

@[simp]
theorem Trace.later_append (delay : Nat) (first second : Trace) :
    Trace.later delay (first ++ second) = first.later delay ++ second.later delay :=
  List.map_append

namespace Row

def later (delay : Nat) (row : Row) : Row :=
  { row with inFlight := row.inFlight.map fun flight => { flight with due := flight.due + delay } }

variable {σ : Type} {backend : Backend σ} (constant : backend.Constant) (delay time : Nat)
include constant

theorem send_later (outputs : List Output) (commands : List BookieCommand) (state state' : σ) :
    (send backend (time + delay) outputs commands state').1 =
        (send backend time outputs commands state).1.later delay ∧
      (send backend (time + delay) outputs commands state').2.1 =
        Trace.later delay (send backend time outputs commands state).2.1 := by
  induction commands generalizing outputs state state' with
  | nil => exact ⟨rfl, rfl⟩
  | cons command rest ih =>
      have same := constant.output command (time + delay) time state' state
      simp only [send, same]
      split
      · obtain ⟨row, trace⟩ := ih (outputs ++ [(backend.output command time state).1.2])
          (backend.output command time state).2 (backend.output command (time + delay) state').2
        exact ⟨row, by rw [trace]; rfl⟩
      · refine ⟨?_, rfl⟩
        simp only [later, Option.map_some]
        rw [Nat.add_right_comm]

theorem advance_later (row : Row) (state state' : σ) :
    ((row.later delay).advance backend (time + delay) state').1 =
        (row.advance backend time state).1.later delay ∧
      ((row.later delay).advance backend (time + delay) state').2.1 =
        Trace.later delay (row.advance backend time state).2.1 := by
  obtain ⟨outputs, flight, waiting⟩ := row
  cases flight with
  | none => exact send_later constant delay time outputs waiting state state'
  | some flight =>
      by_cases passed : flight.due ≤ time
      · obtain ⟨row, trace⟩ := send_later constant delay time (outputs ++ [flight.output]) waiting state state'
        simp only [later, Option.map_some, advance, passed, if_true, Nat.add_le_add_iff_right]
        exact ⟨row, by rw [trace]; rfl⟩
      · simp only [later, Option.map_some, advance, passed, if_false, Nat.add_le_add_iff_right]
        exact ⟨trivial, rfl⟩

theorem advanceAll_later (rows : List Row) (state state' : σ) :
    (advanceAll backend (time + delay) (rows.map (later delay)) state').1 =
        (advanceAll backend time rows state).1.map (later delay) ∧
      (advanceAll backend (time + delay) (rows.map (later delay)) state').2.1 =
        Trace.later delay (advanceAll backend time rows state).2.1 := by
  induction rows generalizing state state' with
  | nil => exact ⟨rfl, rfl⟩
  | cons row rest ih =>
      obtain ⟨first, events⟩ := advance_later constant delay time row state state'
      obtain ⟨others, more⟩ := ih (row.advance backend time state).2.2
        ((row.later delay).advance backend (time + delay) state').2.2
      simp only [List.map_cons, advanceAll, first, others, events, more, Trace.later_append, and_self]

omit constant in
theorem nextDue?_later (rows : List Row) :
    nextDue? (rows.map (later delay)) = (nextDue? rows).map (· + delay) := by
  have dues : (rows.map (later delay)).filterMap due? = (rows.filterMap due?).map (· + delay) := by
    rw [List.filterMap_map, List.map_filterMap]
    congr 1
    funext row
    simp [due?, later, Function.comp_def]
  unfold nextDue?
  rw [dues]
  cases least : (rows.filterMap due?).min? with
  | none =>
      rw [List.min?_eq_none_iff.mp least]
      rfl
  | some due =>
      obtain ⟨attained, bound⟩ := List.min?_eq_some_iff.mp least
      refine List.min?_eq_some_iff.mpr ⟨List.mem_map_of_mem attained, ?_⟩
      exact List.forall_mem_map.mpr fun other among => Nat.add_le_add_right (bound other among) delay

end Row

section Later

variable {σ : Type} {backend : Backend σ}

/-- Two runs of which the second goes as the first, but later. -/
structure Ended.Later {α : Type} (delay : Nat) (ended late : Ended σ α) : Prop where
  result : late.result = ended.result
  trace : late.trace = ended.trace.later delay
  time : late.time = ended.time + delay

theorem Ended.Later.after {α : Type} {delay : Nat} {ended late : Ended σ α} (later : Ended.Later delay ended late)
    (events : Trace) : Ended.Later delay (ended.after events) (late.after (events.later delay)) where
  result := later.result
  trace := by simp [later.trace]
  time := later.time

variable (constant : backend.Constant) (delay : Nat)
include constant

theorem runRows_later (rounds time : Nat) (rows : List Row) (state state' : σ) :
    let ended := runRows backend none rounds time rows state
    let late := runRows backend none rounds (time + delay) (rows.map (Row.later delay)) state'
    late.result = ended.result.map (Row.later delay) ∧ late.trace = ended.trace.later delay ∧
      late.time = ended.time + delay := by
  induction rounds generalizing time rows state state' with
  | zero => exact ⟨rfl, rfl, rfl⟩
  | succ rounds ih =>
      have unfired (instant : Nat) : Cancellation.firedBy none instant = false := rfl
      obtain ⟨round, events⟩ := Row.advanceAll_later constant delay time rows state state'
      have next := Row.nextDue?_later delay (Row.advanceAll backend time rows state).1
      rw [← round] at next
      -- either both of the rounds are the last, or the next instants lie `delay` apart
      rcases runRows_round backend none rounds rows state (unfired time) with ⟨last, ends⟩ | ⟨due, soon, goes⟩
      · rw [last] at next
        rcases runRows_round backend none rounds (rows.map (Row.later delay)) state' (unfired (time + delay)) with
          ⟨-, late⟩ | ⟨due, soon, -⟩
        · intro ended late_run
          simp only [ended, late_run, ends, late]
          exact ⟨round, events, trivial⟩
        · rw [next] at soon
          cases soon
      · rw [soon] at next
        rcases runRows_round backend none rounds (rows.map (Row.later delay)) state' (unfired (time + delay)) with
          ⟨last, -⟩ | ⟨other, same, late⟩
        · rw [next] at last
          cases last
        · obtain rfl : due + delay = other := Option.some.inj (next.symm.trans same)
          obtain ⟨rest, trace, finish⟩ := ih due (Row.advanceAll backend time rows state).1
            (Row.advanceAll backend time rows state).2.2
            (Row.advanceAll backend (time + delay) (rows.map (Row.later delay)) state').2.2
          intro ended late_run
          simp only [ended, late_run, goes, late, round, events]
          refine ⟨rest, ?_, finish⟩
          exact (congrArg _ trace).trans (Trace.later_append ..).symm

theorem Program.run_later {α : Type} (program : Program α) (time : Nat) (state state' : σ) :
    Ended.Later delay (program.run backend none time state) (program.run backend none (time + delay) state') := by
  induction program generalizing time state state' with
  | done result => exact ⟨rfl, rfl, rfl⟩
  | call request next ih =>
      have same := constant.reply request (time + delay) time state' state
      simp only [run, same]
      exact (ih _ time _ _).after [.called time request (backend.reply request time state).1]
  | exec command next ih =>
      have same := constant.output command (time + delay) time state' state
      simp only [run, same]
      rw [Nat.add_right_comm]
      exact (ih _ _ _ _).after [.sent time command, .answered (time + (backend.output command time state).1.1)
        command (backend.output command time state).1.2]
  | query rows next ih =>
      have unsent : rows.map Row.ofCommands = (rows.map Row.ofCommands).map (Row.later delay) := by
        rw [List.map_map]
        rfl
      obtain ⟨result, trace, finish⟩ := runRows_later constant delay (commandCount rows + 1) time
        (rows.map Row.ofCommands) state state'
      rw [← unsent] at result trace finish
      have outputs (rows : List Row) : Row.outputsOf (rows.map (Row.later delay)) = Row.outputsOf rows := by
        simp [Row.outputsOf, Row.later]
      simp only [run, result, trace, finish, outputs]
      exact (ih _ _ _ _).after _
  | settle delayMs next ih =>
      simp only [run, waitUntil]
      rw [Nat.add_right_comm]
      exact (ih false (time + delayMs) state state').after [.settled (time + delayMs) false]
  | look next ih => exact ih false time state state'

end Later

end SetScaler
