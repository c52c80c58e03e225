import Mathlib.Data.List.Forall2
import SetScaler.Proofs.Run.Cancellation

/-!
# Outputs are on record

Whatever outputs rows of commands come to, each of them has come back for its command, as the trace shows,
or stands for an interruption (`runRows_recorded`). By induction on the rounds, with the commands of a row cut
into those with an output, the one in flight and those still to be sent (`Row.Recorded`).
-/

namespace SetScaler

/-- A trace shows that an output is that of a command; an interruption need not show. -/
def Trace.Shows (trace : Trace) (command : BookieCommand) (output : Output) : Prop :=
  output = .error .cancelled ∨ ∃ time, .answered time command output ∈ trace

namespace Row

/-- A row of commands that has come so far, with all of its outputs in a trace. -/
def Recorded (trace : Trace) (commands : List BookieCommand) (row : Row) : Prop :=
  ∃ past, commands = past ++ (row.inFlight.toList.map InFlight.command ++ row.waiting) ∧
    List.Forall₂ trace.Shows past row.outputs

variable {σ : Type} {backend : Backend σ} {time : Nat} {trace : Trace} {commands : List BookieCommand}

theorem shown_snoc {past : List BookieCommand} {outputs : List Output} {command : BookieCommand}
    {output : Output} (shown : List.Forall₂ trace.Shows past outputs)
    (answered : .answered time command output ∈ trace) :
    List.Forall₂ trace.Shows (past ++ [command]) (outputs ++ [output]) :=
  List.rel_append shown (.cons (.inr ⟨time, answered⟩) .nil)

theorem send_recorded {past waiting : List BookieCommand} {outputs : List Output} {state : σ}
    (shown : List.Forall₂ trace.Shows past outputs)
    (part : (send backend time outputs waiting state).2.1 ⊆ trace) :
    Recorded trace (past ++ waiting) (send backend time outputs waiting state).1 := by
  induction waiting generalizing past outputs state with
  | nil => exact ⟨past, rfl, shown⟩
  | cons command rest ih =>
      unfold send at part ⊢
      dsimp only at part ⊢
      split at part
      · rename_i instant
        rw [if_pos instant]
        obtain ⟨-, answered, later⟩ := List.cons_subset.mp part |>.imp_right List.cons_subset.mp
        have all := ih (shown_snoc shown answered) later
        rwa [List.append_assoc] at all
      · rename_i lasts
        rw [if_neg lasts]
        exact ⟨past, rfl, shown⟩

theorem advance_recorded {row : Row} {state : σ} (recorded : Recorded trace commands row)
    (part : (row.advance backend time state).2.1 ⊆ trace) :
    Recorded trace commands (row.advance backend time state).1 := by
  obtain ⟨past, rfl, shown⟩ := recorded
  obtain ⟨outputs, flight, waiting⟩ := row
  cases flight with
  | none => exact send_recorded shown part
  | some flight =>
      by_cases passed : flight.due ≤ time
      · simp only [advance, passed, if_true] at part ⊢
        obtain ⟨answered, later⟩ := List.cons_subset.mp part
        have all := send_recorded (shown_snoc shown answered) later
        rwa [List.append_assoc] at all
      · simp only [advance, passed, if_false]
        exact ⟨past, rfl, shown⟩

variable {rows : List Row} {all : List (List BookieCommand)} {state : σ}

theorem advanceAll_recorded (recorded : List.Forall₂ (Recorded trace) all rows)
    (part : (advanceAll backend time rows state).2.1 ⊆ trace) :
    List.Forall₂ (Recorded trace) all (advanceAll backend time rows state).1 := by
  induction recorded generalizing state with
  | nil => exact .nil
  | cons one _ ih =>
      obtain ⟨first, later⟩ := List.append_subset.mp part
      exact .cons (advance_recorded one first) (ih later)

theorem cancelAll_recorded (recorded : List.Forall₂ (Recorded trace) all rows) :
    List.Forall₂ (Recorded trace) all (cancelAll time rows).1 := by
  refine List.forall₂_map_right_iff.mpr (recorded.imp fun commands row one => ?_)
  obtain ⟨past, rfl, shown⟩ := one
  refine ⟨past ++ (row.inFlight.toList.map InFlight.command ++ row.waiting), by simp [cancel], ?_⟩
  refine List.rel_append shown (List.forall₂_iff_get.mpr ⟨?_, ?_⟩)
  · simp [pending]
  · intro index _ _
    exact .inl (by simp)

end Row

theorem runRows_recording {σ : Type} {backend : Backend σ} {cancellation : Cancellation} {trace : Trace}
    {all : List (List BookieCommand)} {rounds time : Nat} {rows : List Row} {state : σ}
    (recorded : List.Forall₂ (Row.Recorded trace) all rows)
    (part : (runRows backend cancellation rounds time rows state).trace ⊆ trace) :
    List.Forall₂ (Row.Recorded trace) all (runRows backend cancellation rounds time rows state).result := by
  induction rounds generalizing time rows state with
  | zero => exact recorded
  | succ rounds ih =>
      cases fired : cancellation.firedBy time with
      | true =>
          rw [runRows, if_pos fired]
          exact Row.cancelAll_recorded recorded
      | false =>
          rcases runRows_round backend cancellation rounds rows state fired with
            ⟨-, last⟩ | ⟨due, -, goes⟩
          · rw [last] at part ⊢
            exact Row.advanceAll_recorded recorded part
          · rw [goes] at part ⊢
            obtain ⟨first, later⟩ := List.append_subset.mp part
            exact ih (Row.advanceAll_recorded recorded first) later

/-- The outputs that a trace shows for the first commands of a row. -/
def Trace.ShowsRow (trace : Trace) (commands : List BookieCommand) (outputs : List Output) : Prop :=
  ∃ past later, commands = past ++ later ∧ List.Forall₂ trace.Shows past outputs

theorem runRows_recorded {σ : Type} (backend : Backend σ) (cancellation : Cancellation) (rounds time : Nat)
    (rows : List (List BookieCommand)) (state : σ) :
    let ended := runRows backend cancellation rounds time (rows.map Row.ofCommands) state
    List.Forall₂ ended.trace.ShowsRow rows (Row.outputsOf ended.result) := by
  intro ended
  have unsent : List.Forall₂ (Row.Recorded ended.trace) rows (rows.map Row.ofCommands) :=
    List.forall₂_map_right_iff.mpr (List.forall₂_same.mpr fun commands _ => ⟨[], rfl, .nil⟩)
  refine List.forall₂_map_right_iff.mpr ((runRows_recording unsent (List.Subset.refl _)).imp ?_)
  rintro commands row ⟨past, same, shown⟩
  exact ⟨past, _, same, shown⟩

end SetScaler
