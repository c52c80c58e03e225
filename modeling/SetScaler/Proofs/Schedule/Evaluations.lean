import SetScaler.Proofs.Run.Suspension
import SetScaler.Proofs.Schedule.Retirement
import SetScaler.Proofs.Schedule.Spacing

/-!
# Evaluations return

Whatever a backend answers and however long its commands take, an evaluation that is taken further as often as
it can go on returns (`evaluations_allReturn`). So a shutdown of evaluations returns
(`evaluations_stop`), and as long as a set is live, it is evaluated over and over (`evaluations_recur`).
-/

namespace SetScaler.Schedule

variable {σ : Type} (backend : Backend σ) (settings : ScalingSettings)

theorem stepOf_going {trace : Trace} {step : Suspension (Except Failure Unit) × Trace × σ}
    {later : Suspension (Except Failure Unit)} (going : (stepOf trace step).1 = .going later) :
    step.1 = later ∧ ∀ result, later ≠ .done result := by
  obtain ⟨suspension, events, state⟩ := step
  cases suspension with
  | done result => cases going
  | executing | querying | settling =>
      obtain rfl := RunStep.going.inj going
      exact ⟨rfl, nofun⟩

theorem evaluations_timely : (evaluations backend settings).Timely where
  start {task earlier time due state run} going waits := by
    obtain ⟨same, -⟩ := stepOf_going going
    exact Program.proceed_later backend time false _ state.state (same ▸ waits)
  resume {time due cancelled state run later} going waits := by
    obtain ⟨same, -⟩ := stepOf_going going
    exact Suspension.resume_later backend time cancelled run state.state (same ▸ waits)

/-- An evaluation that is over, or that returns. -/
def Concludes (suspension : Suspension (Except Failure Unit)) : Prop :=
  (∀ result, suspension ≠ .done result) → (evaluations backend settings).Returns suspension

theorem concludes_done (result : Except Failure Unit) : Concludes backend settings (.done result) :=
  fun unfinished => absurd rfl (unfinished result)

variable {backend settings}

/-- An evaluation returns if taking it up leaves it as it is only before it is due. -/
theorem returns_of_resume {suspension : Suspension (Except Failure Unit)} {due : Nat}
    (waits : suspension.due? = some due)
    (resumes : ∀ time cancelled state,
      Concludes backend settings (suspension.resume backend time cancelled state).1 ∨
        (suspension.resume backend time cancelled state).1 = suspension ∧ time < due) :
    (evaluations backend settings).Returns suspension := by
  refine .intro waits fun time cancelled state later going late => ?_
  obtain ⟨same, unfinished⟩ : (suspension.resume backend time cancelled state.state).1 = later ∧ _ :=
    stepOf_going going
  rcases resumes time cancelled state.state with ends | ⟨kept, early⟩
  · rw [same] at ends
    exact ends unfinished
  · exact absurd (late (same.symm.trans kept)) (Nat.not_le_of_lt early)

section Query

variable {next : List (List Output) → Program (Except Failure Unit)}

theorem querying_returns {rows : List Row}
    (rest : ∀ outputs time cancelled state,
      Concludes backend settings ((next outputs).proceed backend time cancelled state).1)
    (sent : ∀ row ∈ rows, row.Sent) (left : Row.allOver rows = false) :
    (evaluations backend settings).Returns (.querying rows next) := by
  -- with each command that answers there are fewer left
  induction count : Row.pendingOf rows using Nat.strongRecOn generalizing rows with
  | _ count ih =>
      obtain ⟨due, waits⟩ := Row.nextDue?_of_sent sent left
      refine returns_of_resume waits fun time cancelled state => ?_
      rcases Suspension.resume_querying backend time cancelled rows next state with
        ⟨outputs, later, same⟩ | ⟨same, going⟩
      · rw [same]
        exact .inl (rest outputs time cancelled later)
      · rw [same]
        obtain ⟨⟨row, listed, ready⟩, timely⟩ := Row.nextDue?_eq_some waits
        by_cases early : time < due
        · have ahead : ∀ row ∈ rows, row.Ahead time := fun row listed flight flying =>
            Nat.lt_of_lt_of_le early (timely row listed flight flying)
          rw [Row.advanceAll_early backend time sent ahead state]
          exact .inr ⟨rfl, early⟩
        · obtain ⟨flight, flying, rfl⟩ := Option.map_eq_some_iff.mp ready
          have fewer := Row.advanceAll_lt backend time listed flying (Nat.le_of_not_lt early) state
          exact .inl fun _ => ih _ (count ▸ fewer) (Row.advanceAll_sent backend time rows state).1 going rfl

theorem resume_querying_concludes
    (rest : ∀ outputs time cancelled state,
      Concludes backend settings ((next outputs).proceed backend time cancelled state).1)
    (rows : List Row) (time : Nat) (cancelled : Bool) (state : σ) :
    Concludes backend settings ((Suspension.querying rows next).resume backend time cancelled state).1 := by
  rcases Suspension.resume_querying backend time cancelled rows next state with
    ⟨outputs, later, same⟩ | ⟨same, going⟩
  · rw [same]
    exact rest outputs time cancelled later
  · rw [same]
    exact fun _ => querying_returns rest (Row.advanceAll_sent backend time rows state).1 going

end Query

variable (backend settings)

/-- However far an evaluation has come, it returns. -/
theorem proceed_concludes (program : Program (Except Failure Unit)) (time : Nat) (cancelled : Bool) (state : σ) :
    Concludes backend settings (program.proceed backend time cancelled state).1 := by
  -- on the program; only a command, a query and a wait can leave the evaluation in progress
  induction program generalizing time cancelled state with
  | done result => exact concludes_done backend settings result
  | call request next ih => exact ih _ time cancelled _
  | exec command next ih =>
      simp only [Program.proceed]
      split
      · exact ih _ time cancelled _
      · refine fun _ => returns_of_resume rfl fun later cancelled state => ?_
        simp only [Suspension.resume]
        split
        · exact .inl (ih _ later cancelled state)
        · rename_i early
          exact .inr ⟨rfl, Nat.lt_of_not_le early⟩
  | query rows next ih =>
      rw [Program.proceed_query]
      exact resume_querying_concludes ih (rows.map Row.ofCommands) time cancelled state
  | settle delayMs next ih =>
      simp only [Program.proceed]
      split
      · exact ih _ time cancelled _
      · refine fun _ => returns_of_resume rfl fun later cancelled state => ?_
        simp only [Suspension.resume]
        split
        · exact .inl (ih _ later cancelled state)
        · rename_i early
          rw [Bool.or_eq_true, not_or, decide_eq_true_eq] at early
          exact .inr ⟨rfl, Nat.lt_of_not_le early.2⟩
  | look next ih => exact ih cancelled time cancelled state

theorem evaluations_allReturn : (evaluations backend settings).AllReturn := by
  intro task earlier time state run going
  obtain ⟨same, unfinished⟩ := stepOf_going going
  have ends := proceed_concludes backend settings (task.spec.run task.key settings) time false state.state
  rw [same] at ends
  exact ends unfinished

/-- A shutdown of evaluations that waits for long enough returns. -/
theorem evaluations_stop {state : Shared σ} {machine : Machine (Shared σ) (Suspension (Except Failure Unit))}
    (reached : Machine.Reaches (evaluations backend settings) { state } machine) :
    ∃ enough after, ∀ instants, enough ≤ instants →
      machine.stop (evaluations backend settings) instants = ⟨after, true⟩ :=
  Machine.stop_returns _ (evaluations_timely backend settings) (evaluations_allReturn backend settings) reached

/-- A live set with a period is evaluated after any instant. -/
theorem evaluations_recur {state : Shared σ} {steps : List Step}
    {machine : Machine (Shared σ) (Suspension (Except Failure Unit))}
    (clocked : Clocked (evaluations backend settings) { state } steps machine)
    {task : Task (Suspension (Except Failure Unit))} (mem : task ∈ machine.tasks)
    (regular : 0 < task.scheduled.spec.periodMs) (live : task.scheduled ∈ machine.registry.live)
    (instant : Nat) : ∃ enough, ∀ ms, enough ≤ ms →
      task.BegunSince instant (machine.call (evaluations backend settings) (.advance ms)) :=
  (clocked.recurs (evaluations_timely backend settings) mem regular).recurs
    (evaluations_allReturn backend settings) live instant

end SetScaler.Schedule
